import Viosnd.Render.Period
import Viosnd.Render.Stock

/-!
# Position and packet count

A completion adds the bytes of its buffer to `m_Position` and one to `m_PacketNumber`. The two
agree with each other and with the packets of the OS as long as every completed buffer holds one
packet.
-/

namespace Viosnd.Render

open StepRun EffectSystem

/-- The packets the last submission of the buffer took; `taken` was noted after it. -/
def packetsOf (id : Nat) : List ULONG → List Event → List ULONG
  | _, [] => []
  | taken, .submitted entry :: older => if entry.io.id = id then taken else packetsOf id [] older
  | _, .consumed packets :: older => packetsOf id packets older
  | taken, _ :: older => packetsOf id taken older

/-- The packets in the buffers the device returned. Preroll buffers hold none. -/
def returnedPackets : List Event → List ULONG
  | [] => []
  | .returned entry :: older => returnedPackets older ++ packetsOf entry.io.id [] older
  | _ :: older => returnedPackets older

/-- `m_Position` and `m_PacketNumber` agree with the packets returned since the session began. -/
structure CountsAgree (start w : World) : Prop where
  position : w.position.toNat = w.packetSize.toNat * w.packetNumber.toNat
  packets : (returnedPackets start.history).length + w.packetNumber.toNat =
    (returnedPackets w.history).length

/-- More packets have come back than `m_PacketNumber` says. -/
def Behind (start w : World) : Prop :=
  (returnedPackets start.history).length + w.packetNumber.toNat <
    (returnedPackets w.history).length

/-- A buffer with packets holds one, is not numbered as preroll, and the count does not wrap. -/
def SinglePacket (w : World) (entry : TxEntry) : Prop :=
  packetsOf entry.io.id [] w.history ≠ [] →
    (packetsOf entry.io.id [] w.history).length = 1 ∧ entry.packetNumber ≠ maxULONG ∧
      w.packetNumber ≠ maxULONG

instance (w : World) (entry : TxEntry) : Decidable (SinglePacket w entry) :=
  inferInstanceAs (Decidable (_ → _))

/-- The buffer the pass finds, if any, is a single packet's. -/
def HoldsOnePacket (w : World) (o : TxReclaim) : Prop :=
  ∀ entry ∈ (viosndReclaimPreparedWritePcm o w).2.1, SinglePacket w entry

instance (w : World) (o : TxReclaim) : Decidable (HoldsOnePacket w o) :=
  Option.decidableForallMem (p := SinglePacket w) _

def OnePacketEach (w : World) : PeriodStep → Prop
  | .worker (.reclaim o) => HoldsOnePacket w o
  | .worker (.maybeSwitch qpc i) => SwitchDue qpc w →
      let halted := haltCommands i (w.note (.counter qpc))
      Guarded reclaimPass HoldsOnePacket halted (reclaimPasses i.cancel.reclaims halted)
  | _ => True

/-! ## The histories -/

private theorem packetsOf_append (id : Nat) (taken : List ULONG) (noted history : List Event)
    (hsubmitted : ∀ e ∈ noted, ∀ entry, e ≠ .submitted entry)
    (hconsumed : ∀ e ∈ noted, ∀ packets, e ≠ .consumed packets) :
    packetsOf id taken (noted ++ history) = packetsOf id taken history := by
  induction noted with
  | nil => rfl
  | cons e noted ih =>
      have hrest := ih (fun e' he' => hsubmitted e' (List.mem_cons_of_mem e he'))
        (fun e' he' => hconsumed e' (List.mem_cons_of_mem e he'))
      cases e with
      | submitted entry => exact absurd rfl (hsubmitted _ List.mem_cons_self entry)
      | consumed packets => exact absurd rfl (hconsumed _ List.mem_cons_self packets)
      | _ => exact hrest

private theorem returnedPackets_append (noted history : List Event)
    (hnoted : ∀ e ∈ noted, ∀ entry, e ≠ .returned entry) :
    returnedPackets (noted ++ history) = returnedPackets history := by
  induction noted with
  | nil => rfl
  | cons e noted ih =>
      have hrest := ih fun e' he' => hnoted e' (List.mem_cons_of_mem e he')
      cases e with
      | returned entry => exact absurd rfl (hnoted _ List.mem_cons_self entry)
      | _ => exact hrest

private theorem Effect.packetsOf_eq {k : Kind} {w w' : World} (hR : Effect k w w')
    (hk : k ∉ ({.preroll, .silence, .packet} : Finset Kind)) (id : Nat) :
    packetsOf id [] w'.history = packetsOf id [] w.history := by
  obtain ⟨noted, hhistory, hnoted⟩ := hR.history_extends
  rw [hhistory]
  apply packetsOf_append
  · intro e he entry heq
    have hmem := hnoted e he
    rw [heq] at hmem
    exact hk hmem
  · intro e he packets heq
    have hmem := hnoted e he
    rw [heq] at hmem
    exact hk (by rw [Finset.mem_singleton.mp hmem]; decide)

/-! ## Totals -/

/-- The counters and what has come back are as before. -/
structure SameTotals (w w' : World) : Prop where
  packetSize : w'.packetSize = w.packetSize
  position : w'.position = w.position
  packetNumber : w'.packetNumber = w.packetNumber
  returned : returnedPackets w'.history = returnedPackets w.history

section

variable {start w w' : World}

theorem SameTotals.agree (h : SameTotals w w') : CountsAgree start w' ↔ CountsAgree start w := by
  constructor
  · rintro ⟨hposition, hpackets⟩
    rw [h.position, h.packetSize, h.packetNumber] at hposition
    rw [h.packetNumber, h.returned] at hpackets
    exact ⟨hposition, hpackets⟩
  · rintro ⟨hposition, hpackets⟩
    constructor
    · rw [h.position, h.packetSize, h.packetNumber]
      exact hposition
    · rw [h.packetNumber, h.returned]
      exact hpackets

theorem SameTotals.behind (h : SameTotals w w') : Behind start w' ↔ Behind start w := by
  unfold Behind
  rw [h.packetNumber, h.returned]

theorem Effect.packetSize_eq {k : Kind} (hR : Effect k w w') : w'.packetSize = w.packetSize := by
  have hsizes := hR.sizes_eq
  simp only [Prod.mk.injEq] at hsizes
  exact hsizes.2.2

private theorem Effect.sameTotals {k : Kind} (hR : Effect k w w')
    (hk : k ∉ ({.complete, .settle, .reset} : Finset Kind)) : SameTotals w w' := by
  obtain ⟨noted, hhistory, hnoted⟩ := hR.history_extends
  have hreturned : returnedPackets w'.history = returnedPackets w.history := by
    rw [hhistory]
    apply returnedPackets_append
    intro e he entry heq
    have hmem := hnoted e he
    rw [heq] at hmem
    exact hk (by rw [Finset.mem_singleton.mp hmem]; decide)
  have hfields : w'.position = w.position ∧ w'.packetNumber = w.packetNumber := by
    cases hR with
    | complete => exact absurd (by decide) hk
    | settle => exact absurd (by decide) hk
    | reset => exact absurd (by decide) hk
    | write => rw [setWritePacket_eq]; exact ⟨rfl, rfl⟩
    | free => rw [freeRenderIo_eq]; exact ⟨rfl, rfl⟩
    | detach => rw [detachEntry_eq]; exact ⟨rfl, rfl⟩
    | _ => exact ⟨rfl, rfl⟩
  exact ⟨hR.packetSize_eq, hfields.1, hfields.2, hreturned⟩

private theorem Does.sameTotals {K : Finset Kind} (h : Does K w w')
    (hK : .complete ∉ K ∧ .settle ∉ K ∧ .reset ∉ K) : SameTotals w w' := by
  refine h.invariant (P := SameTotals w) ?_ ⟨rfl, rfl, rfl, rfl⟩
  intro k hk a b hR ha
  have hb := hR.sameTotals (by
    simp only [Finset.mem_insert, Finset.mem_singleton]
    rintro (rfl | rfl | rfl)
    · exact hK.1 hk
    · exact hK.2.1 hk
    · exact hK.2.2 hk)
  exact ⟨hb.packetSize.trans ha.packetSize, hb.position.trans ha.position,
    hb.packetNumber.trans ha.packetNumber, hb.returned.trans ha.returned⟩

end

/-! ## The buffers on the queue -/

/-- A buffer without packets has the number of the preroll; one with a single packet has its length
in each mode it can be completed in. -/
structure Carries (active : Bool) (entry : TxEntry) (w : World) : Prop where
  silent : packetsOf entry.io.id [] w.history = [] → entry.packetNumber = maxULONG
  single : (packetsOf entry.io.id [] w.history).length = 1 → entry.packetNumber ≠ maxULONG →
    w.packetSize ≠ 0 ∧ entry.sourceLength = w.packetSize ∧
      (active = false → entry.audioLength = w.packetSize)

structure Carrying (active : Bool) (w : World) : Prop where
  stocked : ∃ pooled, Stocked pooled w
  carries : ∀ entry ∈ w.txQueue, Carries active entry w

section

variable {active : Bool} {w w' : World}

theorem Carries.congr {entry : TxEntry} (h : Carries active entry w)
    (htaken : packetsOf entry.io.id [] w'.history = packetsOf entry.io.id [] w.history)
    (hsize : w'.packetSize = w.packetSize) : Carries active entry w' := by
  constructor
  · rw [htaken]
    exact h.silent
  · rw [htaken, hsize]
    exact h.single

theorem Carrying.congr (h : Carrying active w) (hstocked : ∃ pooled, Stocked pooled w')
    (hsize : w'.packetSize = w.packetSize) (hqueue : ∀ entry ∈ w'.txQueue, entry ∈ w.txQueue)
    (htaken : ∀ id, packetsOf id [] w'.history = packetsOf id [] w.history) :
    Carrying active w' := by
  refine ⟨hstocked, fun entry hentry => ?_⟩
  exact (h.carries entry (hqueue entry hentry)).congr (htaken _) hsize

theorem Carrying.lend (h : Carrying active w) (entry : TxEntry) (htop : PoolTop entry.io w)
    (hstocked : ∃ pooled, Stocked pooled w')
    (hsize : w'.packetSize = w.packetSize)
    (hqueue : w'.txQueue = w.txQueue ++ [entry])
    (hothers : ∀ id ≠ entry.io.id, packetsOf id [] w'.history = packetsOf id [] w.history)
    (hentry : Carries active entry w') : Carrying active w' := by
  obtain ⟨pooled, hpooled⟩ := h.stocked
  refine ⟨hstocked, fun other hother => ?_⟩
  rw [hqueue] at hother
  rcases List.mem_append.mp hother with hold | hnew
  · refine (h.carries other hold).congr (hothers _ fun heq => ?_) hsize
    apply hpooled.top_not_queued htop
    rw [← heq]
    exact List.mem_map_of_mem hold
  · rw [List.mem_singleton.mp hnew]
    exact hentry

private theorem Effect.carrying {k : Kind} (hR : Effect k w w')
    (hk : k ∉ ({.silence, .packet} : Finset Kind)) (h : Carrying active w) :
    Carrying active w' := by
  obtain ⟨pooled, hpooled⟩ := h.stocked
  have hstocked := hR.stocked hpooled
  by_cases hpreroll : k = .preroll
  · subst hpreroll
    cases hR with
    | preroll entry _ htop hnumber =>
        have htaken : ∀ id, packetsOf id [] (lendRenderIo entry w).history =
            if entry.io.id = id then [] else packetsOf id [] w.history := fun id => rfl
        refine h.lend entry htop hstocked rfl rfl (fun id hid => ?_) ⟨?_, ?_⟩
        · rw [htaken, if_neg fun heq => hid heq.symm]
        · exact fun _ => hnumber
        · exact fun _ hne => absurd hnumber hne
  have htaken := hR.packetsOf_eq (by
    simp only [Finset.mem_insert, Finset.mem_singleton]
    rintro (rfl | rfl | rfl)
    · exact hpreroll rfl
    · exact hk (by decide)
    · exact hk (by decide))
  have hsize := hR.packetSize_eq
  refine h.congr hstocked hsize ?_ htaken
  cases hR with
  | preroll => exact absurd rfl hpreroll
  | free =>
      rw [freeRenderIo_eq]
      exact fun _ => id
  | complete k entry =>
      rw [completeEntry_eq]
      exact fun e he => List.mem_of_mem_eraseIdx he
  | detach k entry =>
      rw [detachEntry_eq]
      exact fun e he => List.mem_of_mem_eraseIdx he
  | write =>
      rw [setWritePacket_eq]
      exact fun _ => id
  | silence => exact absurd (by decide) hk
  | packet => exact absurd (by decide) hk
  | _ => exact fun _ => id

private theorem Does.carrying {K : Finset Kind} (h : Does K w w') (hK : .silence ∉ K ∧ .packet ∉ K)
    (hw : Carrying active w) : Carrying active w' := by
  refine h.invariant (fun k hk a b hR hs => hR.carrying ?_ hs) hw
  simp only [Finset.mem_insert, Finset.mem_singleton]
  rintro (rfl | rfl)
  · exact hK.1 hk
  · exact hK.2 hk

/-- In the fallback only the source length of a buffer counts. -/
private theorem Carrying.activate (h : Carrying false w) : Carrying true w := by
  refine ⟨h.stocked, fun entry hentry => ?_⟩
  have hcarries := h.carries entry hentry
  refine ⟨hcarries.silent, fun hone hne => ?_⟩
  obtain ⟨hsize, hsource, -⟩ := hcarries.single hone hne
  exact ⟨hsize, hsource, fun hactive => absurd hactive (by decide)⟩

end

/-! ## Blocks -/

private theorem fallbackBlock_grows (w : World) (memory : Memory) (packetNumber : ULONG) (n : Nat)
    (i : ULONG) (block : FallbackBlock) :
    fallbackBlock w memory packetNumber n i block = block ∨
      block.sources.length < (fallbackBlock w memory packetNumber n i block).sources.length := by
  induction n generalizing i block with
  | zero => exact Or.inl rfl
  | succ n ih =>
      unfold fallbackBlock
      dsimp only
      split
      · exact Or.inl rfl
      split
      · exact Or.inl rfl
      · refine Or.inr ?_
        split
        · simp
        · generalize hnext : FallbackBlock.mk _ _ (block.sources ++ _) _ = next
          have hlength : block.sources.length < next.sources.length := by
            rw [← hnext]
            simp
          rcases ih (i + 1) next with hsame | hmore
          · rw [hsame]
            exact hlength
          · exact hlength.trans hmore

/-- A fallback block with audio holds a packet; the bytes of a single one are its own. -/
private theorem fallbackBlock_single (w : World) (memory : Memory) (packetNumber phase : ULONG)
    (block : FallbackBlock)
    (hblock : fallbackBlock w memory packetNumber 3 0 ⟨[], 0, [], phase⟩ = block)
    (haudio : block.audio.length ≠ 0) : block.sources ≠ [] ∧
      (block.sources.length = 1 → w.eosPacketNumber ≠ packetNumber →
        block.sourceLength = w.packetSize) := by
  unfold fallbackBlock at hblock
  dsimp only at hblock
  split at hblock
  · rw [← hblock] at haudio
    exact absurd rfl haudio
  split at hblock
  · rw [← hblock] at haudio
    exact absurd rfl haudio
  have hzero : packetNumber + 0 = packetNumber := BitVec.add_zero packetNumber
  rw [hzero] at hblock
  split at hblock
  · rename_i heos
    rw [← hblock]
    refine ⟨by simp, fun _ hne => ?_⟩
    exact absurd (by simpa using heos) hne
  · generalize hnext : FallbackBlock.mk _ _ ([] ++ [packetNumber]) _ = next at hblock
    have hone : next.sources.length = 1 ∧ next.sourceLength = w.packetSize := by
      rw [← hnext]
      exact ⟨rfl, BitVec.zero_add _⟩
    rcases fallbackBlock_grows w memory packetNumber 2 (0 + 1) next with hsame | hmore
    · rw [← hblock, hsame]
      refine ⟨fun hnil => ?_, fun _ _ => hone.2⟩
      rw [hnil] at hone
      simp at hone
    · rw [hblock] at hmore
      refine ⟨fun hnil => ?_, fun hlength => ?_⟩
      · rw [hnil] at hmore
        simp at hmore
      · omega

private theorem renderBlock_single (w : World) (memory : Memory) (packetNumber : ULONG)
    (block : FallbackBlock) (hblock : renderBlock w memory packetNumber = .ok block) :
    block.sources ≠ [] ∧
      (block.sources.length = 1 → w.eosPacketNumber ≠ packetNumber →
        block.sourceLength = w.packetSize) := by
  unfold renderBlock at hblock
  split at hblock
  · split at hblock
    · cases hblock
    · dsimp only at hblock
      split at hblock
      · cases hblock
      · rename_i haudio
        cases hblock
        exact fallbackBlock_single w memory packetNumber _ _ rfl haudio
  · cases hblock
    exact ⟨by simp, fun _ _ => rfl⟩

/-! ## Submissions -/

section

variable {active : Bool} {w : World}

private theorem submitRenderPacket_carrying (packetNumber packetLength : ULONG) (o : TxSubmit)
    (h : Carrying active w) (heos : w.eosPacketNumber = maxULONG)
    (hactive : w.renderFallbackActive = active) :
    Carrying active (submitRenderPacket packetNumber packetLength o w).2 := by
  have htuned : ∀ buffer phase, Carrying active { w with
      buffer := buffer
      renderFallbackPhase := phase } := fun buffer phase =>
    (Does.one (.tune w buffer w.renderPrerollPackets phase w.renderFallbackBuffer
      w.fallbackMonitorStartPosition w.fallbackMonitorStartQpc w.renderFallbackAttempted
      w.targetOutstanding (Or.inl rfl))).carrying (by decide) h
  rcases submitRenderPacket_sends packetNumber packetLength o w with
    ⟨memory, block, entry, w₀, hw₀, ⟨-, hsize, -, hblock⟩, hsends, htop, heq⟩ |
    ⟨buffer, phase, -, status, -, w', hrefuse, heq⟩
  · rw [heq]
    have hw : Carrying active w₀ := by
      rw [hw₀]
      exact htuned _ _
    have hstocked : ∃ pooled, Stocked pooled (sendBlock block entry w₀) := by
      obtain ⟨pooled, hpooled⟩ := hw.stocked
      exact ⟨_, (hpooled.lend entry htop).congr rfl rfl rfl (freedIds_cons_of_none _ _ rfl) rfl⟩
    have htaken : ∀ id, packetsOf id [] (sendBlock block entry w₀).history =
        if entry.io.id = id then block.sources else packetsOf id [] w₀.history := fun id => rfl
    obtain ⟨hnonempty, hsingle⟩ := renderBlock_single _ _ packetNumber block hblock
    refine hw.lend entry htop hstocked rfl rfl (fun id hid => ?_) ⟨?_, ?_⟩
    · rw [htaken, if_neg fun heq => hid heq.symm]
    · rw [htaken, if_pos rfl]
      exact fun hnil => absurd hnil hnonempty
    · rw [htaken, if_pos rfl]
      intro hone hne
      rw [hsends.packetNumber] at hne
      have hlength : block.sourceLength = w.packetSize := by
        refine hsingle hone fun hsame => hne ?_
        exact hsame.symm.trans heos
      subst hw₀
      refine ⟨hsize, ?_, fun hinactive => ?_⟩
      · rw [hsends.sourceLength, hlength, if_pos hsize]
        rfl
      · rw [hsends.audioLength]
        unfold blockLength
        rw [hactive, hinactive]
        rfl
  · rw [heq]
    exact hrefuse.carrying (by decide) (htuned buffer phase)

private theorem submitNext_carrying (o : TxSubmit) (h : Carrying active w) (hsteady : InSession w)
    (hactive : w.renderFallbackActive = active) : Carrying active (submitNext o w).2 := by
  rcases submitNext_cases o hsteady with ⟨packetLength, -, -, heq⟩ | heq
  · rw [heq]
    exact submitRenderPacket_carrying _ _ o h hsteady.noEos hactive
  · rw [heq]
    exact h

/-! ## The switch -/

private theorem startFallback_carrying (i : SwitchInput) (h : Carrying false w) :
    Carrying (startFallback i w).2.renderFallbackActive (startFallback i w).2 := by
  have hstarted := (startFallback_does i w).carrying (by decide) h
  cases (startFallback i w).2.renderFallbackActive with
  | false => exact hstarted
  | true => exact hstarted.activate

end

/-! ## Completions -/

section

variable {active : Bool} {start w : World}

def completionBytes (active : Bool) (entry : TxEntry) : ULONG :=
  let sourceBytes := if active then entry.sourceLength else entry.audioLength
  if sourceBytes = 0 then entry.audioLength else sourceBytes

private theorem completeEntry_preroll (k : Nat) (entry : TxEntry) (w : World)
    (hnumber : entry.packetNumber = maxULONG) :
    (completeEntry k entry w).position = w.position ∧
      (completeEntry k entry w).packetNumber = w.packetNumber := by
  unfold completeEntry
  rw [recycleRenderIo_eq]
  unfold accountCompletion
  rw [if_pos hnumber]
  exact ⟨rfl, rfl⟩

private theorem completeEntry_counted (k : Nat) (entry : TxEntry) (w : World)
    (hnumber : entry.packetNumber ≠ maxULONG) :
    (completeEntry k entry w).position =
        w.position + (completionBytes w.renderFallbackActive entry).setWidth 64 ∧
      (completeEntry k entry w).packetNumber = w.packetNumber + 1 := by
  unfold completeEntry
  rw [recycleRenderIo_eq]
  unfold accountCompletion
  rw [if_neg hnumber]
  exact ⟨rfl, rfl⟩

private theorem completeEntry_returned (k : Nat) (entry : TxEntry) (w : World) :
    returnedPackets (completeEntry k entry w).history =
      returnedPackets w.history ++ packetsOf entry.io.id [] w.history := by
  obtain ⟨carried, hcarried, hhistory⟩ := completeEntry_history k entry w
  rw [hhistory]
  have hskip : ∀ e ∈ (if w.renderIoFreeCount < renderIoPoolSize then Event.pooled entry.io
      else Event.freed entry.io) :: carried, ∀ other, e ≠ .returned other := by
    intro e he other heq
    rcases List.mem_cons.mp he with rfl | hmem
    · split at heq <;> cases heq
    · rw [hcarried e hmem] at heq
      cases heq
  rw [← List.cons_append, returnedPackets_append _ _ hskip]
  rfl

theorem Carries.bytes {entry : TxEntry} (h : Carries active entry w)
    (hone : (packetsOf entry.io.id [] w.history).length = 1)
    (hnumber : entry.packetNumber ≠ maxULONG) : completionBytes active entry = w.packetSize := by
  obtain ⟨hsize, hsource, haudio⟩ := h.single hone hnumber
  unfold completionBytes
  cases active with
  | true => simpa [hsource] using fun hzero => absurd hzero hsize
  | false => simp [haudio rfl]

/-- A counted completion advances the number by at most one. -/
private theorem packetNumber_succ_le (n : ULONG) : (n + 1).toNat ≤ n.toNat + 1 := by
  rw [BitVec.toNat_add]
  exact Nat.mod_le _ _

private theorem packetNumber_succ {n : ULONG} (hn : n ≠ maxULONG) :
    (n + 1).toNat = n.toNat + 1 := by
  have hne : n.toNat ≠ 2 ^ 32 - 1 := fun h => hn (BitVec.eq_of_toNat_eq h)
  have hlt := n.isLt
  rw [BitVec.toNat_add]
  exact Nat.mod_eq_of_lt (by
    change n.toNat + 1 < 2 ^ 32
    omega)

private theorem completeEntry_agree (k : Nat) (entry : TxEntry) (hagree : CountsAgree start w)
    (hentry : Carries w.renderFallbackActive entry w)
    (hone : SinglePacket w entry) : CountsAgree start (completeEntry k entry w) := by
  obtain ⟨hposition, hpackets⟩ := hagree
  have hsize : (completeEntry k entry w).packetSize = w.packetSize := by
    rw [completeEntry_eq]
  have hreturned := completeEntry_returned k entry w
  by_cases hsilent : packetsOf entry.io.id [] w.history = []
  · obtain ⟨hpos, hnumber⟩ := completeEntry_preroll k entry w (hentry.silent hsilent)
    constructor
    · rw [hpos, hsize, hnumber]
      exact hposition
    · rw [hnumber, hreturned, hsilent, List.append_nil]
      exact hpackets
  · obtain ⟨hlength, hnumbered, hroom⟩ := hone hsilent
    obtain ⟨hpos, hnumber⟩ := completeEntry_counted k entry w hnumbered
    have hbytes := hentry.bytes hlength hnumbered
    have hnext := packetNumber_succ hroom
    constructor
    · have hsum : w.position.toNat + w.packetSize.toNat =
          w.packetSize.toNat * (w.packetNumber.toNat + 1) := by
        rw [hposition, Nat.mul_succ]
      have hsmall : w.packetSize.toNat * (w.packetNumber.toNat + 1) < 2 ^ 64 := by
        have hsizeLt := w.packetSize.isLt
        have hnumberLt : w.packetNumber.toNat + 1 < 2 ^ 32 := by
          rw [← hnext]
          exact (w.packetNumber + 1).isLt
        calc w.packetSize.toNat * (w.packetNumber.toNat + 1)
            ≤ 2 ^ 32 * (w.packetNumber.toNat + 1) := Nat.mul_le_mul_right _ hsizeLt.le
          _ < 2 ^ 32 * 2 ^ 32 := Nat.mul_lt_mul_of_pos_left hnumberLt (by decide)
          _ = 2 ^ 64 := by decide
      rw [hpos, hsize, hnumber, hbytes, hnext, BitVec.toNat_add, BitVec.toNat_setWidth_of_le
        (by decide), hsum, Nat.mod_eq_of_lt hsmall]
    · rw [hnumber, hreturned, List.length_append, hlength, hnext]
      omega

/-- A buffer with several packets, or with the number of the preroll, leaves the count behind. -/
private theorem completeEntry_breaks (k : Nat) (entry : TxEntry) (hagree : CountsAgree start w)
    (hnot : ¬ SinglePacket w entry) : Behind start (completeEntry k entry w) := by
  have hpackets := hagree.packets
  have hreturned := completeEntry_returned k entry w
  unfold SinglePacket at hnot
  rw [Classical.not_imp] at hnot
  obtain ⟨hsome, hnot⟩ := hnot
  have hpos := List.length_pos_of_ne_nil hsome
  unfold Behind
  rw [hreturned, List.length_append]
  by_cases hnumbered : entry.packetNumber = maxULONG
  · obtain ⟨-, hnumber⟩ := completeEntry_preroll k entry w hnumbered
    rw [hnumber]
    omega
  · obtain ⟨-, hnumber⟩ := completeEntry_counted k entry w hnumbered
    rw [hnumber]
    by_cases hwrap : w.packetNumber = maxULONG
    · rw [hwrap] at hpackets ⊢
      have hzero : (maxULONG + 1).toNat = 0 := rfl
      rw [hzero]
      omega
    · have hmany : (packetsOf entry.io.id [] w.history).length ≠ 1 := fun hone =>
        hnot ⟨hone, hnumbered, hwrap⟩
      have hle := packetNumber_succ_le w.packetNumber
      omega

/-- A count that is behind stays behind. -/
private theorem completeEntry_behind (k : Nat) (entry : TxEntry) (hbehind : Behind start w)
    (hentry : Carries w.renderFallbackActive entry w) :
    Behind start (completeEntry k entry w) := by
  have hreturned := completeEntry_returned k entry w
  unfold Behind at hbehind ⊢
  rw [hreturned, List.length_append]
  by_cases hnumbered : entry.packetNumber = maxULONG
  · obtain ⟨-, hnumber⟩ := completeEntry_preroll k entry w hnumbered
    rw [hnumber]
    omega
  · obtain ⟨-, hnumber⟩ := completeEntry_counted k entry w hnumbered
    have hsome : packetsOf entry.io.id [] w.history ≠ [] := fun hnil =>
      hnumbered (hentry.silent hnil)
    have hpos := List.length_pos_of_ne_nil hsome
    have hle := packetNumber_succ_le w.packetNumber
    rw [hnumber]
    omega

end

/-! ## Steps -/

section

variable {start w : World}

private theorem reclaimPass_cases (o : TxReclaim) (w : World) :
    (∃ k entry, w.txQueue[k]? = some entry ∧ reclaimPass w o = completeEntry k entry w ∧
      (viosndReclaimPreparedWritePcm o w).2.1 = some entry) ∨
    (reclaimPass w o = w ∧ (viosndReclaimPreparedWritePcm o w).2.1 = none) := by
  cases o with
  | used k =>
      cases hk : w.txQueue[k]? with
      | none =>
          refine Or.inr ⟨?_, ?_⟩
          all_goals simp [reclaimPass, reclaimRenderPacket, viosndReclaimPreparedWritePcm, hk]
      | some entry =>
          refine Or.inl ⟨k, entry, hk, ?_, ?_⟩
          · simp only [reclaimPass, reclaimRenderPacket, viosndReclaimPreparedWritePcm, hk]
            rfl
          · simp [viosndReclaimPreparedWritePcm, hk]
  | noQueue => exact Or.inr ⟨rfl, rfl⟩
  | mutexTimeout => exact Or.inr ⟨rfl, rfl⟩
  | empty => exact Or.inr ⟨rfl, rfl⟩

/-- A stream in a period: the session is steady, and the buffers fit the mode. -/
structure Running (w : World) : Prop where
  steady : InSession w
  carrying : Carrying w.renderFallbackActive w

theorem Running.congr {K : Finset Kind} {w' : World} (h : Running w) (hdoes : Does K w w')
    (hK : .silence ∉ K ∧ .packet ∉ K) (hfields : sessionFields w' = sessionFields w) :
    Running w' := by
  refine ⟨h.steady.congr hfields, ?_⟩
  rw [active_of_fields hfields]
  exact hdoes.carrying hK h.carrying

private theorem reclaimPass_running (o : TxReclaim) (h : Running w) : Running (reclaimPass w o) :=
  h.congr (reclaimRenderPacket_does o w) (by decide)
    ((reclaimRenderPacket_does o w).sessionFields_eq (by decide))

private theorem reclaimPass_agree (o : TxReclaim) (h : Running w) (hagree : CountsAgree start w)
    (hone : HoldsOnePacket w o) : CountsAgree start (reclaimPass w o) := by
  rcases reclaimPass_cases o w with ⟨k, entry, hk, heq, hfound⟩ | ⟨heq, -⟩
  · rw [heq]
    exact completeEntry_agree k entry hagree (h.carrying.carries entry (List.mem_of_getElem? hk))
      (hone entry hfound)
  · rw [heq]
    exact hagree

private theorem reclaimPass_breaks (o : TxReclaim) (hagree : CountsAgree start w)
    (hnot : ¬ HoldsOnePacket w o) : Behind start (reclaimPass w o) := by
  rcases reclaimPass_cases o w with ⟨k, entry, -, heq, hfound⟩ | ⟨-, hnone⟩
  · rw [heq]
    refine completeEntry_breaks k entry hagree fun hone => hnot fun other hother => ?_
    rw [hfound, Option.mem_some_iff] at hother
    subst hother
    exact hone
  · refine absurd (fun other hother => ?_) hnot
    rw [hnone] at hother
    cases hother

private theorem reclaimPass_behind (o : TxReclaim) (h : Running w) (hbehind : Behind start w) :
    Behind start (reclaimPass w o) := by
  rcases reclaimPass_cases o w with ⟨k, entry, hk, heq, -⟩ | ⟨heq, -⟩
  · rw [heq]
    exact completeEntry_behind k entry hbehind (h.carrying.carries entry (List.mem_of_getElem? hk))
  · rw [heq]
    exact hbehind

/-- What a step does to the counters: kept together by guarded passes, behind after another. -/
structure Splits (start w w' : World) (guard : Prop) : Prop where
  agree : CountsAgree start w → guard → CountsAgree start w'
  breaks : CountsAgree start w → ¬ guard → Behind start w'
  behind : Behind start w → Behind start w'

private theorem reclaimPasses_splits (start : World) (passes : List TxReclaim) (h : Running w) :
    Splits start w (run reclaimPass w passes) (Guarded reclaimPass HoldsOnePacket w passes) := by
  obtain ⟨hbehind, hsplit⟩ := guarded_or_broken reclaimPass HoldsOnePacket
    (P := CountsAgree start) (B := Behind start) (fun _ o hs => reclaimPass_running o hs)
    (fun _ o hs hP hguard => reclaimPass_agree o hs hP hguard)
    (fun _ o _ hP hnot => reclaimPass_breaks o hP hnot)
    (fun _ o hs hB => reclaimPass_behind o hs hB) h passes
  exact ⟨fun hagree => (hsplit hagree).1, fun hagree => (hsplit hagree).2, hbehind⟩

private theorem SameTotals.splits {w' : World} (h : SameTotals w w') : Splits start w w' True :=
  ⟨fun hagree _ => h.agree.mpr hagree, fun _ hnot => absurd trivial hnot, h.behind.mpr⟩

theorem Splits.after {w₁ w₂ : World} {guard : Prop} (h : Splits start w w₁ guard)
    (hlater : SameTotals w₁ w₂) : Splits start w w₂ guard :=
  ⟨fun hagree hguard => hlater.agree.mpr (h.agree hagree hguard),
    fun hagree hnot => hlater.behind.mpr (h.breaks hagree hnot),
    fun hbehind => hlater.behind.mpr (h.behind hbehind)⟩

theorem Splits.before {w₁ w₂ : World} {guard : Prop} (hfirst : SameTotals w w₁)
    (h : Splits start w₁ w₂ guard) : Splits start w w₂ guard :=
  ⟨fun hagree => h.agree (hfirst.agree.mpr hagree),
    fun hagree => h.breaks (hfirst.agree.mpr hagree),
    fun hbehind => h.behind (hfirst.behind.mpr hbehind)⟩

/-! ### The fallback switch -/

private theorem haltCommands_does (i : SwitchInput) (w : World) :
    Does {.command, .tune} w (haltCommands i w) := by
  refine (Within.single (k := .tune) (by decide) (.tune w w.buffer w.renderPrerollPackets
    w.renderFallbackPhase w.renderFallbackBuffer w.fallbackMonitorStartPosition
    w.fallbackMonitorStartQpc true w.targetOutstanding (Or.inl rfl))).trans ?_
  have hstop := viosndPcmCommand_does .stop i.stop { w with renderFallbackAttempted := true }
  exact (hstop.mono (by decide)).trans
    ((viosndPcmCommand_does .release i.release _).mono (by decide))

private theorem haltCommands_running (i : SwitchInput) (h : Running w) :
    Running (haltCommands i w) :=
  ⟨⟨h.steady.noEos, h.steady.noPreroll, fun _ => rfl⟩,
    (haltCommands_does i w).carrying (by decide) h.carrying⟩

private theorem haltForFallback_eq (i : SwitchInput) (w : World) :
    haltForFallback i w = detachRenderWrites i.cancel.detaches (run reclaimPass
      (haltCommands i w) (reclaimPasses i.cancel.reclaims (haltCommands i w))) := by
  rw [← reclaimRenderPackets_run]
  rfl

private theorem switchRenderToFallback_carrying (i : SwitchInput) (h : Carrying false w)
    (hinactive : w.renderFallbackActive = false) :
    Carrying (switchRenderToFallback i w).2.renderFallbackActive
      (switchRenderToFallback i w).2 := by
  have hhalted : Carrying false (haltForFallback i w) :=
    (haltForFallback_does i w).carrying (by decide) h
  unfold switchRenderToFallback
  split
  · exact startFallback_carrying i hhalted
  · have hmode := active_of_fields (haltForFallback_fields i w)
    change Carrying (haltForFallback i w).renderFallbackActive _
    rw [hmode, hinactive]
    exact hhalted

private theorem switchRenderToFallback_splits (start : World) (i : SwitchInput) (h : Running w) :
    Splits start w (switchRenderToFallback i w).2 (Guarded reclaimPass HoldsOnePacket
      (haltCommands i w) (reclaimPasses i.cancel.reclaims (haltCommands i w))) := by
  have hcommands : SameTotals w (haltCommands i w) := ⟨rfl, rfl, rfl, rfl⟩
  have hpasses := reclaimPasses_splits start
    (reclaimPasses i.cancel.reclaims (haltCommands i w)) (haltCommands_running i h)
  have hdetach := (detachRenderWrites_does i.cancel.detaches (run reclaimPass (haltCommands i w)
    (reclaimPasses i.cancel.reclaims (haltCommands i w)))).sameTotals (by decide)
  rw [← haltForFallback_eq] at hdetach
  have hhalted := Splits.before hcommands (hpasses.after hdetach)
  unfold switchRenderToFallback
  split
  · exact hhalted.after ((startFallback_does i _).sameTotals (by decide))
  · exact hhalted

private theorem maybeSwitchRenderFallback_carrying (qpc : LONGLONG) (i : SwitchInput)
    (h : Carrying false w) (hinactive : w.renderFallbackActive = false) :
    Carrying (maybeSwitchRenderFallback qpc i w).renderFallbackActive
      (maybeSwitchRenderFallback qpc i w) := by
  by_cases hdue : SwitchDue qpc w
  · rw [maybeSwitchRenderFallback_due qpc i w hdue]
    exact switchRenderToFallback_carrying i
      ((Does.one (.reading qpc w)).carrying (by decide) h) hinactive
  · obtain ⟨attempted, hfields⟩ := maybeSwitchRenderFallback_notDue_fields qpc i w hdue
    simp only [sessionFields, Prod.mk.injEq] at hfields
    rw [hfields.2.2.2.1, hinactive]
    exact (maybeSwitchRenderFallback_notDue qpc i w hdue).carrying (by decide) h

/-! ### All steps -/

private theorem periodStep_does (s : PeriodStep) (hs : ¬ s.Tunes) :
    Does {.command, .reading, .report, .tune, .thread, .enter, .write, .free, .complete, .detach} w
      (periodStep w s) := by
  cases s with
  | setWritePacket packetNumber eosPacketLength =>
      exact (Does.one (.write packetNumber false eosPacketLength w)).mono (by decide)
  | writeBuffer memory =>
      exact Within.single (k := .tune) (by decide) (.tune w _ _ _ _ _ _ _ _ (Or.inl rfl))
  | worker s =>
      cases s with
      | reclaim o => exact (reclaimRenderPacket_does o w).mono (by decide)
      | chooseTarget => exact (chooseTarget_does w).mono (by decide)
      | _ => exact absurd trivial hs
  | getPosition qpc => exact (getPosition_does qpc w).mono (by decide)
  | getPresentationPosition qpc => exact (queryClock_does qpc w).mono (by decide)
  | enter s => exact (Does.one (.enter s w)).mono (by decide)
  | command c answer => exact (viosndPcmCommand_does c answer w).mono (by decide)
  | stopWorker exited => exact (stopRenderWorker_does exited w).mono (by decide)
  | detach o => exact (detachRenderWrites_does [o] w).mono (by decide)
  | freePool => exact (freeRenderIoPool_does w).mono (by decide)

private theorem periodStep_running (s : PeriodStep) (h : Running w) : Running (periodStep w s) := by
  by_cases hs : s.Tunes
  · refine ⟨periodStep_steady s h.steady, ?_⟩
    cases s with
    | worker s =>
        cases s with
        | maybeSwitch qpc i =>
            cases hmode : w.renderFallbackActive with
            | true =>
                simp only [periodStep, workerStep,
                  maybeSwitchRenderFallback_active qpc i h.steady hmode]
                exact h.carrying
            | false =>
                refine maybeSwitchRenderFallback_carrying qpc i ?_ hmode
                rw [← hmode]
                exact h.carrying
        | submit o =>
            simp only [periodStep, workerStep, (submitPass_steady o h.steady).2]
            unfold submitPass
            split
            · exact submitNext_carrying o h.carrying h.steady rfl
            · exact h.carrying
        | submitLate o =>
            simp only [periodStep, workerStep, (submitLate_steady o h.steady).2]
            unfold submitLate
            split
            · exact submitNext_carrying o h.carrying h.steady rfl
            · exact h.carrying
        | _ => exact hs.elim
    | _ => exact hs.elim
  · exact h.congr (periodStep_does s hs) (by decide) (periodStep_fields s h.steady hs)

private theorem periodStep_splits (s : PeriodStep) (h : Running w) :
    Splits start w (periodStep w s) (OnePacketEach w s) := by
  cases s with
  | setWritePacket packetNumber eosPacketLength =>
      exact ((Effect.write packetNumber false eosPacketLength w).sameTotals (by decide)).splits
  | writeBuffer memory => exact SameTotals.splits ⟨rfl, rfl, rfl, rfl⟩
  | worker s =>
      cases s with
      | reclaim o => exact ⟨fun hagree hone => reclaimPass_agree o h hagree hone,
          fun hagree hnot => reclaimPass_breaks o hagree hnot, reclaimPass_behind o h⟩
      | maybeSwitch qpc i =>
          have hread : SameTotals w (w.note (.counter qpc)) := ⟨rfl, rfl, rfl, rfl⟩
          have hnoted : Running (w.note (.counter qpc)) :=
            h.congr (Does.one (.reading qpc w)) (by decide) rfl
          by_cases hdue : SwitchDue qpc w
          · have hswitch := Splits.before hread (switchRenderToFallback_splits start i hnoted)
            simp only [periodStep, workerStep, maybeSwitchRenderFallback_due qpc i w hdue]
            exact ⟨fun hagree hguard => hswitch.agree hagree (hguard hdue),
              fun hagree hnot => hswitch.breaks hagree fun hguard => hnot fun _ => hguard,
              hswitch.behind⟩
          · have hsame := (maybeSwitchRenderFallback_notDue qpc i w hdue).sameTotals (by decide)
            exact ⟨fun hagree _ => hsame.agree.mpr hagree,
              fun _ hnot => absurd (fun hyes => absurd hyes hdue) hnot, hsame.behind.mpr⟩
      | chooseTarget => exact ((chooseTarget_does w).sameTotals (by decide)).splits
      | submit o => exact ((submitPass_does o w).sameTotals (by decide)).splits
      | submitLate o => exact ((submitLate_does o w).sameTotals (by decide)).splits
  | getPosition qpc => exact ((getPosition_does qpc w).sameTotals (by decide)).splits
  | getPresentationPosition qpc => exact ((queryClock_does qpc w).sameTotals (by decide)).splits
  | enter s => exact SameTotals.splits ⟨rfl, rfl, rfl, rfl⟩
  | command c answer => exact SameTotals.splits ⟨rfl, rfl, rfl, rfl⟩
  | stopWorker exited => exact ((stopRenderWorker_does exited w).sameTotals (by decide)).splits
  | detach o => exact ((detachRenderWrites_does [o] w).sameTotals (by decide)).splits
  | freePool => exact ((freeRenderIoPool_does w).sameTotals (by decide)).splits

end

/-! ## The start of a period -/

private theorem setState_run_begins (i : SetStateInput) (start : World) (hreset : start.IsReset)
    (hstocked : ∃ pooled, Stocked pooled start)
    (hok : (setState .run i start).1 = .success) :
    Running (setState .run i start).2 ∧ CountsAgree start (setState .run i start).2 := by
  obtain ⟨hsteady, hinactive⟩ := setState_run_steady i hreset.idle hreset.eosPacketNumber hok
  have hdoes : Does startKinds start (setState .run i start).2 := by
    rw [setState_start i start hreset.idle] at hok ⊢
    exact (startRender_success_does i start hok).1
  have hcarrying : Carrying false start := ⟨hstocked, by
    rw [hreset.txQueue]
    simp⟩
  constructor
  · refine ⟨hsteady, ?_⟩
    rw [hinactive]
    exact hdoes.carrying (by decide) hcarrying
  · refine (hdoes.sameTotals (by decide)).agree.mpr ⟨?_, ?_⟩
    · rw [hreset.position, hreset.packetNumber]
      rfl
    · rw [hreset.packetNumber]
      rfl

/-! ## The period -/

/-- All through a period that begins with a reset session, position and packet count agree with
the packets returned exactly as long as every buffer reclaimed holds one packet. -/
theorem run_countsAgree (buffer : Option Memory)
    (bufferSize notificationCount packetSize : ULONG) (actions : List Action)
    (i : SetStateInput) (steps : List PeriodStep) :
    let start := run step (World.fresh buffer bufferSize notificationCount packetSize) actions
    let running := (setState .run i start).2
    start.IsReset → (setState .run i start).1 = .success →
      (CountsAgree start (run periodStep running steps) ↔
        Guarded periodStep OnePacketEach running steps) := by
  intro start running hreset hok
  obtain ⟨hrunning, hagree⟩ := setState_run_begins i start hreset (run_stocked _ _ _ _ _) hok
  obtain ⟨-, hsplit⟩ := guarded_or_broken periodStep OnePacketEach
    (P := CountsAgree start) (B := Behind start) (fun _ s hs => periodStep_running s hs)
    (fun _ s hs hP hguard => (periodStep_splits s hs).agree hP hguard)
    (fun _ s hs hP hnot => (periodStep_splits s hs).breaks hP hnot)
    (fun _ s hs hB => (periodStep_splits s hs).behind hB) hrunning steps
  obtain ⟨hgood, hbad⟩ := hsplit hagree
  refine ⟨fun hend => ?_, hgood⟩
  by_contra hnot
  have hbehind := hbad hnot
  unfold Behind at hbehind
  rw [hend.packets] at hbehind
  exact Nat.lt_irrefl _ hbehind

/-- A packet that is written, submitted and completed in the default format. -/
theorem run_countsAgree_written :
    let start := World.fresh (some fun _ => 0) 32768 16 2048
    CountsAgree start (run periodStep (setState .run (.granted 1) start).2
      [.setWritePacket 5 0, .worker .chooseTarget, .worker (.submit .queued),
        .worker (.reclaim (.used 2))]) := by
  intro start
  have hiff := run_countsAgree (some fun _ => 0) 32768 16 2048 [] (.granted 1)
    [.setWritePacket 5 0, .worker .chooseTarget, .worker (.submit .queued),
      .worker (.reclaim (.used 2))]
    ⟨by decide, rfl, rfl, rfl, rfl⟩ (by decide +kernel)
  refine hiff.mpr ⟨trivial, trivial, trivial, ?_, trivial⟩
  change HoldsOnePacket _ _
  decide +kernel

/-- A fallback buffer with two packets: the position advances by both, the packet count by one. -/
theorem run_not_countsAgree :
    let start := World.fresh (some fun _ => 0) 32768 16 2048
    start.IsReset ∧ (setState .run (.granted 1) start).1 = .success ∧
      ¬ CountsAgree start (run periodStep (setState .run (.granted 1) start).2
        [.worker (.maybeSwitch 10 (.granted 10)),
          .worker (.maybeSwitch 25000010 (.granted 25000010)), .setWritePacket 5 0,
          .setWritePacket 6 0, .worker .chooseTarget, .worker (.reclaim (.used 0)),
          .worker (.submit .queued), .worker (.reclaim (.used 1))]) := by
  intro start
  refine ⟨⟨by decide, rfl, rfl, rfl, rfl⟩, by decide +kernel, fun hagree => ?_⟩
  exact absurd hagree.position (by decide +kernel)

end Viosnd.Render
