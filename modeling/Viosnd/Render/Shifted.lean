import Mathlib.Data.Nat.ModEq
import Viosnd.Render.Retry
import Viosnd.Render.Unnumbered

/-!
# Packet numbers that wrap around

Two streams get the same calls and answers, but for a shift `s` of the numbers `SetWritePacket` is
called with. The slots a shift by a multiple of the packet count leaves alone, and the order of two
numbers is the order of the shifted ones. Only `MAXULONG` is a number of its own.
-/

namespace Viosnd.Render

open StepRun EffectSystem

/-! ## Numbers -/

/-- Packet counts that divide `2 ^ 32` divide the numbers into slots all around the circle. -/
theorem packetOffset_add {notificationCount s : ULONG} (packetNumber packetSize : ULONG)
    (hcount : notificationCount.toNat ∣ 2 ^ 32) (hs : notificationCount.toNat ∣ s.toNat) :
    packetOffset (packetNumber + s) notificationCount packetSize =
      packetOffset packetNumber notificationCount packetSize := by
  have hne : notificationCount ≠ 0 := by
    rintro rfl
    exact absurd (Nat.eq_zero_of_zero_dvd hcount) (by decide)
  have hmod : (packetNumber + s) % notificationCount = packetNumber % notificationCount := by
    apply BitVec.eq_of_toNat_eq
    rw [BitVec.toNat_umod, BitVec.toNat_umod, BitVec.toNat_add, Nat.mod_mod_of_dvd _ hcount]
    obtain ⟨k, hk⟩ := hs
    rw [hk, Nat.add_mul_mod_self_left]
  unfold packetOffset
  rw [if_neg hne, hmod]

theorem viosndPacketNumberLessOrEqual_add (left right s : ULONG) :
    viosndPacketNumberLessOrEqual (left + s) (right + s) =
      viosndPacketNumberLessOrEqual left right := by
  have hdifference : left + s - (right + s) = left - right := by bv_omega
  unfold viosndPacketNumberLessOrEqual
  rw [hdifference]

/-- The number is not `MAXULONG`, neither in the first stream nor in the shifted one. -/
def ClearNumber (s packetNumber : ULONG) : Prop :=
  packetNumber ≠ maxULONG ∧ packetNumber + s ≠ maxULONG

instance (s packetNumber : ULONG) : Decidable (ClearNumber s packetNumber) :=
  inferInstanceAs (Decidable (_ ∧ _))

theorem ClearNumber.mask {s packetNumber : ULONG} (h : ClearNumber s packetNumber) :
    maskNumber (packetNumber + s) = maskNumber packetNumber := by
  unfold maskNumber
  rw [if_neg h.1, if_neg h.2]

/-! ## Shifted streams -/

/-- Nothing is shifted before a packet is written. -/
def shiftOf (s : ULONG) (w : World) : ULONG := if w.lastOsWritePacket = maxULONG then 0 else s

/-- The second stream has the numbers of the first, shifted by `s` once a packet was written. -/
structure Shifted (notificationCount packetSize s : ULONG) (w w' : World) : Prop where
  slot : ∀ p, packetOffset (p + s) notificationCount packetSize =
    packetOffset p notificationCount packetSize
  same : w'.unnumbered (packetOffset · notificationCount packetSize) =
    w.unnumbered (packetOffset · notificationCount packetSize)
  next : w'.nextSubmitPacket = w.nextSubmitPacket + shiftOf s w
  last : w.lastOsWritePacket ≠ maxULONG → w'.lastOsWritePacket = w.lastOsWritePacket + s
  eos : w.eosPacketNumber ≠ maxULONG →
    w.lastOsWritePacket ≠ maxULONG ∧ w'.eosPacketNumber = w.eosPacketNumber + s
  geometry : (w.notificationCount, w.packetSize) = (notificationCount, packetSize)

def numbersOf (w : World) : ULONG × ULONG × ULONG :=
  (w.nextSubmitPacket, w.lastOsWritePacket, w.eosPacketNumber)

theorem Does.geometry_eq {K : Finset Kind} {w w' : World} (h : Does K w w') :
    (w'.notificationCount, w'.packetSize) = (w.notificationCount, w.packetSize) :=
  h.keeps (fun w => (w.notificationCount, w.packetSize)) fun _ _ _ _ hR =>
    congrArg Prod.snd hR.sizes_eq

theorem Does.eosPacketNumber_eq {K : Finset Kind} {w w' : World} (h : Does K w w')
    (hK : .write ∉ K ∧ .reset ∉ K) : w'.eosPacketNumber = w.eosPacketNumber :=
  h.keeps World.eosPacketNumber fun _ hk _ _ hR => by
    cases hR with
    | write => exact absurd hk hK.1
    | reset => exact absurd hk hK.2
    | free => rw [freeRenderIo_eq]
    | complete => rw [completeEntry_eq]
    | detach => rw [detachEntry_eq]
    | _ => rfl

private theorem Does.numbersOf_eq {K : Finset Kind} {w w' : World} (h : Does K w w')
    (hK : .write ∉ K ∧ .reset ∉ K ∧ .silence ∉ K ∧ .packet ∉ K) : numbersOf w' = numbersOf w := by
  unfold numbersOf
  rw [h.nextSubmitPacket_eq hK, h.lastOsWritePacket_eq ⟨hK.1, hK.2.1⟩,
    h.eosPacketNumber_eq ⟨hK.1, hK.2.1⟩]

section

variable {notificationCount packetSize s : ULONG} {w w' : World}

theorem Shifted.cyclic_iff (h : Shifted notificationCount packetSize s w w') :
    w'.lastOsWritePacket = maxULONG ↔ w.lastOsWritePacket = maxULONG := by
  have hcyclic := read_eq (fun w => w.lastOsWritePacket = maxULONG)
    (fun w => propext (maskNumber_eq_max w.lastOsWritePacket)) h.same
  exact Iff.of_eq hcyclic

theorem Shifted.eos_iff (h : Shifted notificationCount packetSize s w w') :
    w'.eosPacketNumber = maxULONG ↔ w.eosPacketNumber = maxULONG := by
  have hnone := read_eq (fun w => w.eosPacketNumber = maxULONG)
    (fun w => propext (maskNumber_eq_max w.eosPacketNumber)) h.same
  exact Iff.of_eq hnone

theorem Shifted.keep {v v' : World} (h : Shifted notificationCount packetSize s w w')
    (hsame : v'.unnumbered (packetOffset · notificationCount packetSize) =
      v.unnumbered (packetOffset · notificationCount packetSize))
    (hv : numbersOf v = numbersOf w) (hv' : numbersOf v' = numbersOf w')
    (hgeometry : (v.notificationCount, v.packetSize) = (w.notificationCount, w.packetSize)) :
    Shifted notificationCount packetSize s v v' := by
  simp only [numbersOf, Prod.mk.injEq] at hv hv'
  obtain ⟨hnext, hlast, heos⟩ := hv
  obtain ⟨hnext', hlast', heos'⟩ := hv'
  constructor
  · exact h.slot
  · exact hsame
  · unfold shiftOf
    rw [hnext, hnext', hlast]
    exact h.next
  · rw [hlast, hlast']
    exact h.last
  · rw [heos, heos', hlast]
    exact h.eos
  · rw [hgeometry]
    exact h.geometry

theorem Shifted.state {K : Finset Kind} {f : World → World}
    (h : Shifted notificationCount packetSize s w w')
    (hf : Unaware (packetOffset · notificationCount packetSize) f) (hdoes : ∀ w, Does K w (f w))
    (hK : .write ∉ K ∧ .reset ∉ K ∧ .silence ∉ K ∧ .packet ∉ K) :
    Shifted notificationCount packetSize s (f w) (f w') :=
  h.keep (hf w w' h.same) ((hdoes w).numbersOf_eq hK) ((hdoes w').numbersOf_eq hK)
    (hdoes w).geometry_eq

theorem Shifted.call {α : Type} {K : Finset Kind} {f : World → α × World}
    (h : Shifted notificationCount packetSize s w w')
    (hf : UnawareCall (packetOffset · notificationCount packetSize) f)
    (hdoes : ∀ w, Does K w (f w).2)
    (hK : .write ∉ K ∧ .reset ∉ K ∧ .silence ∉ K ∧ .packet ∉ K) :
    (f w').1 = (f w).1 ∧ Shifted notificationCount packetSize s (f w).2 (f w').2 :=
  ⟨(hf w w' h.same).1, h.state hf.state hdoes hK⟩

/-! ## Blocks -/

/-- The block with its sources counted from another number. -/
def FallbackBlock.shift (t : ULONG) (block : FallbackBlock) : FallbackBlock := { block with
  sources := block.sources.map (· + t) }

/-- The passes of the resampling loop in two streams that agree on where it ends. -/
private theorem fallbackBlock_shift {memory : Memory} {packetNumber t : ULONG} {n m : ℕ}
    (block : FallbackBlock)
    (hfields : (w'.eosPacketLength, w'.packetSize, w'.notificationCount) =
      (w.eosPacketLength, w.packetSize, w.notificationCount))
    (hslot : ∀ p, packetOffset (p + t) w.notificationCount w.packetSize =
      packetOffset p w.notificationCount w.packetSize)
    (hbeyond : ∀ j, (w'.lastOsWritePacket ≠ maxULONG ∧
        ¬ viosndPacketNumberLessOrEqual (packetNumber + t + j) w'.lastOsWritePacket) ↔
      (w.lastOsWritePacket ≠ maxULONG ∧
        ¬ viosndPacketNumberLessOrEqual (packetNumber + j) w.lastOsWritePacket))
    (heos : ∀ j, j < m + n → ¬ (w.lastOsWritePacket ≠ maxULONG ∧
        ¬ viosndPacketNumberLessOrEqual (packetNumber + BitVec.ofNat 32 j) w.lastOsWritePacket) →
      (w'.eosPacketNumber = packetNumber + t + BitVec.ofNat 32 j ↔
        w.eosPacketNumber = packetNumber + BitVec.ofNat 32 j)) :
    fallbackBlock w' memory (packetNumber + t) n (BitVec.ofNat 32 m) (block.shift t) =
      (fallbackBlock w memory packetNumber n (BitVec.ofNat 32 m) block).shift t := by
  simp only [Prod.mk.injEq] at hfields
  obtain ⟨hlength, hsize, hcount⟩ := hfields
  induction n generalizing m block with
  | zero => rfl
  | succ n ih =>
      have hone : BitVec.ofNat 32 m + 1 = BitVec.ofNat 32 (m + 1) := by
        rw [BitVec.ofNat_add]
        rfl
      have hsource : packetNumber + t + BitVec.ofNat 32 m =
          packetNumber + BitVec.ofNat 32 m + t := by bv_omega
      have haudio : (block.shift t).audio = block.audio := rfl
      unfold fallbackBlock
      dsimp only
      rw [haudio]
      by_cases hroom : ¬ block.audio.length < fallbackPeriodBytes.toNat
      · rw [if_pos hroom, if_pos hroom]
      rw [if_neg hroom, if_neg hroom]
      by_cases hend : w.lastOsWritePacket ≠ maxULONG ∧
          ¬ viosndPacketNumberLessOrEqual (packetNumber + BitVec.ofNat 32 m) w.lastOsWritePacket
      · rw [if_pos hend, if_pos ((hbeyond _).mpr hend)]
      rw [if_neg hend, if_neg fun h => hend ((hbeyond _).mp h)]
      have hlast := heos m (by omega) hend
      simp only [hlast, hlength, hsize, hcount, hone]
      have hsources : (block.shift t).sources ++ [packetNumber + BitVec.ofNat 32 m + t] =
          (block.sources ++ [packetNumber + BitVec.ofNat 32 m]).map (· + t) := by
        rw [List.map_append]
        rfl
      have hrest := fun audio sourceLength phase => @ih (m + 1)
        ⟨audio, sourceLength, block.sources ++ [packetNumber + BitVec.ofNat 32 m], phase⟩
        fun j hj => heos j (by omega)
      rw [hsource, hslot, hsources]
      split
      · rfl
      · exact hrest _ _ _

/-- In OS mode a submission comes to packets with clear numbers only. -/
def SubmitClear (s : ULONG) (w : World) : Prop :=
  w.lastOsWritePacket ≠ maxULONG →
    ∀ i < if w.renderFallbackActive then 3 else 1,
      viosndPacketNumberLessOrEqual (w.nextSubmitPacket + BitVec.ofNat 32 i)
        w.lastOsWritePacket = true → ClearNumber s (w.nextSubmitPacket + BitVec.ofNat 32 i)

/-- What a submission reads of the stream but for the numbers. -/
theorem Shifted.reads (h : Shifted notificationCount packetSize s w w') :
    (w'.eosPacketLength, w'.packetSize, w'.notificationCount) =
        (w.eosPacketLength, w.packetSize, w.notificationCount) ∧
      (w'.buffer, w'.renderIoFreeCount, w'.renderFallbackActive, w'.renderFallbackBuffer,
        w'.renderFallbackPhase) = (w.buffer, w.renderIoFreeCount, w.renderFallbackActive,
        w.renderFallbackBuffer, w.renderFallbackPhase) :=
  ⟨read_eq (fun w => (w.eosPacketLength, w.packetSize, w.notificationCount)) (fun _ => rfl) h.same,
    read_eq (fun w => (w.buffer, w.renderIoFreeCount, w.renderFallbackActive,
      w.renderFallbackBuffer, w.renderFallbackPhase)) (fun _ => rfl) h.same⟩

/-- The ends of the written packets and of the stream are where they were. -/
structure Aligned (w w' : World) (packetNumber t : ULONG) : Prop where
  slot : ∀ p, packetOffset (p + t) w.notificationCount w.packetSize =
    packetOffset p w.notificationCount w.packetSize
  beyond : ∀ j, (w'.lastOsWritePacket ≠ maxULONG ∧
      ¬ viosndPacketNumberLessOrEqual (packetNumber + t + j) w'.lastOsWritePacket) ↔
    (w.lastOsWritePacket ≠ maxULONG ∧
      ¬ viosndPacketNumberLessOrEqual (packetNumber + j) w.lastOsWritePacket)
  eos : w.renderFallbackActive = true → ∀ j < 3, ¬ (w.lastOsWritePacket ≠ maxULONG ∧
      ¬ viosndPacketNumberLessOrEqual (packetNumber + BitVec.ofNat 32 j) w.lastOsWritePacket) →
    (w'.eosPacketNumber = packetNumber + t + BitVec.ofNat 32 j ↔
      w.eosPacketNumber = packetNumber + BitVec.ofNat 32 j)

private theorem renderBlock_shift (memory : Memory) {packetNumber t : ULONG}
    (h : Shifted notificationCount packetSize s w w') (haligned : Aligned w w' packetNumber t) :
    renderBlock w' memory (packetNumber + t) =
      (renderBlock w memory packetNumber).map (FallbackBlock.shift t) := by
  obtain ⟨hfields, hreads⟩ := h.reads
  have hsizes := hfields
  simp only [Prod.mk.injEq] at hsizes hreads
  obtain ⟨-, -, hactive, hfallbackBuffer, hphase⟩ := hreads
  unfold renderBlock
  rw [hactive, hfallbackBuffer, hphase, hsizes.2.1, hsizes.2.2, haligned.slot]
  split
  · rename_i hon
    split
    · rfl
    · have hblock : fallbackBlock w' memory (packetNumber + t) 3 0
          ⟨[], 0, [], w.renderFallbackPhase⟩ =
          (fallbackBlock w memory packetNumber 3 0 ⟨[], 0, [], w.renderFallbackPhase⟩).shift t :=
        fallbackBlock_shift (m := 0) (n := 3) ⟨[], 0, [], w.renderFallbackPhase⟩ hfields
          haligned.slot haligned.beyond (haligned.eos hon)
      rw [hblock]
      dsimp only [FallbackBlock.shift]
      split
      · rfl
      · rfl
  · rfl

private theorem submitPooled_next {audio : List Byte}
    {length sourceLength packetNumber next : ULONG} {o : TxSubmit} {onSuccess : World → World}
    (w : World) (hnext : ∀ w, (onSuccess w).nextSubmitPacket = next) :
    (submitPooled audio length sourceLength packetNumber o onSuccess w).2.nextSubmitPacket =
      if (submitPooled audio length sourceLength packetNumber o onSuccess w).1.isSuccess then next
      else w.nextSubmitPacket := by
  have hsent : ∀ io w, (viosndSubmitPreparedWritePcm audio length sourceLength packetNumber io o
      w).2.nextSubmitPacket = w.nextSubmitPacket := by
    intro io w
    unfold viosndSubmitPreparedWritePcm
    split
    · rfl
    cases io with
    | none => rfl
    | some io =>
        dsimp only
        split
        · rfl
        · cases o <;> rfl
  unfold submitPooled
  dsimp only
  by_cases hok : (viosndSubmitPreparedWritePcm audio length sourceLength packetNumber
      (popRenderIo w).1 o (popRenderIo w).2).1.isSuccess = true
  · rw [if_pos hok, if_pos hok]
    exact hnext _
  · rw [if_neg hok, if_neg hok]
    exact hsent _ _

private theorem sendMade_next (packetNumber : ULONG) (block : FallbackBlock) (o : TxSubmit)
    (w : World) :
    (sendMade packetNumber block o w).2.nextSubmitPacket =
      if (sendMade packetNumber block o w).1.isSuccess then
        packetNumber + BitVec.ofNat 32 block.sources.length
      else w.nextSubmitPacket :=
  submitPooled_next _ fun _ => rfl

def takeSources (packetNumber : ULONG) (sources : List ULONG) (w : World) : World := { w with
  nextSubmitPacket := packetNumber + BitVec.ofNat 32 sources.length
  history := .consumed sources :: w.history }

private theorem takeSources_unnumbered (slot : ULONG → ULONG) (packetNumber : ULONG)
    (sources : List ULONG) (w : World) : (takeSources packetNumber sources w).unnumbered slot =
      { w.unnumbered slot with
        history := .consumed (sources.map slot) :: (w.unnumbered slot).history } := rfl

private theorem sendMade_shift {packetNumber t : ULONG} (block : FallbackBlock) (o : TxSubmit)
    (h : Shifted notificationCount packetSize s w w')
    (hslot : ∀ p, packetOffset (p + t) notificationCount packetSize =
      packetOffset p notificationCount packetSize)
    (hmask : maskNumber (packetNumber + t) = maskNumber packetNumber)
    (hnext : w'.nextSubmitPacket = w.nextSubmitPacket + t) :
    (sendMade (packetNumber + t) (block.shift t) o w').1 = (sendMade packetNumber block o w).1 ∧
      (sendMade (packetNumber + t) (block.shift t) o w').2.unnumbered
          (packetOffset · notificationCount packetSize) =
        (sendMade packetNumber block o w).2.unnumbered
          (packetOffset · notificationCount packetSize) ∧
      (sendMade (packetNumber + t) (block.shift t) o w').2.nextSubmitPacket =
        (sendMade packetNumber block o w).2.nextSubmitPacket + t := by
  obtain ⟨hfields, hreads⟩ := h.reads
  simp only [Prod.mk.injEq] at hfields hreads
  have hlength : blockLength w' (block.shift t) = blockLength w block := by
    unfold blockLength
    rw [hreads.2.2.1, hfields.2.1]
    rfl
  have hcount : (block.shift t).sources.length = block.sources.length := List.length_map _
  have hslots : (block.shift t).sources.map (packetOffset · notificationCount packetSize) =
      block.sources.map (packetOffset · notificationCount packetSize) := by
    dsimp only [FallbackBlock.shift]
    rw [List.map_map]
    exact List.map_congr_left fun p _ => hslot p
  have hphased : Unaware (packetOffset · notificationCount packetSize) fun w₀ => { w₀ with
      renderFallbackPhase := block.phase } := Unaware.of_commutes fun _ => rfl
  have hsuccess : ∀ v v', v'.unnumbered (packetOffset · notificationCount packetSize) =
      v.unnumbered (packetOffset · notificationCount packetSize) →
      (takeSources (packetNumber + t) (block.shift t).sources v').unnumbered
          (packetOffset · notificationCount packetSize) =
        (takeSources packetNumber block.sources v).unnumbered
          (packetOffset · notificationCount packetSize) := by
    intro v v' hsame
    rw [takeSources_unnumbered, takeSources_unnumbered, hslots, hsame]
  have hsent : (sendMade (packetNumber + t) (block.shift t) o w').1 =
        (sendMade packetNumber block o w).1 ∧
      (sendMade (packetNumber + t) (block.shift t) o w').2.unnumbered
          (packetOffset · notificationCount packetSize) =
        (sendMade packetNumber block o w).2.unnumbered
          (packetOffset · notificationCount packetSize) := by
    unfold sendMade
    rw [hlength]
    exact submitPooled_unaware hmask hsuccess (hphased _ _ h.same)
  refine ⟨hsent.1, hsent.2, ?_⟩
  rw [sendMade_next, sendMade_next, hsent.1, hcount]
  split
  · bv_omega
  · exact hnext

theorem submitRenderPacket_shift {packetNumber packetLength t : ULONG} (o : TxSubmit)
    (h : Shifted notificationCount packetSize s w w') (haligned : Aligned w w' packetNumber t)
    (hmask : maskNumber (packetNumber + t) = maskNumber packetNumber)
    (hnext : w'.nextSubmitPacket = w.nextSubmitPacket + t) :
    (submitRenderPacket (packetNumber + t) packetLength o w').1 =
        (submitRenderPacket packetNumber packetLength o w).1 ∧
      (submitRenderPacket (packetNumber + t) packetLength o w').2.unnumbered
          (packetOffset · notificationCount packetSize) =
        (submitRenderPacket packetNumber packetLength o w).2.unnumbered
          (packetOffset · notificationCount packetSize) ∧
      (submitRenderPacket (packetNumber + t) packetLength o w').2.nextSubmitPacket =
        (submitRenderPacket packetNumber packetLength o w).2.nextSubmitPacket + t := by
  obtain ⟨hfields, hreads⟩ := h.reads
  have hgeometry := h.geometry
  simp only [Prod.mk.injEq] at hfields hreads hgeometry
  obtain ⟨-, hsize, hcount⟩ := hfields
  obtain ⟨hbuffer, hfree, hactive, -, -⟩ := hreads
  cases hmemory : w.buffer with
  | none =>
      rw [submitRenderPacket, submitRenderPacket, hbuffer, hmemory]
      exact ⟨rfl, h.same, hnext⟩
  | some memory =>
      rw [hmemory] at hbuffer
      by_cases hzero : w.packetSize = 0
      · simp only [submitRenderPacket, hbuffer, hmemory, hsize, hzero, if_true]
        exact ⟨trivial, h.same, hnext⟩
      by_cases hnone : w.renderIoFreeCount = 0
      · simp only [submitRenderPacket, hbuffer, hmemory, hsize, hzero, hfree, hnone, if_true,
          if_false]
        exact ⟨trivial, h.same, hnext⟩
      have hpad : padSlot memory w' (packetNumber + t) packetLength =
          padSlot memory w packetNumber packetLength := by
        unfold padSlot
        rw [hsize, hcount, haligned.slot]
      have hpadded : Shifted notificationCount packetSize s
          (padded memory packetNumber packetLength w)
          (padded memory (packetNumber + t) packetLength w') := by
        refine h.keep ?_ rfl rfl rfl
        unfold padded
        rw [hpad]
        exact (Unaware.of_commutes (f := fun w₀ => { w₀ with
          buffer := some (padSlot memory w packetNumber packetLength) }) fun _ => rfl) w w' h.same
      have hblock := renderBlock_shift (padSlot memory w packetNumber packetLength) hpadded
        ⟨haligned.slot, haligned.beyond, haligned.eos⟩
      have hslot : ∀ p, packetOffset (p + t) notificationCount packetSize =
          packetOffset p notificationCount packetSize := by
        rw [← hgeometry.1, ← hgeometry.2]
        exact haligned.slot
      have hsize' : w'.packetSize ≠ 0 := hsize ▸ hzero
      have hfree' : w'.renderIoFreeCount ≠ 0 := hfree ▸ hnone
      cases hmade : renderBlock (padded memory packetNumber packetLength w)
        (padSlot memory w packetNumber packetLength) packetNumber with
      | error status =>
          rw [hmade] at hblock
          rw [submitRenderPacket_error hmemory hzero hnone hmade,
            submitRenderPacket_error hbuffer hsize' hfree' (hpad ▸ hblock)]
          exact ⟨rfl, hpadded.same, hnext⟩
      | ok block =>
          rw [hmade] at hblock
          rw [submitRenderPacket_made hmemory hzero hnone hmade,
            submitRenderPacket_made hbuffer hsize' hfree' (hpad ▸ hblock)]
          exact sendMade_shift block o hpadded hslot hmask hnext

end

end Viosnd.Render
