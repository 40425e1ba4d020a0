import Viosnd.Render.Retry

/-!
# The end of the stream

One register holds the packet that ends the stream. `SetWritePacket` sets it for a packet with the
ENDOFSTREAM flag and clears it when a later packet without the flag arrives; the worker reads it
when it submits.
-/

namespace Viosnd.Render

open StepRun EffectSystem

/-! ## The packets a block is fed with -/

/-- One pass of the resampling loop: a packet, and the bytes of it the resampler is given. -/
def feedPacket (w : World) (memory : Memory) (block : FallbackBlock) (feed : ULONG × ULONG) :
    FallbackBlock :=
  let sourceOffset := packetOffset feed.1 w.notificationCount w.packetSize
  let downsampled := viosndDownsampleStereo16 (fallbackPeriodBytes.toNat - block.audio.length)
    (fun k => memory (sourceOffset.toNat + k)) feed.2 fallbackSampleRate block.phase
  { audio := block.audio ++ downsampled.1
    sourceLength := block.sourceLength + feed.2
    sources := block.sources ++ [feed.1]
    phase := downsampled.2 }

/-- The passes of the resampling loop, with `n` packets to go at packet `packetNumber + i`. -/
def fallbackFeeds (w : World) (memory : Memory) (packetNumber : ULONG) :
    ℕ → ULONG → FallbackBlock → List (ULONG × ULONG)
  | 0, _, _ => []
  | n + 1, i, block =>
      if ¬ block.audio.length < fallbackPeriodBytes.toNat then []
      else if w.lastOsWritePacket ≠ maxULONG ∧
          ¬ viosndPacketNumberLessOrEqual (packetNumber + i) w.lastOsWritePacket then []
      else if w.eosPacketNumber = packetNumber + i then [(packetNumber + i, w.eosPacketLength)]
      else (packetNumber + i, w.packetSize) :: fallbackFeeds w memory packetNumber n (i + 1)
        (feedPacket w memory block (packetNumber + i, w.packetSize))

def blockFeeds (w : World) (memory : Memory) : List (ULONG × ULONG) :=
  fallbackFeeds w memory w.nextSubmitPacket 3 0 ⟨[], 0, [], w.renderFallbackPhase⟩

section

variable {w : World} {memory : Memory} {packetNumber : ULONG}

theorem fallbackBlock_feeds (w : World) (memory : Memory) (packetNumber : ULONG) (n : ℕ) (i : ULONG)
    (block : FallbackBlock) :
    fallbackBlock w memory packetNumber n i block =
      (fallbackFeeds w memory packetNumber n i block).foldl (feedPacket w memory) block := by
  induction n generalizing i block with
  | zero => rfl
  | succ n ih =>
      unfold fallbackBlock fallbackFeeds
      dsimp only
      split
      · rfl
      split
      · rfl
      by_cases heos : w.eosPacketNumber = packetNumber + i
      · simp only [heos, decide_true, if_true]
        rfl
      · simp only [heos, decide_false, Bool.false_eq_true, if_false]
        rw [ih]
        rfl

private theorem foldl_feedPacket_sources (feeds : List (ULONG × ULONG)) (block : FallbackBlock) :
    (feeds.foldl (feedPacket w memory) block).sources = block.sources ++ feeds.map Prod.fst := by
  induction feeds generalizing block with
  | nil => simp
  | cons feed feeds ih =>
      rw [List.foldl_cons, ih, List.map_cons]
      exact List.append_assoc _ _ _

private theorem mem_fallbackFeeds {n : ℕ} {i : ULONG} {block : FallbackBlock} {feed : ULONG × ULONG}
    (hfeed : feed ∈ fallbackFeeds w memory packetNumber n i block) :
    ∃ k < n, feed.1 = packetNumber + i + BitVec.ofNat 32 k := by
  induction n generalizing i block with
  | zero => cases hfeed
  | succ n ih =>
      unfold fallbackFeeds at hfeed
      split at hfeed
      · cases hfeed
      split at hfeed
      · cases hfeed
      have hfirst : packetNumber + i = packetNumber + i + BitVec.ofNat 32 0 :=
        (BitVec.add_zero _).symm
      split at hfeed
      · obtain rfl := List.mem_singleton.mp hfeed
        exact ⟨0, Nat.succ_pos n, hfirst⟩
      · rcases List.mem_cons.mp hfeed with rfl | hfeed
        · exact ⟨0, Nat.succ_pos n, hfirst⟩
        · obtain ⟨k, hk, hnumber⟩ := ih hfeed
          refine ⟨k + 1, Nat.succ_lt_succ hk, ?_⟩
          rw [hnumber, BitVec.ofNat_add]
          ac_rfl

private theorem fallbackFeeds_ne {n : ℕ} (hn : n < 2 ^ 32 - 1) {i : ULONG} {block : FallbackBlock}
    {feed : ULONG × ULONG}
    (hfeed : feed ∈ fallbackFeeds w memory packetNumber n (i + 1) block) :
    feed.1 ≠ packetNumber + i := by
  obtain ⟨k, hk, hnumber⟩ := mem_fallbackFeeds hfeed
  intro hsame
  have hone : (1 : ULONG).toNat = 1 := rfl
  have hnat := congrArg BitVec.toNat (hnumber.symm.trans hsame)
  simp only [BitVec.toNat_add, BitVec.toNat_ofNat, hone] at hnat
  omega

/-- The loop makes no further pass after its last packet, before a packet that was not written, and
when the destination is full. -/
private theorem fallbackFeeds_eq_nil {n phase count : ℕ} {i : ULONG} {block : FallbackBlock}
    (htook : Took phase count block) :
    fallbackFeeds w memory packetNumber n i block = [] ↔
      n = 0 ∨ ¬ TakesPacket w (packetNumber + i) ∨ 48000 * 512 ≤ phase + 16000 * count := by
  have hbytes : fallbackPeriodBytes.toNat = 2048 := rfl
  have haudio := htook.audio
  unfold blockKept at haudio
  cases n with
  | zero => simp [fallbackFeeds]
  | succ n =>
      unfold fallbackFeeds
      split
      · rename_i hfull
        refine iff_of_true rfl (Or.inr (Or.inr ?_))
        omega
      rename_i hroom
      have hunder : ¬ 48000 * 512 ≤ phase + 16000 * count := by omega
      split
      · rename_i hbeyond
        refine iff_of_true rfl (Or.inr (Or.inl ?_))
        exact not_or.mpr hbeyond
      · rename_i htakes
        have hsome : ¬ (n + 1 = 0 ∨ ¬ TakesPacket w (packetNumber + i) ∨
            48000 * 512 ≤ phase + 16000 * count) := by
          rintro (hzero | hnot | hfull)
          · cases hzero
          · exact htakes (not_or.mp hnot)
          · exact hunder hfull
        refine iff_of_false ?_ hsome
        split
        · exact List.cons_ne_nil _ _
        · exact List.cons_ne_nil _ _

/-- The pass that takes packet `p`, and whether it is the last: it is when the packet ends the
stream, when it is the third, when the next packet was not written, or when the destination is
full. -/
private theorem fallbackFeeds_split {n : ℕ} (hn : n < 2 ^ 32) {phase count : ℕ} {i : ULONG}
    {block : FallbackBlock} (htook : Took phase count block) {p : ULONG}
    (hp : p ∈ (fallbackFeeds w memory packetNumber n i block).map Prod.fst) :
    ∃ front length rest, fallbackFeeds w memory packetNumber n i block =
        front ++ (p, length) :: rest ∧
      length = (if w.eosPacketNumber = p then w.eosPacketLength else w.packetSize) ∧
      (∀ feed ∈ rest, feed.1 ≠ p) ∧ (w.eosPacketNumber = p → rest = []) ∧
      ∃ j < n, p = packetNumber + i + BitVec.ofNat 32 j ∧
        (w.eosPacketNumber ≠ p → (rest = [] ↔ j + 1 = n ∨ ¬ TakesPacket w (p + 1) ∨
          48000 * 512 ≤ phase + 16000 * (count + (j + 1) * (w.packetSize.toNat / 4)))) := by
  induction n generalizing count i block with
  | zero => cases hp
  | succ n ih =>
      unfold fallbackFeeds at hp ⊢
      split at hp
      · cases hp
      rename_i hroom
      split at hp
      · cases hp
      rename_i hbeyond
      rw [if_neg hroom, if_neg hbeyond]
      have hfirst : packetNumber + i = packetNumber + i + BitVec.ofNat 32 0 :=
        (BitVec.add_zero _).symm
      have hnext : packetNumber + (i + 1) = packetNumber + i + 1 := by
        rw [BitVec.add_assoc]
      by_cases heos : w.eosPacketNumber = packetNumber + i
      · rw [if_pos heos] at hp ⊢
        obtain rfl := List.mem_singleton.mp hp
        refine ⟨[], w.eosPacketLength, [], rfl, (if_pos heos).symm, by simp, fun _ => rfl, 0,
          Nat.succ_pos n, hfirst, fun hne => absurd heos hne⟩
      rw [if_neg heos] at hp ⊢
      have hafter : Took phase (count + w.packetSize.toNat / 4)
          (feedPacket w memory block (packetNumber + i, w.packetSize)) := by
        obtain ⟨haudio, hphase⟩ := htook.pass (not_not.mp hroom)
          (fun k => memory ((packetOffset (packetNumber + i) w.notificationCount
            w.packetSize).toNat + k)) w.packetSize
        exact ⟨haudio, hphase⟩
      by_cases hsame : p = packetNumber + i
      · subst hsame
        refine ⟨[], w.packetSize, _, rfl, (if_neg heos).symm, fun feed hfeed => ?_,
          fun h => absurd h heos, 0, Nat.succ_pos n, hfirst, fun _ => ?_⟩
        · exact fallbackFeeds_ne (by omega) hfeed
        · rw [fallbackFeeds_eq_nil hafter, hnext]
          simp
      · have hrest : p ∈ (fallbackFeeds w memory packetNumber n (i + 1)
            (feedPacket w memory block (packetNumber + i, w.packetSize))).map Prod.fst := by
          rcases List.mem_cons.mp hp with hhead | hrest
          · exact absurd hhead hsame
          · exact hrest
        obtain ⟨front, length, rest, hsplit, hlength, hother, hlast, j, hj, hnumber, hends⟩ :=
          ih (by omega) hafter hrest
        refine ⟨_ :: front, length, rest, congrArg (_ :: ·) hsplit, hlength, hother, hlast, j + 1,
          Nat.succ_lt_succ hj, ?_, fun hne => ?_⟩
        · rw [hnumber, BitVec.ofNat_add]
          ac_rfl
        · have hcount : count + w.packetSize.toNat / 4 + (j + 1) * (w.packetSize.toNat / 4) =
              count + (j + 1 + 1) * (w.packetSize.toNat / 4) := by ring
          rw [hends hne, hcount, Nat.add_right_cancel_iff]

end

/-! ## The register -/

/-- An accepted call of `SetWritePacket`. -/
structure Write where
  number : ULONG
  endOfStream : Bool
  length : ULONG

/-- `min(EosPacketLength, m_PacketSize)`. -/
def eosLength (packetSize length : ULONG) : ULONG :=
  if packetSize < length then packetSize else length

/-- The packet that ends the stream and its length after the calls `past`, the newest first: the
last packet with the flag, unless a packet at or after it came without the flag since. -/
def eosRegister (packetSize : ULONG) (past : List Write) : ULONG × ULONG :=
  match past.dropWhile (! ·.endOfStream) with
  | [] => (maxULONG, 0)
  | e :: _ =>
      if e.number ≠ maxULONG ∧ (past.takeWhile (! ·.endOfStream)).any
          (viosndPacketNumberLessOrEqual e.number ·.number) then (maxULONG, 0)
      else (e.number, eosLength packetSize e.length)

def lastWritten : List Write → ULONG
  | [] => maxULONG
  | e :: _ => e.number

/-- The stream after the calls `past`, one of which had the flag. -/
structure Registered (past : List Write) (w : World) : Prop where
  allocated : w.buffer ≠ none
  sized : w.packetSize ≠ 0
  flagged : ∃ e ∈ past, e.endOfStream = true
  last : w.lastOsWritePacket = lastWritten past
  register : (w.eosPacketNumber, w.eosPacketLength) = eosRegister w.packetSize past

/-- The step resets the session or replaces the audio buffer. -/
def EndsSession (w : World) : ClientStep → Prop
  | .call (.act (.setState .stop i)) => w.state = .run ∧ (quiesceRender .stop i w).1 = true
  | .call (.act _) => False
  | .call (.allocateAudioBuffer _) => True
  | .call (.freeAudioBuffer _) => True
  | .writeBuffer _ => False

def ClientStep.write? : ClientStep → Option Write
  | .call (.act (.setWritePacket packetNumber endOfStream eosPacketLength)) =>
      some ⟨packetNumber, endOfStream, eosPacketLength⟩
  | _ => none

/-- The calls of `SetWritePacket` among the steps, the newest first, after those of `past`. -/
def writesAfter (past : List Write) (steps : List ClientStep) : List Write :=
  (steps.filterMap ClientStep.write?).reverse ++ past

@[simp] theorem eosRegister_flagged (packetSize number length : ULONG) (past : List Write) :
    eosRegister packetSize (⟨number, true, length⟩ :: past) =
      (number, eosLength packetSize length) := by
  simp [eosRegister]

/-- A packet without the flag clears the register when it is not before the one registered. -/
private theorem eosRegister_unflagged (packetSize number length : ULONG) {past : List Write}
    (hflagged : ∃ e ∈ past, e.endOfStream = true) :
    eosRegister packetSize (⟨number, false, length⟩ :: past) =
      if (eosRegister packetSize past).1 ≠ maxULONG ∧
          viosndPacketNumberLessOrEqual (eosRegister packetSize past).1 number then (maxULONG, 0)
      else eosRegister packetSize past := by
  have hdrop : past.dropWhile (! ·.endOfStream) ≠ [] := by
    intro hnil
    obtain ⟨e, he, hflag⟩ := hflagged
    have hall := List.dropWhile_eq_nil_iff.mp hnil e he
    rw [hflag] at hall
    cases hall
  unfold eosRegister
  rw [List.dropWhile_cons_of_pos rfl, List.takeWhile_cons_of_pos rfl]
  cases hlast : past.dropWhile (! ·.endOfStream) with
  | nil => exact absurd hlast hdrop
  | cons e rest =>
      simp only [List.any_cons, Bool.or_eq_true]
      by_cases hmax : e.number = maxULONG
      · simp [hmax]
      · by_cases hsince : (past.takeWhile (! ·.endOfStream)).any
            (viosndPacketNumberLessOrEqual e.number ·.number) = true
        · simp [hmax, hsince]
        · simp [hmax, hsince]

section

variable {w : World} {past : List Write}

/-- What the worker reads when it looks for the end of the stream. -/
def registers (w : World) : ULONG × ULONG × ULONG × ULONG :=
  (w.packetSize, w.lastOsWritePacket, w.eosPacketNumber, w.eosPacketLength)

private theorem Does.registers_eq {K : Finset Kind} {w' : World} (h : Does K w w')
    (hK : .write ∉ K ∧ .reset ∉ K) : registers w' = registers w := by
  apply h.keeps registers
  intro k hk a b hR
  cases hR with
  | write => exact absurd hk hK.1
  | reset => exact absurd hk hK.2
  | free => rw [freeRenderIo_eq]; rfl
  | complete => rw [completeEntry_eq]; rfl
  | detach => rw [detachEntry_eq]; rfl
  | _ => rfl

private theorem hasBuffer_tuneClosed : TuneClosed fun w => w.buffer ≠ none where
  frame := by
    intro w w' h hbuffer hphase
    rw [hbuffer]
    exact h
  start := by
    intro w w' h hbuffer hphase
    rw [hbuffer]
    exact h
  submit := by
    intro w packetNumber packetLength o h
    by_cases hfail : (submitRenderPacket packetNumber packetLength o w).1 = .success
    · rcases submitRenderPacket_sends packetNumber packetLength o w with
        ⟨memory, block, entry, w₀, rfl, -, -, -, heq⟩ | ⟨-, -, -, status, hstatus, w', -, heq⟩
      · rw [heq]
        exact Option.some_ne_none _
      · rw [heq] at hfail
        exact absurd hfail hstatus
    · rcases submitRenderPacket_fails hfail with ⟨-, hearly⟩ |
        ⟨memory, status, -, -, -, -, hleft⟩ | ⟨memory, block, -, history, hleft⟩
      · rw [hearly o]
        exact h
      · rw [hleft]
        exact Option.some_ne_none _
      · rw [hleft]
        exact Option.some_ne_none _

private theorem Registered.of_registers {w' : World} (h : Registered past w)
    (hsame : registers w' = registers w) (hbuffer : w'.buffer ≠ none) : Registered past w' := by
  simp only [registers, Prod.mk.injEq] at hsame
  obtain ⟨hsize, hlast, hnumber, hlength⟩ := hsame
  refine ⟨hbuffer, ?_, h.flagged, hlast.trans h.last, ?_⟩
  · rw [hsize]
    exact h.sized
  · rw [hsize, hnumber, hlength]
    exact h.register

theorem Registered.write (h : Registered past w) (packetNumber : ULONG) (endOfStream : Bool)
    (eosPacketLength : ULONG) :
    Registered (⟨packetNumber, endOfStream, eosPacketLength⟩ :: past)
      (setWritePacket packetNumber endOfStream eosPacketLength w).2 := by
  have haccepted : ¬ (w.buffer.isNone = true ∨ w.packetSize = 0) := by
    rintro (hnone | hzero)
    · exact h.allocated (Option.isNone_iff_eq_none.mp hnone)
    · exact h.sized hzero
  obtain ⟨e, he, hflag⟩ := h.flagged
  have hregister := h.register
  unfold setWritePacket
  rw [if_neg haccepted]
  dsimp only
  cases endOfStream with
  | true =>
      refine ⟨h.allocated, h.sized, ⟨_, List.mem_cons_self, rfl⟩, rfl, ?_⟩
      rw [eosRegister_flagged]
      rfl
  | false =>
      have hunflagged := eosRegister_unflagged w.packetSize packetNumber eosPacketLength h.flagged
      rw [← hregister] at hunflagged
      refine ⟨?_, ?_, ⟨e, List.mem_cons_of_mem _ he, hflag⟩, ?_, ?_⟩
      · simp only [Bool.false_eq_true, if_false]
        split <;> exact h.allocated
      · simp only [Bool.false_eq_true, if_false]
        split <;> exact h.sized
      · simp only [Bool.false_eq_true, if_false]
        split <;> rfl
      · simp only [Bool.false_eq_true, if_false]
        split
        · rename_i hclears
          rw [hunflagged, if_pos hclears]
        · rename_i hkeeps
          rw [hunflagged, if_neg hkeeps]

private theorem setState_stop_registers {i : SetStateInput}
    (hopen : ¬ (w.state = .run ∧ (quiesceRender .stop i w).1 = true)) :
    registers (setState .stop i w).2 = registers w := by
  by_cases hrun : w.state = .run
  · have hbusy : ¬ (quiesceRender .stop i w).1 = true := fun hquiet => hopen ⟨hrun, hquiet⟩
    rw [setState_stop .stop i w (by decide) hrun]
    unfold stopRender
    rw [if_neg hbusy]
    exact (quiesceRender_does .stop i w (by decide)).registers_eq (by decide)
  · have hboth : KsState.stop = .run ↔ w.state = .run := by simp [hrun]
    rw [setState_other .stop i w hboth]
    rfl

private theorem step_registers {a : Action} (ha : ¬ a.IsWrite)
    (hopen : ¬ EndsSession w (.call (.act a))) : registers (step w a) = registers w := by
  by_cases hstop : a.IsStop
  · cases a with
    | setState target i =>
        cases target with
        | stop => exact setState_stop_registers hopen
        | _ => exact hstop.elim
    | _ => exact hstop.elim
  · have hdoes : Does callKinds w (step w a) :=
      step_does_of w a ha subset_rfl fun h => absurd h hstop
    exact hdoes.registers_eq (by decide)

theorem Registered.step (h : Registered past w) (s : ClientStep) (hopen : ¬ EndsSession w s) :
    Registered (writesAfter past [s]) (clientStep w s) := by
  cases s with
  | writeBuffer memory =>
      refine h.of_registers rfl ?_
      obtain ⟨old, hold⟩ := Option.ne_none_iff_exists'.mp h.allocated
      change w.buffer.map _ ≠ none
      rw [hold]
      exact Option.some_ne_none _
  | call c =>
      cases c with
      | allocateAudioBuffer pages => exact absurd trivial hopen
      | freeAudioBuffer current => exact absurd trivial hopen
      | act a =>
          by_cases ha : a.IsWrite
          · cases a with
            | setWritePacket packetNumber endOfStream eosPacketLength =>
                exact h.write packetNumber endOfStream eosPacketLength
            | _ => exact ha.elim
          · have hnone : writesAfter past [.call (.act a)] = past := by
              cases a with
              | setWritePacket => exact absurd trivial ha
              | _ => rfl
            rw [hnone]
            exact h.of_registers (step_registers ha hopen)
              (hasBuffer_tuneClosed.step a h.allocated)

theorem Registered.run (h : Registered past w) (later : List ClientStep)
    (hopen : Guarded clientStep (fun w s => ¬ EndsSession w s) w later) :
    Registered (writesAfter past later) (run clientStep w later) := by
  induction later generalizing past w with
  | nil => exact h
  | cons s later ih =>
      have hsplit : writesAfter past (s :: later) = writesAfter (writesAfter past [s]) later := by
        unfold writesAfter
        cases hwrite : s.write? with
        | none => simp [hwrite]
        | some e => simp [hwrite]
      rw [hsplit]
      exact ih (h.step s hopen.1) hopen.2

private theorem setWritePacket_registered {packetNumber eosPacketLength : ULONG}
    (hok : (setWritePacket packetNumber true eosPacketLength w).1 = .success) :
    Registered [⟨packetNumber, true, eosPacketLength⟩]
      (setWritePacket packetNumber true eosPacketLength w).2 := by
  unfold setWritePacket at hok ⊢
  by_cases hrefused : w.buffer.isNone = true ∨ w.packetSize = 0
  · rw [if_pos hrefused] at hok
    cases hok
  · rw [if_neg hrefused]
    refine ⟨fun hnone => hrefused (Or.inl ?_), fun hzero => hrefused (Or.inr hzero),
      ⟨_, List.mem_singleton_self _, rfl⟩, rfl, ?_⟩
    · exact Option.isNone_iff_eq_none.mpr hnone
    · rw [eosRegister_flagged]
      rfl

end

/-! ## Submissions -/

def Submits (w : World) (s : WorkerStep) (sources : List ULONG) (entry : TxEntry) : Prop :=
  (workerStep w s).history = .consumed sources :: .submitted entry :: w.history

section

variable {w : World} {sources : List ULONG} {entry : TxEntry}

private theorem Does.consumes_nothing {K : Finset Kind} {w' : World} (h : Does K w w')
    (hK : .packet ∉ K) (sources : List ULONG) (entry : TxEntry) :
    w'.history ≠ .consumed sources :: .submitted entry :: w.history := by
  have hnoted : ∃ noted, w'.history = noted ++ w.history ∧ .consumed sources ∉ noted := by
    refine h.invariant (P := fun a => ∃ noted, a.history = noted ++ w.history ∧
      .consumed sources ∉ noted) ?_ ⟨[], rfl, by simp⟩
    rintro k hk a b heffect ⟨noted, hhistory, hnone⟩
    obtain ⟨more, hmore, hkinds⟩ := heffect.history_extends
    refine ⟨more ++ noted, by rw [hmore, hhistory, List.append_assoc], fun hmem => ?_⟩
    rcases List.mem_append.mp hmem with hmem | hmem
    · have hkind := hkinds _ hmem
      simp only [Event.notedBy, Finset.mem_singleton] at hkind
      exact hK (hkind ▸ hk)
    · exact hnone hmem
  obtain ⟨noted, hhistory, hnone⟩ := hnoted
  intro heq
  have hsplit : noted = [.consumed sources, .submitted entry] :=
    List.append_cancel_right (hhistory.symm.trans heq)
  rw [hsplit] at hnone
  exact hnone List.mem_cons_self

private theorem submitRenderPacket_consumed {packetNumber packetLength : ULONG} {o : TxSubmit}
    (h : (submitRenderPacket packetNumber packetLength o w).2.history =
      .consumed sources :: .submitted entry :: w.history) :
    ∃ memory block, MakesBlock packetNumber packetLength w memory block ∧
      entry.audio = block.audio ∧ sources = block.sources := by
  rcases submitRenderPacket_sends packetNumber packetLength o w with
    ⟨memory, block, entry', w₀, rfl, hmakes, hsends, -, heq⟩ |
    ⟨buffer, phase, -, status, -, w', hrefuse, heq⟩
  · rw [heq] at h
    have hevents : Event.consumed block.sources :: .submitted entry' :: w.history =
      .consumed sources :: .submitted entry :: w.history := h
    simp only [List.cons.injEq, Event.consumed.injEq, Event.submitted.injEq] at hevents
    obtain ⟨hsources, hentry, -⟩ := hevents
    exact ⟨memory, block, hmakes, hentry ▸ hsends.audio, hsources.symm⟩
  · rw [heq] at h
    have hnothing := Does.consumes_nothing hrefuse (by decide) sources entry
    exact absurd h hnothing

private theorem submitRenderSilencePacket_consumes_nothing (packetNumber : ULONG) (o : TxSubmit) :
    (submitRenderSilencePacket packetNumber o w).2.history ≠
      .consumed sources :: .submitted entry :: w.history := by
  rcases submitRenderSilencePacket_cases packetNumber o w with
    ⟨entry', -, -, heq⟩ | ⟨status, -, w', hrefuse, heq⟩
  · rw [heq]
    intro h
    have hevents : Event.submitted entry' :: w.history =
      .consumed sources :: .submitted entry :: w.history := h
    simp at hevents
  · rw [heq]
    exact Does.consumes_nothing hrefuse (by decide) sources entry

def nextLength (w : World) : ULONG :=
  if w.lastOsWritePacket ≠ maxULONG ∧ w.eosPacketNumber = w.nextSubmitPacket then w.eosPacketLength
  else w.packetSize

private theorem submitNext_consumed {o : TxSubmit}
    (h : (submitNext o w).2.history = .consumed sources :: .submitted entry :: w.history) :
    ∃ memory block, MakesBlock w.nextSubmitPacket (nextLength w) w memory block ∧
      entry.audio = block.audio ∧ sources = block.sources := by
  unfold submitNext at h
  split at h
  · rename_i hwritable
    have hlast : w.lastOsWritePacket ≠ maxULONG := by
      simp only [viosndHasWritableRenderPacket, Bool.and_eq_true, decide_eq_true_eq] at hwritable
      exact hwritable.1
    have hlength : nextLength w = if w.eosPacketNumber = w.nextSubmitPacket then w.eosPacketLength
        else w.packetSize := by
      unfold nextLength
      simp only [hlast, ne_eq, not_false_eq_true, true_and]
    rw [hlength]
    exact submitRenderPacket_consumed h
  split at h
  · rename_i hcyclic
    have hlength : nextLength w = w.packetSize := by
      unfold nextLength
      rw [if_neg fun hboth => hboth.1 hcyclic]
    split at h
    · have hsilence : (submitRenderSilencePacket w.nextSubmitPacket o w).2.history ≠
          .consumed sources :: .submitted entry :: w.history :=
        submitRenderSilencePacket_consumes_nothing w.nextSubmitPacket o
      dsimp only at h
      split at h
      · exact absurd h hsilence
      · exact absurd h hsilence
    · rw [hlength]
      exact submitRenderPacket_consumed h
  · exact absurd h (Does.consumes_nothing (Within.refl w) (Finset.notMem_empty _)
    sources entry)

theorem Submits.block {s : WorkerStep} (h : Submits w s sources entry) :
    ∃ memory block, MakesBlock w.nextSubmitPacket (nextLength w) w memory block ∧
      entry.audio = block.audio ∧ sources = block.sources := by
  have hidle : w.history ≠ .consumed sources :: .submitted entry :: w.history :=
    Does.consumes_nothing (Within.refl w) (Finset.notMem_empty _) sources entry
  unfold Submits at h
  cases s with
  | reclaim o => exact absurd h ((reclaimRenderPacket_does o w).consumes_nothing (by decide) _ _)
  | maybeSwitch qpc i =>
      have hswitch : Does (insert .reading switchKinds) w (maybeSwitchRenderFallback qpc i w) := by
        by_cases hdue : SwitchDue qpc w
        · rw [maybeSwitchRenderFallback_due qpc i w hdue]
          exact (Within.single (k := .reading) (by decide) (.reading qpc w)).trans
            ((switchRenderToFallback_does i _).mono (by decide))
        · exact (maybeSwitchRenderFallback_notDue qpc i w hdue).mono (by decide)
      exact absurd h (hswitch.consumes_nothing (by decide) _ _)
  | chooseTarget => exact absurd h ((chooseTarget_does w).consumes_nothing (by decide) _ _)
  | submit o =>
      change (submitPass o w).2.history = _ at h
      unfold submitPass at h
      split at h
      · exact submitNext_consumed h
      · exact absurd h hidle
  | submitLate o =>
      change (submitLate o w).history = _ at h
      unfold submitLate at h
      split at h
      · exact submitNext_consumed h
      · exact absurd h hidle

end

/-! ## Slots -/

private theorem slice_pad (memory : Memory) (offset : ℕ) {length size : ℕ} (hle : length ≤ size) :
    memory.slice offset length ++ List.replicate (size - length) 0 =
      (List.range size).map fun k => if k < length then memory (offset + k) else 0 := by
  have hsize : size = length + (size - length) := by omega
  conv_rhs => rw [hsize, List.range_add, List.map_append, List.map_map]
  congr 1
  · unfold Memory.slice
    apply List.map_congr_left
    intro k hk
    rw [if_pos (List.mem_range.mp hk)]
  · symm
    rw [List.eq_replicate_iff]
    refine ⟨by simp, fun b hb => ?_⟩
    obtain ⟨k, -, rfl⟩ := List.mem_map.mp hb
    exact if_neg (by simp)

/-- Two used lengths leave the same slot when the bytes between them are zero. -/
private theorem slice_pad_eq_iff (memory : Memory) (offset : ℕ) {a b size : ℕ} (ha : a ≤ size)
    (hb : b ≤ size) :
    memory.slice offset a ++ List.replicate (size - a) 0 =
        memory.slice offset b ++ List.replicate (size - b) 0 ↔
      ∀ k, min a b ≤ k → k < max a b → memory (offset + k) = 0 := by
  rw [slice_pad memory offset ha, slice_pad memory offset hb, List.map_inj_left]
  constructor
  · intro h k hmin hmax
    have hk := h k (List.mem_range.mpr (by omega))
    split at hk
    · rw [if_neg (by omega)] at hk
      exact hk
    · rw [if_pos (by omega)] at hk
      exact hk.symm
  · intro h k hk
    split
    · split
      · rfl
      · exact h k (by omega) (by omega)
    · split
      · exact (h k (by omega) (by omega)).symm
      · rfl

private theorem padSlot_slice (memory : Memory) (w : World) (packetNumber : ULONG) {length : ULONG}
    (hle : length ≤ w.packetSize) :
    (padSlot memory w packetNumber length).slice
        (packetOffset packetNumber w.notificationCount w.packetSize).toNat w.packetSize.toNat =
      memory.slice (packetOffset packetNumber w.notificationCount w.packetSize).toNat
          length.toNat ++
        List.replicate (w.packetSize.toNat - length.toNat) 0 := by
  have hnat : length.toNat ≤ w.packetSize.toNat := hle
  have hless : (w.packetSize - length).toNat = w.packetSize.toNat - length.toNat :=
    BitVec.toNat_sub_of_le hle
  unfold padSlot
  generalize (packetOffset packetNumber w.notificationCount w.packetSize).toNat = offset
  split
  · have hsize : w.packetSize.toNat = length.toNat + (w.packetSize.toNat - length.toNat) := by omega
    rw [hless]
    conv_lhs => rw [hsize, Memory.slice_add, Nat.add_sub_cancel_left, Memory.slice_zero]
    congr 1
    apply Memory.slice_congr
    intro i hi hi'
    exact Memory.zero_outside _ _ _ (Or.inl hi')
  · rename_i hnot
    have hsame : w.packetSize.toNat = length.toNat := by
      have hge : w.packetSize.toNat ≤ length.toNat := BitVec.not_lt.mp hnot
      omega
    rw [hsame, Nat.sub_self, List.replicate_zero, List.append_nil]

/-! ## The law -/

/-- What becomes of packet `p` when it ends the stream after `length` bytes: in the default format
the device gets these bytes and silence, in the fallback the resampler is fed with these bytes and
with nothing after them. -/
def EosLaw (w : World) (memory : Memory) (p length : ULONG) (entry : TxEntry) : Prop :=
  if w.renderFallbackActive then ∃ front, blockFeeds w memory = front ++ [(p, length)]
  else entry.audio =
    memory.slice (packetOffset p w.notificationCount w.packetSize).toNat length.toNat ++
      List.replicate (w.packetSize.toNat - length.toNat) 0

/-- The block ends with packet `p` of its own: it is the third one, the next one was not written, or
the destination is full. -/
def EndsBlock (w : World) (p : ULONG) : Prop :=
  p = w.nextSubmitPacket + 2 ∨ ¬ TakesPacket w (p + 1) ∨
    48000 * 512 ≤ w.renderFallbackPhase.toNat +
      16000 * (((p - w.nextSubmitPacket).toNat + 1) * (w.packetSize.toNat / 4))

/-- After the calls `past` packet `p` is submitted as if it ended after `length` bytes. In the
fallback the calls leave it registered with this length, or it is as long as a whole packet and ends
its block anyway. In the default format the slot is silent between this length and the one the calls
leave; when the last number written is `MAXULONG` packets are sent whole. -/
def EndsAfter (past : List Write) (w : World) (memory : Memory) (p length : ULONG) : Prop :=
  let register := eosRegister w.packetSize past
  if w.renderFallbackActive then
    if register.1 = p then register.2 = length else length = w.packetSize ∧ EndsBlock w p
  else
    let announced :=
      if lastWritten past ≠ maxULONG ∧ register.1 = p then register.2 else w.packetSize
    ∀ k, min announced.toNat length.toNat ≤ k → k < max announced.toNat length.toNat →
      memory ((packetOffset p w.notificationCount w.packetSize).toNat + k) = 0

section

variable {w : World} {memory : Memory} {packetNumber : ULONG} {past : List Write}

private theorem fallbackFeeds_congr {w' : World} (hw : ∃ buffer, w' = { w with
    buffer := buffer }) (memory' : Memory) {phase count : ℕ} (n : ℕ) (i : ULONG)
    {block block' : FallbackBlock} (htook : Took phase count block)
    (htook' : Took phase count block') :
    fallbackFeeds w' memory' packetNumber n i block' =
      fallbackFeeds w memory packetNumber n i block := by
  obtain ⟨buffer, rfl⟩ := hw
  induction n generalizing count i block block' with
  | zero => rfl
  | succ n ih =>
      have hsame : block'.audio.length = block.audio.length := by
        rw [htook'.audio, htook.audio]
      unfold fallbackFeeds
      dsimp only
      rw [hsame]
      split
      · rfl
      rename_i hroom
      split
      · rfl
      split
      · rfl
      · congr 1
        have hroom' : block.audio.length < fallbackPeriodBytes.toNat := not_not.mp hroom
        have hpass := htook.pass hroom'
          (fun k => memory ((packetOffset (packetNumber + i) w.notificationCount
            w.packetSize).toNat + k)) w.packetSize
        have hpass' := htook'.pass (hsame ▸ hroom')
          (fun k => memory' ((packetOffset (packetNumber + i) w.notificationCount
            w.packetSize).toNat + k)) w.packetSize
        exact ih (i + 1) ⟨hpass.1, hpass.2⟩ ⟨hpass'.1, hpass'.2⟩

private theorem took_start (hphase : PhaseBounded w) :
    Took w.renderFallbackPhase.toNat 0 ⟨[], 0, [], w.renderFallbackPhase⟩ := by
  unfold PhaseBounded at hphase
  refine ⟨?_, ?_⟩
  · unfold blockKept
    change 0 = _
    omega
  · unfold blockPhase
    rw [if_pos (by omega)]
    exact (Nat.mod_eq_of_lt hphase).symm

private theorem makesBlock_feeds {packetLength : ULONG} {block : FallbackBlock}
    (hphase : PhaseBounded w) (hactive : w.renderFallbackActive = true)
    (hmakes : MakesBlock w.nextSubmitPacket packetLength w memory block) :
    block.sources = (blockFeeds w memory).map Prod.fst := by
  obtain ⟨-, -, -, hblock⟩ := hmakes
  have hsame : fallbackFeeds (padded memory w.nextSubmitPacket packetLength w)
      (padSlot memory w w.nextSubmitPacket packetLength) w.nextSubmitPacket 3 0
      ⟨[], 0, [], w.renderFallbackPhase⟩ = blockFeeds w memory :=
    fallbackFeeds_congr ⟨_, rfl⟩ _ 3 0 (took_start hphase) (took_start hphase)
  have hmode : (padded memory w.nextSubmitPacket packetLength w).renderFallbackActive = true :=
    hactive
  unfold renderBlock at hblock
  rw [if_pos hmode] at hblock
  split at hblock
  · cases hblock
  dsimp only at hblock
  split at hblock
  · cases hblock
  · obtain rfl := Except.ok.inj hblock
    have hfeeds := fallbackBlock_feeds (padded memory w.nextSubmitPacket packetLength w)
      (padSlot memory w w.nextSubmitPacket packetLength) w.nextSubmitPacket 3 0
      ⟨[], 0, [], w.renderFallbackPhase⟩
    rw [hsame] at hfeeds
    change (fallbackBlock _ _ _ 3 0 ⟨[], 0, [], w.renderFallbackPhase⟩).sources = _
    rw [hfeeds, foldl_feedPacket_sources, List.nil_append]

/-- In the fallback the register decides, and where the block ends. -/
private theorem blockFeeds_last_iff {p length : ULONG} (hphase : PhaseBounded w)
    (hp : p ∈ (blockFeeds w memory).map Prod.fst) :
    (∃ front, blockFeeds w memory = front ++ [(p, length)]) ↔
      if w.eosPacketNumber = p then w.eosPacketLength = length
      else length = w.packetSize ∧ EndsBlock w p := by
  obtain ⟨front, fed, rest, hsplit, hfed, hother, hlast, j, hj, hnumber, hends⟩ :=
    fallbackFeeds_split (by decide) (took_start hphase) hp
  have hzero : w.nextSubmitPacket + 0 = w.nextSubmitPacket := BitVec.add_zero _
  have hjnat : (p - w.nextSubmitPacket).toNat = j := by
    rw [hnumber, hzero, BitVec.add_comm, BitVec.add_sub_cancel, BitVec.toNat_ofNat]
    exact Nat.mod_eq_of_lt (by omega)
  have hthird : p = w.nextSubmitPacket + 2 ↔ j + 1 = 3 := by
    constructor
    · intro htwo
      have hnat := hjnat
      rw [htwo, BitVec.add_comm, BitVec.add_sub_cancel] at hnat
      have htwo' : (2 : ULONG).toNat = 2 := rfl
      omega
    · intro hthree
      obtain rfl : j = 2 := by omega
      rw [hnumber, hzero]
      rfl
  have hiff : (∃ front, blockFeeds w memory = front ++ [(p, length)]) ↔
      fed = length ∧ rest = [] := by
    unfold blockFeeds
    rw [hsplit]
    constructor
    · rintro ⟨front', hfront⟩
      cases hrest : rest.reverse with
      | nil =>
          rw [List.reverse_eq_nil_iff] at hrest
          subst hrest
          have hend := List.append_inj_right' hfront rfl
          simp only [List.cons.injEq, Prod.mk.injEq, and_true, true_and] at hend
          exact ⟨hend, rfl⟩
      | cons feed more =>
          have hrest' : rest = more.reverse ++ [feed] := by
            rw [← List.reverse_reverse rest, hrest, List.reverse_cons]
          exfalso
          have hmem : feed ∈ rest := by
            rw [hrest']
            exact List.mem_append_right _ (List.mem_singleton_self feed)
          have happended : (front ++ (p, fed) :: more.reverse) ++ [feed] =
              front' ++ [(p, length)] := by
            rw [← hfront, hrest']
            simp
          have hend := List.append_inj_right' happended rfl
          simp only [List.cons.injEq, and_true] at hend
          exact hother feed hmem (congrArg Prod.fst hend)
    · rintro ⟨rfl, rfl⟩
      exact ⟨front, rfl⟩
  rw [hiff]
  by_cases heos : w.eosPacketNumber = p
  · rw [if_pos heos] at hfed ⊢
    rw [hfed]
    exact and_iff_left (hlast heos)
  · rw [if_neg heos] at hfed ⊢
    rw [hfed, hends heos]
    unfold EndsBlock
    rw [hjnat, hthird, Nat.zero_add]
    exact and_congr_left' eq_comm

private theorem eosLength_le (packetSize length : ULONG) :
    eosLength packetSize length ≤ packetSize := by
  unfold eosLength
  split
  · exact BitVec.le_refl packetSize
  · rename_i hnot
    exact BitVec.not_lt.mp hnot

private theorem eosRegister_le (packetSize : ULONG) (past : List Write) :
    (eosRegister packetSize past).2 ≤ packetSize := by
  unfold eosRegister
  split
  · exact BitVec.le_def.mpr (Nat.zero_le _)
  · split
    · exact BitVec.le_def.mpr (Nat.zero_le _)
    · exact eosLength_le _ _

/-- A submission follows the law exactly when the calls before it leave the packet to end where the
law says. -/
private theorem Registered.eosLaw_iff {s : WorkerStep} {sources : List ULONG} {entry : TxEntry}
    {p length : ULONG} (h : Registered past w) (hphase : PhaseBounded w)
    (hsubmits : Submits w s sources entry) (hp : p ∈ sources) (hmemory : w.buffer = some memory)
    (hlength : length ≤ w.packetSize) :
    EosLaw w memory p length entry ↔ EndsAfter past w memory p length := by
  obtain ⟨memory', block, hmakes, haudio, rfl⟩ := hsubmits.block
  obtain rfl : memory' = memory := Option.some.inj (hmakes.1.symm.trans hmemory)
  have hregister := h.register
  have hnumber : (eosRegister w.packetSize past).1 = w.eosPacketNumber := by rw [← hregister]
  have hannounced : (eosRegister w.packetSize past).2 = w.eosPacketLength := by rw [← hregister]
  unfold EosLaw EndsAfter
  by_cases hactive : w.renderFallbackActive = true
  · rw [if_pos hactive, if_pos hactive, hnumber, hannounced]
    rw [makesBlock_feeds hphase hactive hmakes] at hp
    exact blockFeeds_last_iff hphase hp
  · rw [if_neg hactive, if_neg hactive, haudio]
    obtain ⟨-, -, -, hblock⟩ := hmakes
    have hmode :
        ¬ (padded memory' w.nextSubmitPacket (nextLength w) w).renderFallbackActive = true :=
      hactive
    unfold renderBlock at hblock
    rw [if_neg hmode] at hblock
    obtain rfl := Except.ok.inj hblock
    obtain rfl : p = w.nextSubmitPacket := List.mem_singleton.mp hp
    have hnext : nextLength w = if lastWritten past ≠ maxULONG ∧
        (eosRegister w.packetSize past).1 = w.nextSubmitPacket
        then (eosRegister w.packetSize past).2 else w.packetSize := by
      rw [hnumber, hannounced, ← h.last]
      rfl
    have hle : nextLength w ≤ w.packetSize := by
      rw [hnext]
      split
      · exact eosRegister_le _ _
      · exact BitVec.le_refl _
    have hslot := padSlot_slice memory' w w.nextSubmitPacket hle
    dsimp only [padded]
    rw [hslot, ← hnext]
    exact slice_pad_eq_iff memory' _ hle hlength

end

/-- Packet `p` is flagged as the end of the stream after `length` bytes, and the session goes on.
When a step of the worker submits it, the law holds exactly when `p` ends after these bytes by the
calls of `SetWritePacket` made since. -/
theorem run_eosLaw_iff (buffer : Option Memory) (bufferSize notificationCount packetSize : ULONG)
    (earlier later : List ClientStep) (p length : ULONG) (s : WorkerStep) (sources : List ULONG)
    (entry : TxEntry) (memory : Memory) :
    let start := run clientStep (World.fresh buffer bufferSize notificationCount packetSize) earlier
    let flagged := setWritePacket p true length start
    let w := run clientStep flagged.2 later
    flagged.1 = .success → Guarded clientStep (fun w s => ¬ EndsSession w s) flagged.2 later →
    Submits w s sources entry → p ∈ sources → w.buffer = some memory →
    (EosLaw w memory p (eosLength w.packetSize length) entry ↔
      EndsAfter (writesAfter [⟨p, true, length⟩] later) w memory p
        (eosLength w.packetSize length)) := by
  intro start flagged w hok hopen hsubmits hp hmemory
  have hregistered : Registered (writesAfter [⟨p, true, length⟩] later) w :=
    (setWritePacket_registered hok).run later hopen
  have hsteps : w = run clientStep (World.fresh buffer bufferSize notificationCount packetSize)
      (earlier ++ .call (.act (.setWritePacket p true length)) :: later) := by
    rw [run_append]
    rfl
  have hphase : PhaseBounded w := by
    rw [hsteps]
    exact run_phaseBounded buffer bufferSize notificationCount packetSize _
  exact hregistered.eosLaw_iff hphase hsubmits hp hmemory (eosLength_le _ _)

deriving instance DecidableEq for TxEntry, Event

/-- A stream in RUN plays its preroll. -/
def playPreroll : List ClientStep :=
  [.call (.act (.setState .run (.granted 1))), .call (.act (.worker .chooseTarget)),
    .call (.act (.worker (.reclaim (.used 0)))), .call (.act (.worker (.reclaim (.used 0))))]

/-- The slot of packet zero as it is sent, with `length` bytes of ones. -/
def slotEntry (length : ℕ) : TxEntry :=
  ⟨⟨10, 2052⟩, 2048, 2048, 0, List.replicate length 1 ++ List.replicate (2048 - length) 0⟩

/-- The packet that ends the stream is submitted before another one is written. -/
theorem run_eosLaw_iff_last :
    EosLaw (setWritePacket 0 true 100 (run clientStep (World.fresh (some fun _ => 1) 4096 2 2048)
      playPreroll)).2 (fun _ => 1) 0 100 (slotEntry 100) := by
  refine (run_eosLaw_iff (some fun _ => 1) 4096 2 2048 playPreroll [] 0 100 (.submit .queued) [0]
    (slotEntry 100) (fun _ => 1) (by decide +kernel) trivial (by unfold Submits; decide +kernel)
    (by decide) rfl).mpr ?_
  intro k hmin hmax
  exact absurd (hmin.trans_lt hmax) (by decide +kernel)

/-- The next packet is written before the one that ends the stream is submitted: its whole slot is
sent. -/
theorem run_not_eosLaw :
    let flagged := (setWritePacket 0 true 100 (run clientStep
      (World.fresh (some fun _ => 1) 4096 2 2048) playPreroll)).2
    let w := run clientStep flagged [.call (.act (.setWritePacket 1 false 0))]
    Submits w (.submit .queued) [0] (slotEntry 2048) ∧
      ¬ EosLaw w (fun _ => 1) 0 100 (slotEntry 2048) := by
  intro flagged w
  refine ⟨by unfold Submits; decide +kernel, ?_⟩
  have hdefault : ¬ w.renderFallbackActive = true := by decide +kernel
  unfold EosLaw
  rw [if_neg hdefault]
  decide +kernel

end Viosnd.Render
