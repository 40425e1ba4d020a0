import Viosnd.Worker.Reclaim

/-!
# Reclaiming without faults

While the teardown is orderly a thread in `ReclaimCapturePackets` has a buffer for what it writes,
and it returns once the queue yields nothing more. A worker that outlives its timeout may miss both.
-/

namespace Viosnd.Reclaim

open StepRun Worker
open Capture (PcmIo RxEntry)

/-- No fault so far, and whoever writes a completion has a buffer. -/
structure ReclaimWorld.Safe (w : ReclaimWorld) : Prop where
  faults : w.faults = []
  spins : w.spins = 0
  held : ∀ agent, (w.places agent).Writes → w.Allocated
  copying : ∀ agent slot, w.places agent = .copying slot → slot.destination = true
  zeroing : ∀ agent slot, w.places agent = .zeroing slot → slot.destination = true

private theorem ReclaimWorld.fresh_safe (captureFaulted : Bool) (allocated : Option ULONG) :
    (ReclaimWorld.fresh captureFaulted allocated).Safe where
  faults := rfl
  spins := rfl
  held := fun _ h => absurd h id
  copying := fun _ _ h => nomatch h
  zeroing := fun _ _ h => nomatch h

/-! ## What a step changes -/

def SameBuffer (data data' : Capture.World) : Prop :=
  data'.buffer.isSome = data.buffer.isSome ∧ data'.notificationCount = data.notificationCount

theorem SameBuffer.trans {a b c : Capture.World} (h : SameBuffer a b) (h' : SameBuffer b c) :
    SameBuffer a c := ⟨h'.1.trans h.1, h'.2.trans h.2⟩

private theorem recycleCaptureIo_sameBuffer (io : PcmIo) (data : Capture.World) :
    SameBuffer data (Capture.recycleCaptureIo io data) := by
  rw [Capture.recycleCaptureIo_eq]
  exact ⟨rfl, rfl⟩

private theorem countReady_sameBuffer (data : Capture.World) :
    SameBuffer data (Capture.countReady data) := by
  rw [Capture.countReady_eq]
  exact ⟨rfl, rfl⟩

section

variable {w : ReclaimWorld}

theorem ReclaimWorld.Allocated.congr {w' : ReclaimWorld} (h : w.Allocated)
    (hpages : w'.pages = w.pages) (hdata : SameBuffer w.data w'.data) : w'.Allocated where
  pages := hpages.trans h.pages
  buffer := hdata.1.trans h.buffer
  count := fun hzero => h.count (hdata.2.symm.trans hzero)

theorem ReclaimWorld.Safe.congr {w' : ReclaimWorld} (h : w.Safe) (hfaults : w'.faults = w.faults)
    (hspins : w'.spins = w.spins) (hplaces : w'.places = w.places) (hpages : w'.pages = w.pages)
    (hdata : SameBuffer w.data w'.data) : w'.Safe where
  faults := hfaults.trans h.faults
  spins := hspins.trans h.spins
  held := by
    intro agent hwrites
    rw [hplaces] at hwrites
    exact (h.held agent hwrites).congr hpages hdata
  copying := by
    intro agent slot hat
    rw [hplaces] at hat
    exact h.copying agent slot hat
  zeroing := by
    intro agent slot hat
    rw [hplaces] at hat
    exact h.zeroing agent slot hat

theorem ReclaimWorld.Safe.move (h : w.Safe) (agent : Option ℕ) (place : ReclaimAt)
    (hheld : place.Writes → w.Allocated)
    (hcopying : ∀ slot, place = .copying slot → slot.destination = true)
    (hzeroing : ∀ slot, place = .zeroing slot → slot.destination = true) :
    ReclaimWorld.Safe { w with places := Function.update w.places agent place } where
  faults := h.faults
  spins := h.spins
  held := by
    intro other hwrites
    by_cases heq : other = agent
    · subst heq
      simp only [Function.update_self] at hwrites
      exact (hheld hwrites).congr rfl ⟨rfl, rfl⟩
    · simp only [Function.update_of_ne heq] at hwrites
      exact (h.held other hwrites).congr rfl ⟨rfl, rfl⟩
  copying := by
    intro other slot hat
    by_cases heq : other = agent
    · subst heq
      simp only [Function.update_self] at hat
      exact hcopying slot hat
    · simp only [Function.update_of_ne heq] at hat
      exact h.copying other slot hat
  zeroing := by
    intro other slot hat
    by_cases heq : other = agent
    · subst heq
      simp only [Function.update_self] at hat
      exact hzeroing slot hat
    · simp only [Function.update_of_ne heq] at hat
      exact h.zeroing other slot hat

theorem ReclaimWorld.Safe.rest (h : w.Safe) (agent : Option ℕ) (place : ReclaimAt)
    (hplace : ¬ place.Writes) :
    ReclaimWorld.Safe { w with places := Function.update w.places agent place } := by
  refine h.move agent place (fun hwrites => absurd hwrites hplace) ?_ ?_
  · rintro slot rfl
    exact absurd trivial hplace
  · rintro slot rfl
    exact absurd trivial hplace

/-! ## The steps of the routine -/

private theorem ask_present (hqueue : w.rxQueue = true) (agent : Option ℕ) (answer : Answer) :
    ask agent answer w = match answer with
      | .empty => { w with places := Function.update w.places agent .out }
      | .failed entry => { w with
          data := Capture.recycleCaptureIo entry.io
            (({ w.data with captureInFlight := w.data.captureInFlight - 1 } : Capture.World).note
              (.failed entry.packetNumber)) }
      | .completed c => { w with
          data := { w.data with captureInFlight := w.data.captureInFlight - 1 }
          places := Function.update w.places agent (.locating c) } := by
  have hthere : ¬ w.rxQueue = false := by simp [hqueue]
  unfold ask viosndReclaimPreparedReadPcm
  simp only [if_neg hthere]
  cases answer <;> rfl

private theorem ask_safe (h : w.Safe) (agent : Option ℕ) (answer : Answer)
    (hqueue : w.rxQueue = true) (hanswer : ∀ c, answer = .completed c → w.Allocated) :
    (ask agent answer w).Safe := by
  rw [ask_present hqueue]
  cases answer with
  | empty => exact h.rest agent .out not_false
  | failed entry =>
      have hrecycled := recycleCaptureIo_sameBuffer entry.io
        (({ w.data with captureInFlight := w.data.captureInFlight - 1 } : Capture.World).note
          (.failed entry.packetNumber))
      exact h.congr rfl rfl rfl rfl hrecycled
  | completed c =>
      have hmoved := h.move agent (.locating c) (fun _ => hanswer c rfl)
        (fun _ he => nomatch he) fun _ he => nomatch he
      exact hmoved.congr rfl rfl rfl rfl ⟨rfl, rfl⟩

private theorem locate_safe (h : w.Safe) (agent : Option ℕ) (c : Completion)
    (hallocated : w.Allocated) :
    (locate agent c w).Safe := by
  unfold locate
  rw [if_neg hallocated.count]
  refine h.move agent _ (fun _ => hallocated) ?_ fun _ he => nomatch he
  rintro slot ⟨⟩
  exact hallocated.buffer

private theorem writeThrough_allocated {slot : Slot} (hslot : slot.destination = true)
    (hallocated : w.Allocated) (first : ℕ) (bytes : List Byte) :
    writeThrough slot first bytes w = { w with
      data := { w.data with
        buffer := w.data.buffer.map fun memory =>
          memory.write (slot.offset.toNat + first) bytes } } := by
  unfold writeThrough
  split
  · rename_i hnothing
    subst hnothing
    simp only [Memory.write_nil, Option.map_id']
  · rw [if_neg (by simp [hslot]), if_neg (by simp [hallocated.pages])]

private theorem writeThrough_safe (h : w.Safe) {slot : Slot} (hslot : slot.destination = true)
    (hallocated : w.Allocated) (first : ℕ) (bytes : List Byte) :
    (writeThrough slot first bytes w).Safe ∧ (writeThrough slot first bytes w).Allocated := by
  rw [writeThrough_allocated hslot hallocated]
  have hsame : SameBuffer w.data { w.data with
      buffer := w.data.buffer.map fun memory =>
        memory.write (slot.offset.toNat + first) bytes } := ⟨Option.isSome_map, rfl⟩
  exact ⟨h.congr rfl rfl rfl rfl hsame, hallocated.congr rfl hsame⟩

private theorem fillOrCount_safe (h : w.Safe) (agent : Option ℕ) {slot : Slot}
    (hslot : slot.destination = true) (hallocated : w.Allocated) (short : Prop) [Decidable short] :
    ReclaimWorld.Safe { w with
      places := Function.update w.places agent
        (if short then .zeroing slot else .counting slot.completion) } := by
  split
  · apply h.move agent (.zeroing slot) (fun _ => hallocated)
    · intro other he
      cases he
    · intro other he
      cases he
      exact hslot
  · exact h.rest agent (.counting slot.completion) not_false

private theorem copy_safe (h : w.Safe) (agent : Option ℕ) {slot : Slot}
    (hslot : slot.destination = true) (hallocated : w.Allocated) : (copy agent slot w).Safe := by
  unfold copy
  obtain ⟨hsafe, hstill⟩ := writeThrough_safe h hslot hallocated 0
    (viosndPcmCopyGain16 captureSoftwareGain (slot.completion.audio.slice 0
      (if slot.completion.bytesRead < w.data.packetSize then slot.completion.bytesRead
        else w.data.packetSize).toNat))
  exact fillOrCount_safe hsafe agent hslot hstill _

private theorem zeroFill_safe (h : w.Safe) (agent : Option ℕ) {slot : Slot}
    (hslot : slot.destination = true) (hallocated : w.Allocated) :
    (zeroFill agent slot w).Safe := by
  unfold zeroFill
  have hwritten := writeThrough_safe h hslot hallocated slot.completion.bytesRead.toNat
    (List.replicate (w.data.packetSize - slot.completion.bytesRead).toNat 0)
  exact hwritten.1.rest agent (.counting slot.completion) not_false

private theorem count_safe (h : w.Safe) (agent : Option ℕ) (c : Completion) :
    (count agent c w).Safe := by
  have hcounted (data : Capture.World) (hdata : SameBuffer w.data data) :
      SameBuffer w.data (Capture.recycleCaptureIo c.entry.io (Capture.countReady data)) :=
    (hdata.trans (countReady_sameBuffer data)).trans (recycleCaptureIo_sameBuffer _ _)
  have hmoved := h.rest agent .asking not_false
  exact hmoved.congr rfl rfl rfl rfl (hcounted _ ⟨rfl, rfl⟩)

private theorem reclaim_safe_step (h : w.Safe) (agent : Option ℕ) (answer : Answer)
    (horderly : Orderly w (.reclaim agent answer)) : (reclaim agent answer w).Safe := by
  unfold reclaim
  cases hplace : w.places agent with
  | out => exact h
  | asking =>
      obtain ⟨hqueue, hanswer⟩ := horderly hplace
      exact ask_safe h agent answer hqueue hanswer
  | locating c =>
      have hallocated := h.held agent (by rw [hplace]; trivial)
      exact locate_safe h agent c hallocated
  | copying slot =>
      have hallocated := h.held agent (by rw [hplace]; trivial)
      exact copy_safe h agent (h.copying agent slot hplace) hallocated
  | zeroing slot =>
      have hallocated := h.held agent (by rw [hplace]; trivial)
      exact zeroFill_safe h agent (h.zeroing agent slot hplace) hallocated
  | counting c => exact count_safe h agent c

private theorem step_safe (h : w.Safe) (i : ReclaimInput) (horderly : Orderly w i) :
    (w.step i).Safe := by
  cases i with
  | thread i =>
      unfold ReclaimWorld.step
      dsimp only
      split
      · exact h
      · exact h.congr rfl rfl rfl rfl ⟨rfl, rfl⟩
  | enter agent =>
      unfold ReclaimWorld.step
      dsimp only
      split
      · exact h.rest agent .asking not_false
      · exact h
  | reclaim agent answer => exact reclaim_safe_step h agent answer horderly
  | freePages =>
      exact {
        faults := h.faults
        spins := h.spins
        held := fun agent hwrites => absurd hwrites (horderly agent)
        copying := h.copying
        zeroing := h.zeroing }
  | clearFields =>
      unfold ReclaimWorld.step
      dsimp only
      split
      · exact h
      · rename_i hfreed
        have hnobody : ∀ agent, ¬ (w.places agent).Writes :=
          fun agent hwrites => hfreed (h.held agent hwrites).pages
        exact {
          faults := h.faults
          spins := h.spins
          held := fun agent hwrites => absurd hwrites (hnobody agent)
          copying := h.copying
          zeroing := h.zeroing }
  | loseQueue => exact h.congr rfl rfl rfl rfl ⟨rfl, rfl⟩
  | others v => exact h.congr rfl rfl rfl rfl ⟨rfl, rfl⟩

end

/-! ## The way out -/

/-- The steps a thread has left when the queue yields nothing more. -/
def ReclaimAt.remaining : ReclaimAt → ℕ
  | .out => 0
  | .asking => 1
  | .counting _ => 2
  | .zeroing _ => 3
  | .copying _ => 4
  | .locating _ => 5

private theorem ReclaimAt.remaining_le (place : ReclaimAt) : place.remaining ≤ 5 := by
  cases place <;> simp [remaining]

def ReclaimInput.isStepOf (agent : Option ℕ) : ReclaimInput → Bool
  | .reclaim other _ => other == agent
  | _ => false

/-- The queue has no further completed buffer for the thread. -/
def ReclaimInput.YieldsNothing (agent : Option ℕ) : ReclaimInput → Prop
  | .reclaim other answer => other = agent → answer = .empty
  | _ => True

section

variable {w : ReclaimWorld}

@[simp] theorem writeThrough_places (slot : Slot) (first : ℕ) (bytes : List Byte) :
    (writeThrough slot first bytes w).places = w.places := by
  unfold writeThrough
  split_ifs <;> rfl

private theorem reclaim_places (agent : Option ℕ) (answer : Answer) :
    ∃ place, (reclaim agent answer w).places = Function.update w.places agent place := by
  have hstay : w.places = Function.update w.places agent (w.places agent) :=
    (Function.update_eq_self agent w.places).symm
  unfold reclaim
  cases w.places agent with
  | out => exact ⟨_, hstay⟩
  | asking =>
      unfold ask
      dsimp only
      split
      · exact ⟨_, rfl⟩
      · split
        · exact ⟨_, rfl⟩
        · exact ⟨_, hstay⟩
  | locating c => exact ⟨_, rfl⟩
  | copying slot =>
      unfold copy
      simp only [writeThrough_places]
      exact ⟨_, rfl⟩
  | zeroing slot =>
      unfold zeroFill
      simp only [writeThrough_places]
      exact ⟨_, rfl⟩
  | counting c => exact ⟨_, rfl⟩

private theorem reclaim_remaining (agent : Option ℕ)
    (hqueue : w.places agent = .asking → w.rxQueue = true) (hinside : w.places agent ≠ .out) :
    ((reclaim agent .empty w).places agent).remaining + 1 ≤ (w.places agent).remaining := by
  unfold reclaim
  cases hplace : w.places agent with
  | out => exact absurd hplace hinside
  | asking => simp [ask_present (hqueue hplace), ReclaimAt.remaining]
  | locating c => simp [locate, ReclaimAt.remaining]
  | copying slot =>
      have hafter (short : Prop) [Decidable short] :
          (if short then ReclaimAt.zeroing slot else .counting slot.completion).remaining ≤ 3 := by
        split <;> simp [ReclaimAt.remaining]
      simp only [copy, Function.update_self]
      exact Nat.succ_le_succ (hafter _)
  | zeroing slot => simp [zeroFill, ReclaimAt.remaining]
  | counting c => simp [count, ReclaimAt.remaining]

private theorem step_places (agent : Option ℕ) (i : ReclaimInput)
    (hother : i.isStepOf agent = false) (hinside : w.places agent ≠ .out) :
    (w.step i).places agent = w.places agent := by
  cases i with
  | thread i =>
      unfold ReclaimWorld.step
      dsimp only
      split <;> rfl
  | enter other =>
      unfold ReclaimWorld.step
      dsimp only
      split
      · rename_i henter
        apply Function.update_of_ne
        rintro rfl
        cases hplace : w.places agent <;> simp_all [ReclaimAt.isOut]
      · rfl
  | reclaim other answer =>
      have hne : agent ≠ other := by
        rintro rfl
        simp [ReclaimInput.isStepOf] at hother
      obtain ⟨place, hplaces⟩ := reclaim_places (w := w) other answer
      change (reclaim other answer w).places agent = w.places agent
      rw [hplaces, Function.update_of_ne hne]
  | clearFields =>
      unfold ReclaimWorld.step
      dsimp only
      split <;> rfl
  | _ => rfl

/-- One step of any thread, while the queue yields nothing to this one. -/
private theorem step_remaining (agent : Option ℕ) (i : ReclaimInput)
    (hguard : Orderly w i ∧ i.YieldsNothing agent) (hinside : w.places agent ≠ .out) :
    ((w.step i).places agent).remaining + (if i.isStepOf agent then 1 else 0) ≤
      (w.places agent).remaining := by
  cases hown : i.isStepOf agent with
  | false => simp [step_places agent i hown hinside]
  | true =>
      cases i with
      | reclaim other answer =>
          obtain rfl : other = agent := by simpa [ReclaimInput.isStepOf] using hown
          obtain rfl : answer = .empty := hguard.2 rfl
          exact reclaim_remaining other (fun hplace => (hguard.1 hplace).1) hinside
      | _ => simp [ReclaimInput.isStepOf] at hown

end

/-! ## An uninterrupted pass -/

/-- The thread goes on to `place` and leaves `data` in the fields of the stream. -/
def ReclaimWorld.put (w : ReclaimWorld) (agent : Option ℕ) (data : Capture.World)
    (place : ReclaimAt) : ReclaimWorld := { w with
  data := data
  places := Function.update w.places agent place }

section

variable {w : ReclaimWorld}

@[simp] theorem put_places (agent : Option ℕ) (data : Capture.World) (place : ReclaimAt) :
    (w.put agent data place).places agent = place := Function.update_self ..

@[simp] theorem put_put (agent : Option ℕ) (data data' : Capture.World) (place place' : ReclaimAt) :
    (w.put agent data place).put agent data' place' = w.put agent data' place' := by
  simp [ReclaimWorld.put]

private theorem put_allocated (hallocated : w.Allocated) (agent : Option ℕ) {data : Capture.World}
    (place : ReclaimAt) (hdata : SameBuffer w.data data) : (w.put agent data place).Allocated :=
  hallocated.congr rfl hdata

/-- What `ViosndPcmCopyGain16` leaves of the fields. -/
def copied (slot : Slot) (data : Capture.World) : Capture.World := { data with
  buffer := data.buffer.map fun memory => memory.write slot.offset.toNat
    (viosndPcmCopyGain16 captureSoftwareGain (slot.completion.audio.slice 0
      (if slot.completion.bytesRead < data.packetSize then slot.completion.bytesRead
        else data.packetSize).toNat)) }

def zeroed (slot : Slot) (data : Capture.World) : Capture.World := { data with
  buffer := data.buffer.map fun memory =>
    memory.zero (slot.offset.toNat + slot.completion.bytesRead.toNat)
      (data.packetSize - slot.completion.bytesRead).toNat }

private theorem locate_allocated (agent : Option ℕ) (c : Completion) (hallocated : w.Allocated) :
    locate agent c w = w.put agent w.data (.copying
      { completion := c
        destination := true
        offset := (c.entry.packetNumber % w.data.notificationCount) * w.data.packetSize }) := by
  unfold locate
  rw [if_neg hallocated.count, hallocated.buffer]
  rfl

private theorem copy_allocated (agent : Option ℕ) {slot : Slot} (hslot : slot.destination = true)
    (hallocated : w.Allocated) :
    copy agent slot w = w.put agent (copied slot w.data)
      (if slot.completion.bytesRead < w.data.packetSize then .zeroing slot
        else .counting slot.completion) := by
  have hwritten := writeThrough_allocated hslot hallocated 0
    (viosndPcmCopyGain16 captureSoftwareGain (slot.completion.audio.slice 0
      (if slot.completion.bytesRead < w.data.packetSize then slot.completion.bytesRead
        else w.data.packetSize).toNat))
  simp only [copy, hwritten, Nat.add_zero]
  rfl

private theorem zeroFill_allocated (agent : Option ℕ) {slot : Slot}
    (hslot : slot.destination = true) (hallocated : w.Allocated) :
    zeroFill agent slot w =
      w.put agent (zeroed slot w.data) (.counting slot.completion) := by
  have hwritten := writeThrough_allocated hslot hallocated slot.completion.bytesRead.toNat
    (List.replicate (w.data.packetSize - slot.completion.bytesRead).toNat 0)
  simp only [zeroFill, hwritten, Memory.write_replicate]
  rfl

/-- The steps of a pass with no other thread between them, the buffer being there, are the
completion and the recycling of the sequential model. -/
theorem pass_eq (agent : Option ℕ) (c : Completion) (hplace : w.places agent = .locating c)
    (hallocated : w.Allocated) :
    run ReclaimWorld.step w
        (List.replicate (if c.bytesRead < w.data.packetSize then 4 else 3)
          (.reclaim agent .empty)) =
      w.put agent (Capture.recycleCaptureIo c.entry.io
        (Capture.completeCapture c.entry c.bytesRead c.audio w.data)) .asking := by
  have hstep (w : ReclaimWorld) : w.step (.reclaim agent .empty) = reclaim agent .empty w := rfl
  set slot : Slot := {
    completion := c
    destination := true
    offset := (c.entry.packetNumber % w.data.notificationCount) * w.data.packetSize } with hslot
  have hlocated : reclaim agent .empty w = w.put agent w.data (.copying slot) := by
    simp only [reclaim, hplace, locate_allocated agent c hallocated, hslot]
  have hcopied : reclaim agent .empty (w.put agent w.data (.copying slot)) =
      w.put agent (copied slot w.data)
        (if c.bytesRead < w.data.packetSize then .zeroing slot else .counting c) := by
    have hthere := put_allocated hallocated agent (.copying slot) ⟨rfl, rfl⟩
    simp only [reclaim, put_places]
    rw [copy_allocated agent rfl hthere, put_put]
    rfl
  have hzeroed : reclaim agent .empty (w.put agent (copied slot w.data) (.zeroing slot)) =
      w.put agent (zeroed slot (copied slot w.data)) (.counting c) := by
    have hsame : SameBuffer w.data (copied slot w.data) := ⟨Option.isSome_map, rfl⟩
    have hthere := put_allocated hallocated agent (.zeroing slot) hsame
    simp only [reclaim, put_places]
    rw [zeroFill_allocated agent rfl hthere, put_put]
    rfl
  have hcounted (data : Capture.World) :
      reclaim agent .empty (w.put agent data (.counting c)) =
        w.put agent (count agent c { w with data := data }).data .asking := by
    simp only [reclaim, put_places]
    exact put_put ..
  split
  · rename_i hshort
    rw [if_pos hshort] at hcopied
    have hstored : zeroed slot (copied slot w.data) = { w.data with
        buffer := w.data.buffer.map fun memory =>
          Capture.storeAudio w.data memory c.entry.packetNumber c.bytesRead c.audio } := by
      simp only [zeroed, copied, Option.map_map, Capture.storeAudio, if_pos hshort, hslot]
      rfl
    simp only [List.replicate, run_cons, run_nil, hstep, hlocated, hcopied, hzeroed, hcounted,
      hstored]
    rfl
  · rename_i hfull
    rw [if_neg hfull] at hcopied
    have hstored : copied slot w.data = { w.data with
        buffer := w.data.buffer.map fun memory =>
          Capture.storeAudio w.data memory c.entry.packetNumber c.bytesRead c.audio } := by
      simp only [copied, Capture.storeAudio, if_neg hfull, hslot]
    simp only [List.replicate, run_cons, run_nil, hstep, hlocated, hcopied, hcounted, hstored]
    rfl

end

/-! ## Every run -/

private theorem run_safe (captureFaulted : Bool) (allocated : Option ULONG)
    (inputs : List ReclaimInput)
    (h : Guarded ReclaimWorld.step Orderly (.fresh captureFaulted allocated) inputs) :
    (run ReclaimWorld.step (.fresh captureFaulted allocated) inputs).Safe :=
  h.invariant (fun _ i hs horderly => step_safe hs i horderly)
    (ReclaimWorld.fresh_safe captureFaulted allocated)

/-- In a run with an orderly teardown no thread divides by zero or writes to a buffer that is not
there, no pass goes on without a buffer, and a thread that the queue yields nothing more returns
after five steps of its own at the latest, whatever the other threads do meanwhile. -/
theorem reclaim_safe (captureFaulted : Bool) (allocated : Option ULONG)
    (inputs : List ReclaimInput)
    (h : Guarded ReclaimWorld.step Orderly (.fresh captureFaulted allocated) inputs) :
    let w := run ReclaimWorld.step (.fresh captureFaulted allocated) inputs
    w.faults = [] ∧ w.spins = 0 ∧
      ∀ (agent : Option ℕ) (later : List ReclaimInput),
        Guarded ReclaimWorld.step (fun w i => Orderly w i ∧ i.YieldsNothing agent) w later →
        5 ≤ later.countP (·.isStepOf agent) →
        ∃ first, first <+: later ∧ (run ReclaimWorld.step w first).places agent = .out := by
  intro w
  have hsafe := run_safe captureFaulted allocated inputs h
  refine ⟨hsafe.faults, hsafe.spins, ?_⟩
  intro agent later hlater hlong
  have hdone (w : ReclaimWorld) (hzero : (w.places agent).remaining = 0) :
      w.places agent = .out := by
    cases hplace : w.places agent <;> simp_all [ReclaimAt.remaining]
  apply hlater.reaches (fun w => (w.places agent).remaining) hdone
  · intro w i hinside hguard
    exact step_remaining agent i hguard hinside
  · exact (ReclaimAt.remaining_le _).trans hlong

/-- The stream goes to RUN with a buffer of two packets, and its worker calls the routine. -/
def started : List ReclaimInput :=
  .thread (.setState .run) :: List.replicate 10 (.thread (.caller true)) ++
    [.thread (.worker 0 true), .enter (some 0)]

/-- A packet that came back with one sample. -/
def shortPacket : Completion where
  entry := ⟨⟨0, 2048⟩, 2048, 0⟩
  bytesRead := 2
  audio := fun _ => 7

/-- The worker has taken the packet. -/
def packetTaken : ReclaimWorld :=
  run ReclaimWorld.step (.fresh false (some 4096))
    (started ++ [.reclaim (some 0) (.completed shortPacket)])

/-- The stream is stopped while the worker has the packet: the worker writes it, finds the queue
empty and leaves, `SetState` looks at the queue itself, and the buffer is freed. -/
def stopAndFree : List ReclaimInput :=
  .thread (.setState .stop) :: List.replicate 5 (.reclaim (some 0) .empty) ++
    List.replicate 2 (.thread (.caller true)) ++ List.replicate 6 (.thread (.worker 0 true)) ++
    List.replicate 6 (.thread (.caller true)) ++ [.enter none, .reclaim none .empty] ++
    List.replicate 2 (.thread (.caller true)) ++ [.freePages, .clearFields]

private theorem orderly_empty {w : ReclaimWorld} (agent : Option ℕ) (hqueue : w.rxQueue = true) :
    Orderly w (.reclaim agent .empty) := by
  intro _
  refine ⟨hqueue, ?_⟩
  intro _ he
  cases he

set_option maxRecDepth 4000 in
theorem reclaim_safe_started :
    packetTaken.faults = [] ∧
      (∃ first, first <+: List.replicate 5 (ReclaimInput.reclaim (some 0) .empty) ∧
        (run ReclaimWorld.step packetTaken first).places (some 0) = .out) ∧
      (run ReclaimWorld.step packetTaken stopAndFree).faults = [] ∧
      (run ReclaimWorld.step packetTaken stopAndFree).data.buffer = none := by
  have horderly : Guarded ReclaimWorld.step Orderly (.fresh false (some 4096))
      (started ++ [.reclaim (some 0) (.completed shortPacket)]) := by
    simp only [started, List.replicate, List.cons_append, List.nil_append, guarded_cons]
    simp only [Orderly, guarded_nil, true_and, and_true]
    intro _
    refine ⟨rfl, fun _ _ => ⟨rfl, rfl, by decide⟩⟩
  have hreturned : Guarded ReclaimWorld.step (fun w i => Orderly w i ∧ i.YieldsNothing (some 0))
      packetTaken (List.replicate 5 (.reclaim (some 0) .empty)) := by
    simp only [List.replicate, guarded_cons, guarded_nil, and_true]
    exact ⟨⟨orderly_empty _ (by decide +kernel), fun _ => rfl⟩,
      ⟨orderly_empty _ (by decide +kernel), fun _ => rfl⟩,
      ⟨orderly_empty _ (by decide +kernel), fun _ => rfl⟩,
      ⟨orderly_empty _ (by decide +kernel), fun _ => rfl⟩,
      orderly_empty _ (by decide +kernel), fun _ => rfl⟩
  have hstopped : Guarded ReclaimWorld.step Orderly packetTaken stopAndFree := by
    simp only [stopAndFree, List.replicate, List.cons_append, List.nil_append, guarded_cons]
    refine ⟨trivial, orderly_empty _ (by decide +kernel), orderly_empty _ (by decide +kernel),
      orderly_empty _ (by decide +kernel), orderly_empty _ (by decide +kernel),
      orderly_empty _ (by decide +kernel), trivial, trivial, trivial, trivial, trivial, trivial,
      trivial, trivial, trivial, trivial, trivial, trivial, trivial, trivial, trivial,
      orderly_empty _ (by decide +kernel), trivial, trivial, ?_, trivial, trivial⟩
    rintro (_ | _ | n)
    · exact id
    · exact id
    · exact id
  obtain ⟨hfaults, -, hreturns⟩ := reclaim_safe false (some 4096) _ horderly
  have hfreed := (reclaim_safe false (some 4096) _
    ((guarded_append _ _ _).mpr ⟨horderly, hstopped⟩)).1
  rw [run_append] at hfreed
  exact ⟨hfaults, hreturns (some 0) _ hreturned (by decide), hfreed, rfl⟩

private theorem step_rxQueue (w : ReclaimWorld) (i : ReclaimInput) (hgone : w.rxQueue = false) :
    (w.step i).rxQueue = false := by
  cases i with
  | reclaim agent answer =>
      change (reclaim agent answer w).rxQueue = false
      unfold reclaim
      cases w.places agent with
      | asking => simp [ask, viosndReclaimPreparedReadPcm, hgone]
      | copying slot =>
          unfold copy writeThrough
          dsimp only
          split_ifs <;> exact hgone
      | zeroing slot =>
          unfold zeroFill writeThrough
          dsimp only
          split_ifs <;> exact hgone
      | _ => exact hgone
  | thread | enter | clearFields =>
      unfold ReclaimWorld.step
      dsimp only
      split <;> exact hgone
  | _ => first | rfl | exact hgone

/-- A thread that asks a queue that is gone never returns, whatever it or another thread does:
`STATUS_DEVICE_NOT_READY` is no reason for the loop to end. -/
private theorem asking_forever {w : ReclaimWorld} (agent : Option ℕ) (hgone : w.rxQueue = false)
    (hplace : w.places agent = .asking) (later : List ReclaimInput) :
    (run ReclaimWorld.step w later).places agent = .asking := by
  induction later generalizing w with
  | nil => exact hplace
  | cons i later ih =>
      apply ih (step_rxQueue w i hgone)
      cases hown : i.isStepOf agent with
      | false => rw [step_places agent i hown (by simp [hplace]), hplace]
      | true =>
          cases i with
          | reclaim other answer =>
              obtain rfl : other = agent := by simpa [ReclaimInput.isStepOf] using hown
              change (reclaim other answer w).places other = .asking
              simp [reclaim, hplace, ask, viosndReclaimPreparedReadPcm, hgone]
          | _ => simp [ReclaimInput.isStepOf] at hown

/-- `SetState(KSSTATE_STOP)` waits for the worker until its timeout and RELEASE is refused; then
`FreeAudioBuffer` runs, and the worker finds a completed packet. -/
def timedOut : List ReclaimInput :=
  started ++
    .thread (.setState .stop) ::
      [true, true, true, false, true, true, true, false, true].map (.thread <| .caller ·) ++
    [.freePages, .clearFields, .reclaim (some 0) (.completed shortPacket),
      .reclaim (some 0) .empty]

/-- The worker that outlived the timeout divides by `m_NotificationCount = 0`, and a worker never
returns once the RX queue is gone. -/
theorem teardown_unsafe :
    (run ReclaimWorld.step (.fresh false (some 4096)) timedOut).faults = [.divideByZero] ∧
      ∀ later, (run ReclaimWorld.step
        (run ReclaimWorld.step (.fresh false (some 4096)) (started ++ [.loseQueue]))
        later).places (some 0) = .asking := by
  constructor
  · rfl
  · intro later
    exact asking_forever (some 0) rfl rfl later

end Viosnd.Reclaim
