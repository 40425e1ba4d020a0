import Viosnd.Lib.Effects
import Viosnd.Circuit.Stream

/-!
# What the callbacks do to a stream

Every callback is a sequence of small changes of a few kinds. Each kind is described once here, and
each routine is decomposed once; an invariant of a stream is checked kind by kind.
-/

namespace Viosnd.Circuit

open StepRun EffectSystem

open Acx (Ready sndStatusOk clampPeriodCount)

inductive Kind where
  | tune
  | flags
  | unprepare
  | accept
  | clear
  | render
  | fail
  | capture
  | take
  | stale
  | deliver
  | newPeriods
  | freePeriods
  | allocatePackets
  | freePackets
  | create
  | cleanup
  deriving DecidableEq

def Stream.withPeriods (s : Stream) (periodBytes : ℕ) : Stream := { s with
  periods := some s.nextArray
  nextArray := s.nextArray + 1
  period := fun _ => ⟨0, ⟨0, 0⟩, false⟩
  periodCount := clampPeriodCount s.packetCount
  periodBytes := periodBytes
  bufferBytes := periodBytes * clampPeriodCount s.packetCount }

inductive Effect : Kind → Stream → Stream → Prop where
  /-- Counters that no chain and no packet depends on. -/
  | tune (s : Stream) (packetsCompleted nextCapturePacket positionBytes : ULONGLONG)
      (xrunCount : ULONG) (commands : List (PcmCommand × NtStatus)) :
      Effect .tune s { s with
        packetsCompleted := packetsCompleted
        nextCapturePacket := nextCapturePacket
        positionBytes := positionBytes
        xrunCount := xrunCount
        log := { s.log with
          commands := commands } }
  | flags (s : Stream) (prepared running : Bool) (hrunning : running = true → prepared = true)
      (hprepared : prepared = s.prepared ∨ prepared = true ∧ s.periods ≠ none) :
      Effect .flags s { s with
        prepared := prepared
        running := running }
  | unprepare (s : Stream) (hrunning : s.running = false) : Effect .unprepare s { s with
      prepared := false }
  | accept (s : Stream) (packet : ULONG) (hcapacity : s.renderReadyCapacity ≠ 0) :
      Effect .accept s (queueRenderPacket s packet)
  | clear (s : Stream) : Effect .clear s (clearRenderQueue s)
  /-- The oldest packet goes to the device. -/
  | submitRender (s : Stream) (packet : Ready) (index i : ℕ) (queue : BoundedQueue Chain Answer)
      (hcapture : s.capture = false) (hprepared : s.prepared = true) (hperiods : s.periods ≠ none)
      (hqueue : s.hasQueue = true) (hpeek : peekRenderPacket s = some packet)
      (hindex : getPacketVa s packet.packet = some index) (hfree : s.freePeriod = some i)
      (hadd : (s.fillRender index i packet).queue.add ((s.fillRender index i packet).chain i)
        renderDescriptors = some queue) :
      Effect .render s (popRenderPacket ((s.fillRender index i packet).sent i queue))
  | fillRender (s : Stream) (packet : Ready) (index i : ℕ)
      (hindex : getPacketVa s packet.packet = some index) (hfree : s.freePeriod = some i) :
      Effect .render s (s.fillRender index i packet)
  | fail (s : Stream) (packet : Ready) (hpeek : peekRenderPacket s = some packet) :
      Effect .fail s (popRenderPacket (s.fail packet))
  | submitCapture (s : Stream) (i : ℕ) (packetNumber : ULONGLONG)
      (queue : BoundedQueue Chain Answer) (hcapture : s.capture = true)
      (hprepared : s.prepared = true) (hperiods : s.periods ≠ none) (hqueue : s.hasQueue = true)
      (hi : i < s.periodCount) (hfree : (s.period i).inFlight = false)
      (hadd : (s.fillCapture i packetNumber).queue.add ((s.fillCapture i packetNumber).chain i)
        captureDescriptors = some queue) :
      Effect .capture s ((s.fillCapture i packetNumber).sent i queue)
  | fillCapture (s : Stream) (i : ℕ) (packetNumber : ULONGLONG)
      (hfree : (s.period i).inFlight = false) :
      Effect .capture s (s.fillCapture i packetNumber)
  /-- A buffer that comes back from the device. -/
  | takeRender (s : Stream) (chain : Chain) (answer : Answer) (queue : BoundedQueue Chain Answer)
      (hget : s.queue.get = some ((chain, answer), queue))
      (hperiods : s.periods = some chain.array) :
      Effect .take s (({ s with
        queue := queue }.release chain.period).count (s.period chain.period) answer)
  | takeCapture (s : Stream) (chain : Chain) (answer : Answer) (queue : BoundedQueue Chain Answer)
      (hget : s.queue.get = some ((chain, answer), queue))
      (hperiods : s.periods = some chain.array) :
      Effect .take s ((copyCapture ({ s with
        queue := queue }.release chain.period) (s.period chain.period).packetNumber).count
          (s.period chain.period) answer)
  | staleRender (s : Stream) (chain : Chain) (answer : Answer) (queue : BoundedQueue Chain Answer)
      (hget : s.queue.get = some ((chain, answer), queue))
      (hperiods : s.periods ≠ some chain.array) :
      Effect .stale s { s with
        queue := queue }.stale
  | staleCapture (s : Stream) (chain : Chain) (answer : Answer) (queue : BoundedQueue Chain Answer)
      (hget : s.queue.get = some ((chain, answer), queue))
      (hperiods : s.periods ≠ some chain.array) :
      Effect .stale s (copyCapture { s with
        queue := queue }.stale chain.packetNumber)
  | deliver (s : Stream) (c : Completion) : Effect .deliver s (s.complete c)
  | newPeriods (s : Stream) (periodBytes : ℕ) (hpresent : s.present = true)
      (hnone : s.periods = none)
      (hbytes : periodBytes = s.packetSize ∨ s.packetSize = 0 ∧ periodBytes = 2048) :
      Effect .newPeriods s (s.withPeriods periodBytes)
  | freePeriods (s : Stream) (hprepared : s.prepared = false) :
      Effect .freePeriods s (freeStreamPeriods s)
  | allocatePackets (s : Stream) (packetCount packetSize : ℕ) (hcount : packetCount ≠ 0)
      (hsize : packetSize ≠ 0) (hpage : packetSize ≤ pageSize) :
      Effect .allocatePackets s (allocateRtPackets s packetCount packetSize true).2
  | freePackets (s : Stream) : Effect .freePackets s (freeRtPacketStorage s)
  | create (s : Stream) (habsent : s.present = false) : Effect .create s (createStream s)
  | cleanup (s : Stream) : Effect .cleanup s (evtStreamCleanup s)

/-- `s'` is reached from `s` by changes of the kinds `K`. -/
abbrev Does (K : Finset Kind) (s s' : Stream) : Prop := Within Effect K s s'

theorem Does.one {k : Kind} {s s' : Stream} (h : Effect k s s') : Does {k} s s' :=
  Within.single (Finset.mem_singleton_self k) h

/-! ## What the decomposition rests on -/

/-- The flags, the periods and the chains fit together. -/
structure Wired (s : Stream) : Prop where
  absent : s.present = false → s.periods = none
  running : s.running = true → s.prepared = true
  periods : s.present = true → s.prepared = true → s.periods ≠ none
  numbered : ∀ chain ∈ s.queue.items, chain.array < s.nextArray
  current : ∀ a ∈ s.periods, a < s.nextArray
  bounded : ∀ chain ∈ s.queue.items, s.periods = some chain.array → chain.period < s.periodCount

structure Aside (s s' : Stream) : Prop where
  present : s'.present = s.present
  capture : s'.capture = s.capture
  prepared : s'.prepared = s.prepared
  running : s'.running = s.running
  periods : s'.periods = s.periods
  period : s'.period = s.period
  periodCount : s'.periodCount = s.periodCount
  queue : s'.queue = s.queue
  hasQueue : s'.hasQueue = s.hasQueue
  nextArray : s'.nextArray = s.nextArray

variable {s s' : Stream}

theorem Aside.refl (s : Stream) : Aside s s := ⟨rfl, rfl, rfl, rfl, rfl, rfl, rfl, rfl, rfl, rfl⟩

theorem copy_aside (s : Stream) (index : ℕ) : Aside s (s.copy index) :=
  ⟨rfl, rfl, rfl, rfl, rfl, rfl, rfl, rfl, rfl, rfl⟩

theorem copyCapture_aside (s : Stream) (packetNumber : ULONGLONG) :
    Aside s (copyCapture s packetNumber) := by
  unfold copyCapture
  split
  · exact Aside.refl s
  · exact copy_aside s _

theorem count_aside (s : Stream) (p : Period) (answer : Answer) : Aside s (s.count p answer) :=
  ⟨rfl, rfl, rfl, rfl, rfl, rfl, rfl, rfl, rfl, rfl⟩

private theorem stale_aside (s : Stream) : Aside s s.stale :=
  ⟨rfl, rfl, rfl, rfl, rfl, rfl, rfl, rfl, rfl, rfl⟩

theorem fail_aside (s : Stream) (packet : Ready) : Aside s (s.fail packet) :=
  ⟨rfl, rfl, rfl, rfl, rfl, rfl, rfl, rfl, rfl, rfl⟩

theorem popRenderPacket_aside (s : Stream) : Aside s (popRenderPacket s) := by
  unfold popRenderPacket
  split
  · exact ⟨rfl, rfl, rfl, rfl, rfl, rfl, rfl, rfl, rfl, rfl⟩
  · exact Aside.refl s

theorem queueRenderPacket_aside (s : Stream) (packet : ULONG) :
    Aside s (queueRenderPacket s packet) := by
  unfold queueRenderPacket
  split
  · exact ⟨rfl, rfl, rfl, rfl, rfl, rfl, rfl, rfl, rfl, rfl⟩
  · exact ⟨rfl, rfl, rfl, rfl, rfl, rfl, rfl, rfl, rfl, rfl⟩

theorem clearRenderQueue_aside (s : Stream) : Aside s (clearRenderQueue s) := by
  unfold clearRenderQueue
  split
  · exact Aside.refl s
  · exact ⟨rfl, rfl, rfl, rfl, rfl, rfl, rfl, rfl, rfl, rfl⟩

theorem freeRtPacketStorage_aside (s : Stream) : Aside s (freeRtPacketStorage s) :=
  ⟨rfl, rfl, rfl, rfl, rfl, rfl, rfl, rfl, rfl, rfl⟩

theorem allocateRtPackets_aside (s : Stream) (packetCount packetSize : ℕ) (allocated : Bool) :
    Aside s (allocateRtPackets s packetCount packetSize allocated).2 := by
  unfold allocateRtPackets
  dsimp only
  split
  · exact Aside.refl s
  · split
    · exact freeRtPacketStorage_aside s
    · exact ⟨rfl, rfl, rfl, rfl, rfl, rfl, rfl, rfl, rfl, rfl⟩

theorem Aside.trans {s₁ s₂ s₃ : Stream} (first : Aside s₁ s₂) (second : Aside s₂ s₃) :
    Aside s₁ s₃ :=
  ⟨second.present.trans first.present, second.capture.trans first.capture,
    second.prepared.trans first.prepared, second.running.trans first.running,
    second.periods.trans first.periods, second.period.trans first.period,
    second.periodCount.trans first.periodCount, second.queue.trans first.queue,
    second.hasQueue.trans first.hasQueue, second.nextArray.trans first.nextArray⟩

theorem Wired.aside (h : Wired s) (ha : Aside s s') : Wired s' := by
  refine ⟨?_, ?_, ?_, ?_, ?_, ?_⟩
  · rw [ha.present, ha.periods]
    exact h.absent
  · rw [ha.running, ha.prepared]
    exact h.running
  · rw [ha.present, ha.prepared, ha.periods]
    exact h.periods
  · rw [ha.queue, ha.nextArray]
    exact h.numbered
  · rw [ha.periods, ha.nextArray]
    exact h.current
  · rw [ha.queue, ha.periods, ha.periodCount]
    exact h.bounded

theorem Wired.setPeriod (h : Wired s) (i : ℕ) (p : Period) : Wired (s.setPeriod i p) :=
  ⟨h.absent, h.running, h.periods, h.numbered, h.current, h.bounded⟩

theorem Wired.sent (h : Wired s) {i cost : ℕ} {queue : BoundedQueue Chain Answer}
    (hperiods : s.periods ≠ none) (hi : i < s.periodCount)
    (hadd : s.queue.add (s.chain i) cost = some queue) : Wired (s.sent i queue) := by
  obtain ⟨a, ha⟩ := Option.ne_none_iff_exists'.mp hperiods
  have hitems := BoundedQueue.add_items hadd
  refine ⟨h.absent, h.running, h.periods, fun chain hchain => ?_, h.current,
    fun chain hchain hcurrent => ?_⟩
  · rcases List.mem_cons.mp (hitems.mem_iff.mp hchain) with rfl | hold
    · have harray : (s.chain i).array = a := by simp [Stream.chain, ha]
      rw [harray]
      exact h.current a ha
    · exact h.numbered chain hold
  · rcases List.mem_cons.mp (hitems.mem_iff.mp hchain) with rfl | hold
    · exact hi
    · exact h.bounded chain hold hcurrent

theorem Wired.fewer (h : Wired s) {queue : BoundedQueue Chain Answer}
    (hsub : ∀ chain ∈ queue.items, chain ∈ s.queue.items) : Wired { s with
      queue := queue } :=
  ⟨h.absent, h.running, h.periods, fun chain hchain => h.numbered chain (hsub chain hchain),
    h.current, fun chain hchain => h.bounded chain (hsub chain hchain)⟩

theorem get_sub {q q' : BoundedQueue Chain Answer} {chain : Chain} {answer : Answer}
    (hget : q.get = some ((chain, answer), q')) : ∀ other ∈ q'.items, other ∈ q.items :=
  fun _ hother => (BoundedQueue.get_items hget).mem_iff.mpr (List.mem_cons_of_mem _ hother)

theorem freePeriod_spec {i : ℕ} (h : s.freePeriod = some i) :
    i < s.periodCount ∧ (s.period i).inFlight = false := by
  have hmem := List.mem_of_find?_eq_some h
  have hfree := List.find?_some h
  exact ⟨List.mem_range.mp hmem, by simpa using hfree⟩

theorem Effect.wired {k : Kind} (heffect : Effect k s s') (h : Wired s) : Wired s' := by
  cases heffect with
  | tune => exact ⟨h.absent, h.running, h.periods, h.numbered, h.current, h.bounded⟩
  | flags _ prepared running hrunning hprepared =>
      refine ⟨h.absent, hrunning, fun hpresent hset => ?_, h.numbered, h.current, h.bounded⟩
      rcases hprepared with rfl | ⟨-, hperiods⟩
      · exact h.periods hpresent hset
      · exact hperiods
  | unprepare _ hrunning =>
      refine ⟨h.absent, fun hset => ?_, fun _ hset => ?_, h.numbered, h.current, h.bounded⟩
      · rw [hrunning] at hset
        cases hset
      · cases hset
  | accept _ packet _ => exact h.aside (queueRenderPacket_aside s packet)
  | clear => exact h.aside (clearRenderQueue_aside s)
  | submitRender _ packet index i queue _ _ hperiods _ _ _ hfree hadd =>
      have hfilled := (h.aside (copy_aside s index)).setPeriod i { s.period i with
        packetNumber := packet.packet.setWidth 64
        packet := packet }
      exact (hfilled.sent hperiods (freePeriod_spec hfree).1 hadd).aside (popRenderPacket_aside _)
  | fillRender _ packet index i _ _ => exact (h.aside (copy_aside s index)).setPeriod i _
  | fail _ packet _ => exact (h.aside (fail_aside s packet)).aside (popRenderPacket_aside _)
  | submitCapture _ i packetNumber queue _ _ hperiods _ hi _ hadd =>
      exact (h.setPeriod i _).sent hperiods hi hadd
  | fillCapture _ i packetNumber _ => exact h.setPeriod i _
  | takeRender _ chain answer queue hget _ =>
      exact ((h.fewer (get_sub hget)).setPeriod chain.period _).aside (count_aside _ _ _)
  | takeCapture _ chain answer queue hget _ =>
      exact (((h.fewer (get_sub hget)).setPeriod chain.period _).aside
        (copyCapture_aside _ _)).aside (count_aside _ _ _)
  | staleRender _ chain answer queue hget _ =>
      exact (h.fewer (get_sub hget)).aside (stale_aside _)
  | staleCapture _ chain answer queue hget _ =>
      exact ((h.fewer (get_sub hget)).aside (stale_aside _)).aside (copyCapture_aside _ _)
  | deliver _ c =>
      exact h.fewer fun chain => (BoundedQueue.complete_items s.queue _ _).mem_iff.mp
  | newPeriods _ periodBytes hpresent hnone _ =>
      have hbefore : ∀ chain ∈ s.queue.items, chain.array ≠ s.nextArray :=
        fun chain hchain => Nat.ne_of_lt (h.numbered chain hchain)
      refine ⟨fun habsent => ?_, h.running, fun _ _ => ?_, fun chain hchain => ?_, ?_,
        fun chain hchain hcurrent => ?_⟩
      · exact absurd (habsent.symm.trans hpresent) (by decide)
      · exact Option.some_ne_none _
      · exact Nat.lt_succ_of_lt (h.numbered chain hchain)
      · rintro _ ⟨⟩
        exact Nat.lt_succ_self _
      · exact absurd (Option.some.inj hcurrent).symm (hbefore chain hchain)
  | freePeriods _ hprepared =>
      unfold freeStreamPeriods
      split
      · exact h
      · refine ⟨fun _ => rfl, h.running, fun _ hset => ?_, h.numbered, ?_, fun _ _ hcurrent => ?_⟩
        · exact absurd (hprepared.symm.trans hset) (by decide)
        · rintro _ ⟨⟩
        · cases hcurrent
  | allocatePackets _ packetCount packetSize _ _ _ =>
      exact h.aside (allocateRtPackets_aside s packetCount packetSize true)
  | freePackets => exact h.aside (freeRtPacketStorage_aside s)
  | create _ habsent =>
      refine ⟨fun _ => rfl, ?_, ?_, h.numbered, ?_, fun _ _ hcurrent => ?_⟩
      · rintro ⟨⟩
      · rintro _ ⟨⟩
      · rintro _ ⟨⟩
      · cases hcurrent
  | cleanup =>
      unfold evtStreamCleanup freeStreamPeriods
      dsimp only
      split
      · rename_i hnone
        refine ⟨fun _ => hnone, h.running, ?_, h.numbered, h.current, h.bounded⟩
        rintro ⟨⟩
      · refine ⟨fun _ => rfl, h.running, ?_, h.numbered, ?_, fun _ _ hcurrent => ?_⟩
        · rintro ⟨⟩
        · rintro _ ⟨⟩
        · cases hcurrent

theorem Does.wired {K : Finset Kind} (h : Does K s s') (hs : Wired s) : Wired s' :=
  h.invariant (fun _ _ _ _ heffect hw => heffect.wired hw) hs

private theorem allocBytes_eq {packetSize : ℕ} (hsize : packetSize ≠ 0)
    (hpage : packetSize ≤ pageSize) :
    (packetSize + pageSize - 1) / pageSize * pageSize = pageSize := by
  have hone : (packetSize + pageSize - 1) / pageSize = 1 := by
    unfold pageSize at hpage ⊢
    omega
  rw [hone, Nat.one_mul]

theorem allocateRtPackets_eq (s : Stream) {packetCount packetSize : ℕ} (hcount : packetCount ≠ 0)
    (hsize : packetSize ≠ 0) (hpage : packetSize ≤ pageSize) :
    (allocateRtPackets s packetCount packetSize true).2 = { freeRtPacketStorage s with
      packetBuffers := true
      packetCount := packetCount
      packetSize := packetSize
      packetAllocBytes := pageSize
      firstPacketOffset := pageSize - packetSize
      renderReadyQueue := fun _ => ⟨0, 0⟩
      renderReadyCapacity := if s.capture then 0 else packetCount } := by
  unfold allocateRtPackets
  rw [if_neg (by simp [hcount, hsize, hpage])]
  simp only [Bool.true_eq_false, if_false, allocBytes_eq hsize hpage]
  rfl

/-! ## Routines -/

/-- What goes on without the client: completions, and submissions of what is there. -/
def ambient : Finset Kind := {.tune, .render, .fail, .capture, .take, .stale, .deliver}

/-- What goes on besides while a stream is prepared and started. -/
def background : Finset Kind := ambient ∪ {.flags, .newPeriods, .freePeriods}

private theorem Does.inAmbient {k : Kind} (h : Effect k s s') (hk : k ∈ ambient := by decide) :
    Does ambient s s' :=
  Within.single hk h

theorem Does.inBackground {k : Kind} (h : Effect k s s') (hk : k ∈ background := by decide) :
    Does background s s' :=
  Within.single hk h

theorem Does.widen {K L : Finset Kind} (h : Does K s s') (hKL : K ⊆ L := by decide) : Does L s s' :=
  Within.mono hKL h

theorem does_tune (s : Stream) (packetsCompleted nextCapturePacket positionBytes : ULONGLONG)
    (xrunCount : ULONG) (commands : List (PcmCommand × NtStatus)) :
    Does ambient s { s with
      packetsCompleted := packetsCompleted
      nextCapturePacket := nextCapturePacket
      positionBytes := positionBytes
      xrunCount := xrunCount
      log := { s.log with
        commands := commands } } :=
  Does.inAmbient (Effect.tune s packetsCompleted nextCapturePacket positionBytes xrunCount commands)

theorem completeAll_does (completions : List Completion) (s : Stream) :
    Does ambient s (s.completeAll completions) := by
  induction completions generalizing s with
  | nil => exact Within.refl s
  | cons c completions ih =>
      exact (Does.inAmbient (Effect.deliver s c)).trans (ih (s.complete c))

theorem completeAll_eq (completions : List Completion) (s : Stream) :
    ∃ queue, s.completeAll completions = { s with
        queue := queue } ∧
      queue.inFlight.length = s.queue.inFlight.length - completions.length := by
  induction completions generalizing s with
  | nil => exact ⟨s.queue, rfl, rfl⟩
  | cons c completions ih =>
      have hone : (s.complete c).queue.inFlight.length = s.queue.inFlight.length - 1 :=
        BoundedQueue.complete_mod_length s.queue c.chain c.answer
      obtain ⟨queue, hstream, hlength⟩ := ih (s.complete c)
      refine ⟨queue, hstream, hlength.trans ?_⟩
      rw [hone, List.length_cons]
      omega

/-- The ways a submission ends. -/
theorem submitRenderPacket_cases (s : Stream) (packet : Ready) :
    submitRenderPacket s packet = (.deviceNotReady, s) ∨
    submitRenderPacket s packet = (.deviceBusy, s) ∨
    ∃ index i, s.capture = false ∧ s.periods ≠ none ∧ s.hasQueue = true ∧
      getPacketVa s packet.packet = some index ∧ s.freePeriod = some i ∧
      (submitRenderPacket s packet = (.deviceBusy, s.fillRender index i packet) ∨
        ∃ queue, (s.fillRender index i packet).queue.add ((s.fillRender index i packet).chain i)
            renderDescriptors = some queue ∧
          submitRenderPacket s packet =
            (.success, (s.fillRender index i packet).sent i queue)) := by
  unfold submitRenderPacket
  split
  · exact Or.inl rfl
  rename_i hready
  cases hindex : getPacketVa s packet.packet with
  | none => exact Or.inl rfl
  | some index =>
      cases hfree : s.freePeriod with
      | none => exact Or.inr (Or.inl rfl)
      | some i =>
          simp only [not_or, Bool.not_eq_true, Bool.not_eq_false] at hready
          refine Or.inr (Or.inr ⟨index, i, hready.1, hready.2.1, hready.2.2.2.2, rfl, rfl, ?_⟩)
          dsimp only
          unfold addPeriod
          cases hadd : (s.fillRender index i packet).queue.add
              ((s.fillRender index i packet).chain i) renderDescriptors with
          | none => exact Or.inl rfl
          | some queue => exact Or.inr ⟨queue, rfl, rfl⟩

private theorem pumpPackets_does (n : ℕ) (s : Stream) (hprepared : s.prepared = true) :
    Does ambient s (pumpPackets n s) := by
  induction n generalizing s with
  | zero => exact Within.refl s
  | succ n ih =>
      unfold pumpPackets
      cases hpeek : peekRenderPacket s with
      | none => exact Within.refl s
      | some packet =>
          dsimp only
          rcases submitRenderPacket_cases s packet with hsubmit | hsubmit |
            ⟨index, i, hcapture, hperiods, hqueue, hindex, hfree, hsubmit | ⟨queue, hadd, hsubmit⟩⟩
          · rw [hsubmit]
            exact Does.inAmbient (Effect.fail s packet hpeek)
          · rw [hsubmit]
            exact Within.refl s
          · rw [hsubmit]
            exact Does.inAmbient (Effect.fillRender s packet index i hindex hfree)
          · rw [hsubmit]
            have hstep := Effect.submitRender s packet index i queue hcapture hprepared hperiods
              hqueue hpeek hindex hfree hadd
            refine (Does.inAmbient hstep).trans (ih _ ?_)
            rw [(popRenderPacket_aside _).prepared]
            exact hprepared

theorem pumpRenderQueue_does (s : Stream) : Does ambient s (pumpRenderQueue s) := by
  unfold pumpRenderQueue
  split
  · exact Within.refl s
  · rename_i hready
    simp only [not_or, Bool.not_eq_true, Bool.not_eq_false] at hready
    exact pumpPackets_does _ s hready.2

theorem submitCapturePeriod_cases (s : Stream) (i : ℕ) (packetNumber : ULONGLONG) :
    submitCapturePeriod s i packetNumber = (.deviceNotReady, s) ∨
    submitCapturePeriod s i packetNumber = (.deviceBusy, s) ∨
    s.capture = true ∧ s.hasQueue = true ∧ (s.period i).inFlight = false ∧
      (submitCapturePeriod s i packetNumber = (.deviceBusy, s.fillCapture i packetNumber) ∨
        ∃ queue, (s.fillCapture i packetNumber).queue.add ((s.fillCapture i packetNumber).chain i)
            captureDescriptors = some queue ∧
          submitCapturePeriod s i packetNumber =
            (.success, (s.fillCapture i packetNumber).sent i queue)) := by
  unfold submitCapturePeriod
  split
  · exact Or.inl rfl
  rename_i hready
  split
  · exact Or.inr (Or.inl rfl)
  rename_i hfree
  simp only [not_or, Bool.not_eq_true, Bool.not_eq_false] at hready hfree
  refine Or.inr (Or.inr ⟨hready.1, hready.2, hfree, ?_⟩)
  unfold addPeriod
  cases hadd : (s.fillCapture i packetNumber).queue.add ((s.fillCapture i packetNumber).chain i)
      captureDescriptors with
  | none => exact Or.inl rfl
  | some queue => exact Or.inr ⟨queue, rfl, rfl⟩

theorem submitCapturePeriod_does (s : Stream) (i : ℕ) (packetNumber : ULONGLONG)
    (hprepared : s.prepared = true) (hperiods : s.periods ≠ none) (hi : i < s.periodCount) :
    Does ambient s (submitCapturePeriod s i packetNumber).2 := by
  rcases submitCapturePeriod_cases s i packetNumber with hsubmit | hsubmit |
    ⟨hcapture, hqueue, hfree, hsubmit | ⟨queue, hadd, hsubmit⟩⟩
  · rw [hsubmit]
    exact Within.refl s
  · rw [hsubmit]
    exact Within.refl s
  · rw [hsubmit]
    exact Does.inAmbient (Effect.fillCapture s i packetNumber hfree)
  · rw [hsubmit]
    exact Does.inAmbient (Effect.submitCapture s i packetNumber queue hcapture hprepared hperiods
      hqueue hi hfree hadd)

theorem does_nextCapturePacket (s : Stream) (nextCapturePacket : ULONGLONG) :
    Does ambient s { s with
      nextCapturePacket := nextCapturePacket } :=
  does_tune s s.packetsCompleted nextCapturePacket s.positionBytes s.xrunCount s.log.commands

private theorem does_xrunCount (s : Stream) (xrunCount : ULONG) : Does ambient s { s with
    xrunCount := xrunCount } :=
  does_tune s s.packetsCompleted s.nextCapturePacket s.positionBytes xrunCount s.log.commands

theorem does_command (s : Stream) (c : PcmCommand) (answer : NtStatus) :
    Does ambient s (s.command c answer) :=
  does_tune s s.packetsCompleted s.nextCapturePacket s.positionBytes s.xrunCount
    (s.log.commands ++ [(c, answer)])

private theorem resubmitCapture_does (h : Wired s) (hperiods : s.periods ≠ none) {i : ℕ}
    (hi : i < s.periodCount) : Does ambient s (resubmitCapture s i) := by
  unfold resubmitCapture
  split
  · rename_i hrunning
    have hsubmit :=
      submitCapturePeriod_does s i s.nextCapturePacket (h.running hrunning) hperiods hi
    cases hresult : submitCapturePeriod s i s.nextCapturePacket with
    | mk status s' =>
        rw [hresult] at hsubmit
        split
        · rename_i heq
          obtain ⟨-, rfl⟩ := Prod.mk.inj heq
          exact hsubmit.trans (does_nextCapturePacket _ _)
        · rename_i heq
          obtain ⟨-, rfl⟩ := Prod.mk.inj heq
          exact hsubmit
        · rename_i heq
          obtain ⟨-, rfl⟩ := Prod.mk.inj heq
          exact hsubmit.trans (does_xrunCount _ _)
  · exact Within.refl s

section

variable {chain : Chain} {answer : Answer} {queue : BoundedQueue Chain Answer}
  (hget : s.queue.get = some ((chain, answer), queue))
include hget

private theorem completeRender_does : Does ambient s (completeRender { s with
    queue := queue } chain answer) := by
  unfold completeRender
  split
  · rename_i hperiods
    exact Does.inAmbient (Effect.staleRender s chain answer queue hget hperiods)
  · rename_i hperiods
    exact Does.inAmbient (Effect.takeRender s chain answer queue hget (not_not.mp hperiods))

theorem completeCapture_does (h : Wired s) : Does ambient s (completeCapture { s with
    queue := queue } chain answer) := by
  unfold completeCapture
  split
  · rename_i hperiods
    exact Does.inAmbient (Effect.staleCapture s chain answer queue hget hperiods)
  · rename_i hperiods
    have hlive : s.periods = some chain.array := not_not.mp hperiods
    have htake := Effect.takeCapture s chain answer queue hget hlive
    have hmem : chain ∈ s.queue.items :=
      (BoundedQueue.get_items hget).mem_iff.mpr List.mem_cons_self
    refine (Does.inAmbient htake).trans (resubmitCapture_does (htake.wired h) ?_ ?_)
    · rw [(count_aside _ _ _).periods, (copyCapture_aside _ _).periods]
      exact fun hnone => Option.some_ne_none _ (hlive.symm.trans hnone)
    · rw [(count_aside _ _ _).periodCount, (copyCapture_aside _ _).periodCount]
      exact h.bounded chain hmem hlive

end

private theorem drainUsed_does {pass : Stream → Chain → Answer → Stream}
    (hpass : ∀ (s : Stream) (chain : Chain) (answer : Answer) (queue : BoundedQueue Chain Answer),
      Wired s → s.queue.get = some ((chain, answer), queue) →
      Does ambient s (pass { s with
        queue := queue } chain answer)) (n : ℕ) (h : Wired s) :
    Does ambient s (drainUsed pass n s) := by
  induction n generalizing s with
  | zero => exact Within.refl s
  | succ n ih =>
      unfold drainUsed
      cases hget : s.queue.get with
      | none => exact Within.refl s
      | some got =>
          obtain ⟨⟨chain, answer⟩, queue⟩ := got
          have hstep := hpass s chain answer queue h hget
          exact hstep.trans (ih (hstep.wired h))

theorem drainStreamQueue_does (h : Wired s) : Does ambient s (drainStreamQueue s) := by
  unfold drainStreamQueue
  split
  · exact Within.refl s
  split
  · exact drainUsed_does (fun s chain answer queue hs hget => completeCapture_does hget hs) _ h
  · exact (drainUsed_does (fun s chain answer queue _ hget => completeRender_does hget) _ h).trans
      (pumpRenderQueue_does _)

theorem waitForStreamIdle_does (n : ℕ) (sleeps : List (List Completion)) (h : Wired s) :
    Does ambient s (waitForStreamIdle n sleeps s) := by
  induction n generalizing sleeps s with
  | zero =>
      unfold waitForStreamIdle
      have hdrain := drainStreamQueue_does h
      dsimp only
      split
      · exact hdrain
      · exact hdrain.trans (does_xrunCount _ _)
  | succ n ih =>
      unfold waitForStreamIdle
      have hdrain := drainStreamQueue_does h
      dsimp only
      split
      · exact hdrain
      · have hsleep : Does ambient s ((drainStreamQueue s).completeAll (sleeps.headD [])) :=
          hdrain.trans (completeAll_does (sleeps.headD []) (drainStreamQueue s))
        exact hsleep.trans (ih sleeps.tail (hsleep.wired h))

/-- Whether there is a stream, its direction and its queue. -/
structure SameStream (s s' : Stream) : Prop where
  present : s'.present = s.present
  capture : s'.capture = s.capture
  hasQueue : s'.hasQueue = s.hasQueue

theorem Aside.sameStream (h : Aside s s') : SameStream s s' := ⟨h.present, h.capture, h.hasQueue⟩

theorem Effect.sameStream {k : Kind} (heffect : Effect k s s') (hcreate : k ≠ .create)
    (hcleanup : k ≠ .cleanup) : SameStream s s' := by
  cases heffect with
  | accept _ packet _ => exact (queueRenderPacket_aside s packet).sameStream
  | clear => exact (clearRenderQueue_aside s).sameStream
  | submitRender _ packet index i queue =>
      have hpop := popRenderPacket_aside ((s.fillRender index i packet).sent i queue)
      exact ⟨hpop.present, hpop.capture, hpop.hasQueue⟩
  | fail _ packet _ => exact ((fail_aside s packet).trans (popRenderPacket_aside _)).sameStream
  | takeCapture _ chain answer queue _ _ =>
      have hcopy := copyCapture_aside ({ s with
        queue := queue }.release chain.period) (s.period chain.period).packetNumber
      exact ⟨hcopy.present, hcopy.capture, hcopy.hasQueue⟩
  | staleCapture _ chain answer queue _ _ =>
      have hcopy := copyCapture_aside { s with
        queue := queue }.stale chain.packetNumber
      exact ⟨hcopy.present, hcopy.capture, hcopy.hasQueue⟩
  | freePeriods _ _ =>
      unfold freeStreamPeriods
      split
      · exact ⟨rfl, rfl, rfl⟩
      · exact ⟨rfl, rfl, rfl⟩
  | allocatePackets _ packetCount packetSize _ _ _ =>
      exact (allocateRtPackets_aside s packetCount packetSize true).sameStream
  | create _ _ => exact absurd rfl hcreate
  | cleanup => exact absurd rfl hcleanup
  | _ => exact ⟨rfl, rfl, rfl⟩

theorem Does.sameStream {K : Finset Kind} (h : Does K s s') (hcreate : .create ∉ K)
    (hcleanup : .cleanup ∉ K) : SameStream s s' := by
  have hall : ∀ k ∈ K, ∀ a b, Effect k a b → SameStream s a → SameStream s b := by
    intro k hk a b heffect ha
    have hb := heffect.sameStream (fun heq => hcreate (heq ▸ hk)) (fun heq => hcleanup (heq ▸ hk))
    exact ⟨hb.present.trans ha.present, hb.capture.trans ha.capture,
      hb.hasQueue.trans ha.hasQueue⟩
  exact h.invariant hall ⟨rfl, rfl, rfl⟩

end Viosnd.Circuit
