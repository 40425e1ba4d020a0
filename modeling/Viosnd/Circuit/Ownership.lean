import Viosnd.Circuit.Lending

/-!
# Periods are freed after their chains are back

A release waits for the chains on the virtqueue, for a second at most, and frees the periods in any
case. A cleanup frees them at once. No callback comes while the interrupt drains the queues.
-/

namespace Viosnd.Circuit

open StepRun EffectSystem

open Acx (Ready)

/-- No array is freed while a chain of it is on the virtqueue, and no buffer came back for a freed
one. -/
def PeriodsOwned (w : World) : Prop :=
  ∀ c, (∀ chain ∈ (w.streams c).queue.items, (w.streams c).periods = some chain.array) ∧
    (w.streams c).log.staleTokens = 0

/-- The device completes every chain of a stream before its cleanup, and during its release. -/
def Settled (w : World) : Input → Prop
  | .cleanup c => (w.streams c).present = true → (w.streams c).queue.items = []
  | .releaseHardware c i => (w.streams c).present = true → (w.streams c).prepared = true →
      (w.streams c).queue.inFlight.length ≤
        i.meanwhile.length + ((i.sleeps.take releaseTimeoutMs).map List.length).sum + i.last.length
  | _ => True

/-! ## A stream that is stopped -/

structure Quiet (s : Stream) : Prop where
  present : s.present = true
  running : s.running = false
  ready : s.capture = true ∨ s.renderReadyCount = 0

variable {s : Stream}

theorem Quiet.complete (h : Quiet s) (completions : List Completion) :
    Quiet (s.completeAll completions) ∧
      (s.completeAll completions).queue.inFlight.length =
        s.queue.inFlight.length - completions.length := by
  obtain ⟨queue, hstream, hlength⟩ := completeAll_eq completions s
  rw [hstream]
  exact ⟨⟨h.present, h.running, h.ready⟩, hlength⟩

private theorem completeRender_quiet (h : Quiet s) (chain : Chain) (answer : Answer) :
    (completeRender s chain answer).queue = s.queue ∧ Quiet (completeRender s chain answer) := by
  unfold completeRender
  split
  · exact ⟨rfl, h.present, h.running, h.ready⟩
  · exact ⟨rfl, h.present, h.running, h.ready⟩

private theorem copyCapture_quiet (h : Quiet s) (packetNumber : ULONGLONG) :
    (copyCapture s packetNumber).queue = s.queue ∧ Quiet (copyCapture s packetNumber) := by
  unfold copyCapture
  split
  · exact ⟨rfl, h⟩
  · exact ⟨rfl, h.present, h.running, h.ready⟩

private theorem completeCapture_quiet (h : Quiet s) (chain : Chain) (answer : Answer) :
    (completeCapture s chain answer).queue = s.queue ∧ Quiet (completeCapture s chain answer) := by
  unfold completeCapture
  split
  · exact copyCapture_quiet (s := s.stale) ⟨h.present, h.running, h.ready⟩ chain.packetNumber
  · have hreleased : Quiet (s.release chain.period) := ⟨h.present, h.running, h.ready⟩
    obtain ⟨hqueue, hcopied⟩ :=
      copyCapture_quiet hreleased (s.period chain.period).packetNumber
    dsimp only
    unfold resubmitCapture
    rw [if_neg (by simp [Stream.count, hcopied.running])]
    exact ⟨hqueue, hcopied.present, hcopied.running, hcopied.ready⟩

private theorem completed_eq_nil {q : BoundedQueue Chain Answer} (h : q.completed = []) :
    { q with
      completed := [] } = q := by
  rw [← h]

private theorem drainUsed_quiet {pass : Stream → Chain → Answer → Stream}
    (hpass : ∀ s, Quiet s → ∀ chain answer,
      (pass s chain answer).queue = s.queue ∧ Quiet (pass s chain answer))
    (used : List ((Chain × ℕ) × Answer)) (h : Quiet s) (hused : s.queue.completed = used) :
    (drainUsed pass used.length s).queue = { s.queue with
      completed := [] } ∧ Quiet (drainUsed pass used.length s) := by
  induction used generalizing s with
  | nil =>
      exact ⟨(completed_eq_nil hused).symm, h⟩
  | cons entry used ih =>
      obtain ⟨⟨chain, cost⟩, answer⟩ := entry
      have hget : s.queue.get = some ((chain, answer), { s.queue with
          completed := used }) := by
        unfold BoundedQueue.get
        rw [hused]
      obtain ⟨hqueue, hquiet⟩ := hpass { s with
        queue := { s.queue with
          completed := used } } ⟨h.present, h.running, h.ready⟩ chain answer
      rw [List.length_cons]
      unfold drainUsed
      rw [hget]
      dsimp only
      obtain ⟨hrest, hrest'⟩ := ih hquiet (congrArg BoundedQueue.completed hqueue)
      refine ⟨hrest.trans ?_, hrest'⟩
      rw [hqueue]

private theorem pumpRenderQueue_quiet (h : Quiet s) : pumpRenderQueue s = s := by
  unfold pumpRenderQueue
  rcases h.ready with hcapture | hempty
  · exact if_pos (Or.inl hcapture)
  · rw [hempty]
    exact ite_self s

private theorem drainStreamQueue_quiet (hlending : Lending s) (h : Quiet s) :
    (drainStreamQueue s).queue = { s.queue with
      completed := [] } ∧ Quiet (drainStreamQueue s) := by
  unfold drainStreamQueue
  split
  · rename_i hnone
    have hqueue := hnone.resolve_left (by simp [h.present])
    have hitems := hlending.connected hqueue
    have hcompleted : s.queue.completed = [] :=
      List.map_eq_nil_iff.mp (List.append_eq_nil_iff.mp hitems).2
    exact ⟨(completed_eq_nil hcompleted).symm, h⟩
  · split
    · exact drainUsed_quiet (fun _ hs => completeCapture_quiet hs) _ h rfl
    · obtain ⟨hqueue, hquiet⟩ := drainUsed_quiet (fun _ hs => completeRender_quiet hs) _ h rfl
      rw [pumpRenderQueue_quiet hquiet]
      exact ⟨hqueue, hquiet⟩

private theorem streamHasInFlight_eq_false (h : Lending s) :
    streamHasInFlight s = false ↔ s.queue.items = [] := by
  constructor
  · intro hidle
    apply List.eq_nil_iff_forall_not_mem.mpr
    intro chain hchain
    obtain ⟨hlt, hflight⟩ := h.matched.mem hchain
    have hany : ((List.range s.periodCount).any fun i => (s.period i).inFlight) = true :=
      List.any_eq_true.mpr ⟨chain.period, List.mem_range.mpr hlt, hflight⟩
    unfold streamHasInFlight at hidle
    rw [h.current chain hchain, hany] at hidle
    cases hidle
  · intro hitems
    have hany : ((List.range s.periodCount).any fun i => (s.period i).inFlight) = false := by
      apply List.any_eq_false.mpr
      intro i hi hflight
      exact h.not_out hitems i ⟨List.mem_range.mp hi, hflight⟩
    unfold streamHasInFlight
    rw [hany, Bool.and_false]

private theorem items_eq_nil {q : BoundedQueue Chain Answer} (h : q.completed = []) :
    q.items = [] ↔ q.inFlight.length = 0 := by
  unfold BoundedQueue.items
  rw [h, List.map_nil, List.append_nil, List.map_eq_nil_iff, List.length_eq_zero_iff]

theorem drainStreamQueue_lending (h : Lending s) : Lending (drainStreamQueue s) :=
  (drainStreamQueue_does h.wired).lending (by decide) (by decide) h

theorem completeAll_lending (h : Lending s) (completions : List Completion) :
    Lending (s.completeAll completions) :=
  (completeAll_does completions s).lending (by decide) (by decide) h

/-- What the device completes in the time of the wait is back after it. -/
private theorem waitForStreamIdle_quiet (n : ℕ) (sleeps : List (List Completion))
    (hlending : Lending s) (h : Quiet s) :
    Quiet (waitForStreamIdle n sleeps s) ∧ (waitForStreamIdle n sleeps s).queue.completed = [] ∧
      (waitForStreamIdle n sleeps s).queue.inFlight.length =
        s.queue.inFlight.length - ((sleeps.take n).map List.length).sum := by
  induction n generalizing sleeps s with
  | zero =>
      obtain ⟨hqueue, hquiet⟩ := drainStreamQueue_quiet hlending h
      unfold waitForStreamIdle
      dsimp only
      split
      · exact ⟨hquiet, by rw [hqueue], by rw [hqueue]; rfl⟩
      · exact ⟨⟨hquiet.present, hquiet.running, hquiet.ready⟩, by rw [hqueue], by rw [hqueue]; rfl⟩
  | succ n ih =>
      obtain ⟨hqueue, hquiet⟩ := drainStreamQueue_quiet hlending h
      have hdrained := drainStreamQueue_lending hlending
      unfold waitForStreamIdle
      dsimp only
      split
      · rename_i hidle
        have hitems := (streamHasInFlight_eq_false hdrained).mp hidle
        have hnone := (items_eq_nil (by rw [hqueue])).mp hitems
        refine ⟨hquiet, by rw [hqueue], ?_⟩
        rw [hqueue] at hnone ⊢
        dsimp only at hnone ⊢
        omega
      · obtain ⟨hslept, hlength⟩ := hquiet.complete (sleeps.headD [])
        obtain ⟨hend, hcompleted, htotal⟩ :=
          ih sleeps.tail (completeAll_lending hdrained (sleeps.headD [])) hslept
        refine ⟨hend, hcompleted, ?_⟩
        rw [htotal, hlength, hqueue]
        cases sleeps with
        | nil => simp
        | cons first sleeps =>
            simp only [List.headD_cons, List.tail_cons, List.take_succ_cons, List.map_cons,
              List.sum_cons]
            omega

private theorem clearRenderQueue_ready (s : Stream) :
    (clearRenderQueue s).capture = true ∨ (clearRenderQueue s).renderReadyCount = 0 := by
  unfold clearRenderQueue
  split
  · rename_i hcapture
    exact Or.inl hcapture
  · exact Or.inr rfl

private theorem halted_quiet (hpresent : s.present = true) (release : Bool) (i : StopInput) :
    Quiet (s.halted release i) ∧
      (s.halted release i).queue.inFlight.length =
        s.queue.inFlight.length - i.meanwhile.length := by
  obtain ⟨queue, hstream, hlength⟩ := completeAll_eq i.meanwhile ({ s with
    running := false }.command .stop i.stop)
  have haside := clearRenderQueue_aside { ({ s with
      running := false }.command .stop i.stop) with
    queue := queue }
  have hready := clearRenderQueue_ready { ({ s with
      running := false }.command .stop i.stop) with
    queue := queue }
  have hflight := congrArg (fun q => q.inFlight.length) haside.queue
  unfold Stream.halted
  dsimp only
  rw [hstream]
  split
  · exact ⟨⟨haside.present.trans hpresent, haside.running, hready⟩, hflight.trans hlength⟩
  · exact ⟨⟨haside.present.trans hpresent, haside.running, hready⟩, hflight.trans hlength⟩

/-- What is left in flight when a stream was stopped for its release. -/
def leftInFlight (s : Stream) (i : StopInput) : ℕ :=
  s.queue.inFlight.length -
    (i.meanwhile.length + ((i.sleeps.take releaseTimeoutMs).map List.length).sum + i.last.length)

theorem notRunning_lending (h : Lending s) : Lending { s with
    running := false } :=
  (Effect.flags s s.prepared false (by simp) (Or.inl rfl)).lending (by rintro (h | h) <;> cases h) h

/-- A release of a prepared stream, before the periods are freed. -/
private theorem releaseStream_left (h : Lending s) (hpresent : s.present = true)
    (hprepared : s.prepared = true) (i : StopInput) :
    Lending (drainStreamQueue ((stopStream true i s).completeAll i.last)) ∧
      ((drainStreamQueue ((stopStream true i s).completeAll i.last)).queue.items = [] ↔
        leftInFlight s i = 0) := by
  obtain ⟨hhalted, hlength⟩ := halted_quiet hpresent true i
  have hlending : Lending (s.halted true i) :=
    (halted_does s true i).lending (by decide) (by decide) (notRunning_lending h)
  obtain ⟨hwaited, hcompleted, htotal⟩ :=
    waitForStreamIdle_quiet releaseTimeoutMs i.sleeps hlending hhalted
  have hidle : Lending (waitForStreamIdle releaseTimeoutMs i.sleeps (s.halted true i)) :=
    (waitForStreamIdle_does _ _ hlending.wired).lending (by decide) (by decide) hlending
  have hstopped : Lending (stopStream true i s) := by
    rw [stopStream_eq s true i hpresent hprepared]
    exact (Effect.unprepare _ hwaited.running).lending (by rintro (h | h) <;> cases h) hidle
  have hquiet : Quiet (stopStream true i s) ∧ (stopStream true i s).queue =
      (waitForStreamIdle releaseTimeoutMs i.sleeps (s.halted true i)).queue := by
    rw [stopStream_eq s true i hpresent hprepared]
    exact ⟨⟨hwaited.present, hwaited.running, hwaited.ready⟩, rfl⟩
  obtain ⟨hlast, hrest⟩ := hquiet.1.complete i.last
  have hdelivered := completeAll_lending hstopped i.last
  obtain ⟨hqueue, -⟩ := drainStreamQueue_quiet hdelivered hlast
  refine ⟨drainStreamQueue_lending hdelivered, ?_⟩
  rw [items_eq_nil (by rw [hqueue]), hqueue]
  dsimp only
  rw [hrest, hquiet.2, htotal, hlength]
  unfold leftInFlight
  omega

/-! ## Runs -/

def AllLent (w : World) : Prop := ∀ c, Lent (w.streams c)

theorem AllLent.wired {w : World} (h : AllLent w) : AllWired w := fun c => (h c).wired

theorem AllLent.owned {w : World} (h : AllLent w) : PeriodsOwned w :=
  fun c => ⟨(h c).current, (h c).noStale⟩

private theorem not_mem_kinds (i : Input) (c : Bool) (hcleanup : i ≠ .cleanup c)
    (hrelease : ∀ stop, i ≠ .releaseHardware c stop) :
    .unprepare ∉ i.kinds c ∧ .cleanup ∉ i.kinds c := by
  cases i with
  | cleanup capture =>
      have hc : c ≠ capture := fun heq => hcleanup (heq ▸ rfl)
      simp [Input.kinds, hc]
  | releaseHardware capture stop =>
      have hc : c ≠ capture := fun heq => hrelease stop (heq ▸ rfl)
      simp only [Input.kinds, if_neg hc]
      decide
  | prepareHardware | run | complete | interrupt =>
      exact ⟨(by decide : Kind.unprepare ∉ background), (by decide : Kind.cleanup ∉ background)⟩
  | _ =>
      dsimp only [Input.kinds]
      split_ifs <;> decide

theorem release_step {w : World} (c : Bool) (i : StopInput) (h : (w.streams c).present = true) :
    (w.step (.releaseHardware c i)).streams c =
      freeStreamPeriods (drainStreamQueue
        ((stopStream true i (w.streams c)).completeAll i.last)) := by
  dsimp only [World.step]
  rw [if_pos h]
  unfold evtStreamReleaseHardware
  rw [on_self, drainQueues_streams, on_self]

theorem cleanup_step {w : World} (c : Bool) (h : (w.streams c).present = true) :
    (w.step (.cleanup c)).streams c = evtStreamCleanup (w.streams c) := by
  dsimp only [World.step]
  unfold World.callback
  rw [if_pos h, on_self]

theorem released_unprepared (hwired : Wired s) (hpresent : s.present = true) (i : StopInput) :
    (drainStreamQueue ((stopStream true i s).completeAll i.last)).prepared = false := by
  have hdrained := drained_does ((releaseStream_does hwired i).wired hwired) i.last
  exact (Does.widen hdrained).sameFlags.prepared.trans (releaseStream_unprepared s i hpresent)

theorem Lent.release (h : Lent s) (hpresent : s.present = true) (i : StopInput)
    (hsettled : s.prepared = true → leftInFlight s i = 0) :
    Lent (freeStreamPeriods (drainStreamQueue ((stopStream true i s).completeAll i.last))) := by
  have hunprepared := released_unprepared h.wired hpresent i
  cases hprepared : s.prepared with
  | true =>
      obtain ⟨hlending, hleft⟩ := releaseStream_left h.toLending hpresent hprepared i
      have hempty := hleft.mpr (hsettled hprepared)
      refine ⟨hlending.freeStreamPeriods hunprepared hempty, fun _ => ?_⟩
      rw [(freeStreamPeriods_keeps _).2]
      exact hempty
  | false =>
      have hstopped : Lent (stopStream true i s) := by
        rw [stopStream_of_unprepared s true i hpresent hprepared]
        exact (does_not_running s).lent (by decide) (by decide) h
      have hdrained := (drained_does hstopped.wired i.last).lent (by decide) (by decide) hstopped
      exact (Effect.freePeriods _ hunprepared).lent (by decide) (by decide) hdrained

theorem absent_step {w : World} {c : Bool} (habsent : ¬ (w.streams c).present = true) :
    w.step (.cleanup c) = w ∧ ∀ stop, w.step (.releaseHardware c stop) = w := by
  constructor
  · dsimp only [World.step]
    unfold World.callback
    exact if_neg habsent
  · intro stop
    exact if_neg habsent

theorem AllLent.step {w : World} (h : AllLent w) (i : Input) (hsettled : Settled w i) :
    AllLent (w.step i) := by
  intro c
  by_cases hcleanup : i = .cleanup c
  · subst hcleanup
    by_cases hpresent : (w.streams c).present = true
    · rw [cleanup_step c hpresent]
      have hempty := hsettled hpresent
      refine ⟨(h c).toLending.cleanup hempty, fun _ => ?_⟩
      exact (congrArg BoundedQueue.items (freeStreamPeriods_keeps (w.streams c)).2).trans hempty
    · rw [(absent_step hpresent).1]
      exact h c
  by_cases hrelease : ∃ stop, i = .releaseHardware c stop
  · obtain ⟨stop, rfl⟩ := hrelease
    by_cases hpresent : (w.streams c).present = true
    · rw [release_step c stop hpresent]
      exact (h c).release hpresent stop fun hprepared =>
        Nat.sub_eq_zero_of_le (hsettled hpresent hprepared)
    · rw [(absent_step hpresent).2 stop]
      exact h c
  · obtain ⟨hunprepare, hclean⟩ := not_mem_kinds i c hcleanup fun stop heq => hrelease ⟨stop, heq⟩
    exact (step_does h.wired i c).lent hunprepare hclean (h c)

private theorem freeStreamPeriods_periods (s : Stream) : (freeStreamPeriods s).periods = none := by
  unfold freeStreamPeriods
  split
  · assumption
  · rfl

/-- Periods freed with a chain on the virtqueue. -/
private theorem not_owned {w : World} {c : Bool} (hnone : (w.streams c).periods = none)
    (hitems : (w.streams c).queue.items ≠ []) : ¬ PeriodsOwned w := by
  intro howned
  obtain ⟨chain, hchain⟩ := List.exists_mem_of_ne_nil _ hitems
  exact Option.some_ne_none _ (((howned c).1 chain hchain).symm.trans hnone)

private theorem AllLent.unsettled {w : World} (h : AllLent w) (i : Input) (hnot : ¬ Settled w i) :
    ¬ PeriodsOwned (w.step i) := by
  cases i with
  | cleanup c =>
      obtain ⟨hpresent, hitems⟩ := Classical.not_imp.mp hnot
      have hqueue := (freeStreamPeriods_keeps (w.streams c)).2
      apply not_owned (c := c)
      · rw [cleanup_step c hpresent]
        exact freeStreamPeriods_periods _
      · rw [cleanup_step c hpresent]
        exact fun hempty => hitems ((congrArg BoundedQueue.items hqueue).symm.trans hempty)
  | releaseHardware c stop =>
      obtain ⟨hpresent, hrest⟩ := Classical.not_imp.mp hnot
      obtain ⟨hprepared, hshort⟩ := Classical.not_imp.mp hrest
      obtain ⟨-, hleft⟩ := releaseStream_left (h c).toLending hpresent hprepared stop
      have hsome : leftInFlight (w.streams c) stop ≠ 0 := by
        unfold leftInFlight
        omega
      apply not_owned (c := c)
      · rw [release_step c stop hpresent]
        exact freeStreamPeriods_periods _
      · rw [release_step c stop hpresent, (freeStreamPeriods_keeps _).2]
        exact fun hempty => hsome (hleft.mp hempty)
  | _ => exact absurd trivial hnot

/-- Periods are freed with a chain on the virtqueue exactly in the runs where the device leaves a
chain at a cleanup or through a release. -/
theorem run_periodsOwned_iff (hasQueue : Bool → Bool) (queueSize : Bool → ℕ) (inputs : List Input) :
    (∀ first, first <+: inputs →
      PeriodsOwned (run World.step (World.fresh hasQueue queueSize) first)) ↔
    Guarded World.step Settled (World.fresh hasQueue queueSize) inputs := by
  have hfresh : AllLent (World.fresh hasQueue queueSize) :=
    fun c => Lent.fresh c (hasQueue c) (queueSize c)
  have hstep : ∀ w i, AllLent w → Settled w i → AllLent (w.step i) := fun _ i h => h.step i
  exact forall_prefix_iff_guarded (fun _ h => h.owned) hstep (fun _ i h => h.unsettled i) hfresh
    inputs

/-- A capture stream with periods of 1000 bytes that runs. -/
def captureRuns : List Input :=
  [.create true, .allocateRtPackets true 1 1000 true,
    .prepareHardware true ⟨.all, .success, .success⟩,
    .run true ⟨⟨.all, .success, .success⟩, .success, []⟩]

/-- The device answers the commands of the release, and completes no chain for a second. -/
theorem run_periodsOwned_neverCompleted :
    ¬ PeriodsOwned (run World.step (World.fresh (fun _ => true) (fun _ => 64))
      (captureRuns ++ [.releaseHardware true ⟨.success, .success, [], [], []⟩])) := by
  have hguarded : Guarded World.step Settled (World.fresh (fun _ => true) (fun _ => 64))
      captureRuns := ⟨trivial, trivial, trivial, trivial, trivial⟩
  have hlent : AllLent (run World.step (World.fresh (fun _ => true) (fun _ => 64)) captureRuns) :=
    hguarded.invariant (fun _ i h hsettled => AllLent.step h i hsettled)
      fun c => Lent.fresh c true 64
  rw [run_concat]
  refine hlent.unsettled _ fun hsettled => ?_
  have hleft := hsettled (by decide) (by decide)
  exact absurd hleft (by decide)

end Viosnd.Circuit
