import Viosnd.Render.Effects

/-!
# RUN and the device's idea of RUN

While `m_State` is RUN the device should have accepted START last. The two disagree after a
fallback switch that gave up on the way, after a stop that timed out but told the device, and when
the device accepts a command late that had timed out.
-/

namespace Viosnd.Render

open StepRun EffectSystem

def Event.acceptedCommand : Event → Option PcmCommand
  | .command c true => some c
  | _ => none

def lastAccepted (history : List Event) : Option PcmCommand :=
  history.findSome? Event.acceptedCommand

private theorem lastAccepted_cons_of_none (e : Event) (history : List Event)
    (he : e.acceptedCommand = none) : lastAccepted (e :: history) = lastAccepted history := by
  unfold lastAccepted
  rw [List.findSome?_cons, he]

private theorem lastAccepted_command (c : PcmCommand) (answer : NtStatus) (w : World)
    (hanswer : answer = .success) :
    lastAccepted (viosndPcmCommand c answer w).2.history = some c := by
  subst hanswer
  rfl

def Started (w : World) : Prop := w.state = .run → lastAccepted w.history = some .start

/-- A switch that begins leaves the device started: all its requests are granted, or neither STOP
nor RELEASE is. -/
def SwitchSettles (i : SwitchInput) (w : World) : Prop :=
  (i.stop = .success ∧ i.release = .success ∧
    (prepareFallback i (haltForFallback i w)).1 = .success ∧ i.start = .success) ∨
  (i.stop ≠ .success ∧ i.release ≠ .success)

/-- A stop ends in time, or the device rejects both its commands. -/
def StopSettles (i : SetStateInput) (w : World) : Prop :=
  i.exited = true ∨ i.exitedLate = true ∨ w.workerStarted = false ∨ w.threadObject = false ∨
    (i.stop ≠ .success ∧ i.release ≠ .success)

def LifecycleGuard (w : World) : Action → Prop
  | .setState target i => target ≠ .run → w.state = .run → StopSettles i w
  | .worker (.maybeSwitch qpc i) => SwitchDue qpc w → SwitchSettles i (w.note (.counter qpc))
  | _ => True

private theorem Effect.lastAccepted_eq {k : Kind} {w w' : World} (h : Effect k w w')
    (hk : k ≠ .command) : lastAccepted w'.history = lastAccepted w.history := by
  obtain ⟨noted, hhistory, hnoted⟩ := h.history_extends
  have hnone : noted.findSome? Event.acceptedCommand = none := by
    refine List.findSome?_eq_none_iff.mpr fun e he => ?_
    have hmem := hnoted e he
    cases e with
    | command c accepted =>
        cases accepted with
        | true => exact absurd (Finset.mem_singleton.mp hmem) hk
        | false => rfl
    | _ => rfl
  unfold lastAccepted
  rw [hhistory, List.findSome?_append, hnone, Option.none_or]

private theorem Does.lastAccepted_eq {K : Finset Kind} {w w' : World} (h : Does K w w')
    (hK : .command ∉ K) : lastAccepted w'.history = lastAccepted w.history :=
  h.keeps (fun w => lastAccepted w.history) fun _ hk _ _ hR =>
    hR.lastAccepted_eq fun he => hK (he ▸ hk)

theorem Does.started {K : Finset Kind} {w w' : World} (h : Does K w w')
    (hK : .command ∉ K ∧ .enter ∉ K) (hw : Started w) : Started w' := by
  intro hrun
  rw [h.lastAccepted_eq hK.1]
  exact hw (by rw [← h.state_eq hK.2, hrun])

/-! ## The fallback switch -/

private theorem haltForFallback_rejected (i : SwitchInput) (w : World) (hstop : i.stop ≠ .success)
    (hrelease : i.release ≠ .success) :
    lastAccepted (haltForFallback i w).history = lastAccepted w.history := by
  have hfirst := viosndPcmCommand_rejected .stop i.stop
    { w with renderFallbackAttempted := true } hstop
  have hsecond := viosndPcmCommand_rejected .release i.release
    (viosndStopPcm i.stop { w with renderFallbackAttempted := true }).2 hrelease
  have hcancel := cancelRenderWrites_does i.cancel (viosndReleasePcm i.release
    (viosndStopPcm i.stop { w with renderFallbackAttempted := true }).2).2
  have hdoes : Does {.rejected, .complete, .detach} { w with renderFallbackAttempted := true }
      (haltForFallback i w) :=
    ((hfirst.trans hsecond).mono (by decide)).trans (hcancel.mono (by decide))
  exact hdoes.lastAccepted_eq (by decide)

private theorem startFallback_accepted (i : SwitchInput) (w : World)
    (hprepare : (prepareFallback i w).1 = .success) (hstart : i.start = .success) :
    lastAccepted (startFallback i w).2.history = some .start := by
  have hok : whenOk (prepareFallback i w) (viosndStartPcm i.start) =
      viosndStartPcm i.start (prepareFallback i w).2 :=
    whenOk_of_success ((NtStatus.isSuccess_iff _).mpr hprepare)
  have hsuccess : (viosndStartPcm i.start (prepareFallback i w).2).1.isSuccess = true :=
    (NtStatus.isSuccess_iff _).mpr hstart
  unfold startFallback
  rw [hok]
  dsimp only
  rw [if_pos hsuccess]
  exact lastAccepted_command .start i.start _ hstart

/-- A switch that settles leaves a started device, if it found one. -/
private theorem switchRenderToFallback_started (i : SwitchInput) (w : World)
    (hi : SwitchSettles i w) (hw : lastAccepted w.history = some .start) :
    lastAccepted (switchRenderToFallback i w).2.history = some .start := by
  unfold switchRenderToFallback
  rcases hi with ⟨hstop, hrelease, hprepare, hstart⟩ | ⟨hstop, hrelease⟩
  · rw [if_pos ⟨(NtStatus.isSuccess_iff _).mpr hstop, (NtStatus.isSuccess_iff _).mpr hrelease⟩]
    exact startFallback_accepted i _ hprepare hstart
  · rw [if_neg fun h => hstop ((NtStatus.isSuccess_iff _).mp h.1)]
    exact (haltForFallback_rejected i w hstop hrelease).trans hw

private theorem maybeSwitchRenderFallback_started (qpc : LONGLONG) (i : SwitchInput) (w : World)
    (hi : SwitchDue qpc w → SwitchSettles i (w.note (.counter qpc))) (hw : Started w) :
    Started (maybeSwitchRenderFallback qpc i w) := by
  by_cases hdue : SwitchDue qpc w
  · rw [maybeSwitchRenderFallback_due qpc i w hdue]
    intro _
    refine switchRenderToFallback_started i _ (hi hdue) ?_
    exact (lastAccepted_cons_of_none _ _ rfl).trans (hw hdue.2.1)
  · exact (maybeSwitchRenderFallback_notDue qpc i w hdue).started (by decide) hw

private theorem workerStep_started (w : World) (s : WorkerStep)
    (hg : LifecycleGuard w (.worker s)) (hw : Started w) : Started (workerStep w s) := by
  cases s with
  | reclaim o => exact (reclaimRenderPacket_does o w).started (by decide) hw
  | maybeSwitch qpc i => exact maybeSwitchRenderFallback_started qpc i w hg hw
  | chooseTarget => exact (chooseTarget_does w).started (by decide) hw
  | submit o => exact (submitPass_does o w).started (by decide) hw
  | submitLate o => exact (submitLate_does o w).started (by decide) hw

/-! ## SetState -/

/-- A start either succeeds after START was accepted, or leaves `m_State` outside RUN. -/
private theorem startRender_started (i : SetStateInput) (w : World) (hstate : w.state ≠ .run) :
    Started (startRender i w).2 := by
  by_cases hok : (startRender i w).1 = .success
  · obtain ⟨-, hstart, heq⟩ := startRender_success hok
    have hdoes := (launchWorker_does i (viosndStartPcm i.start (prepareRender i w).2).2).1
    intro _
    rw [heq, hdoes.lastAccepted_eq (by decide)]
    exact lastAccepted_command .start i.start _ hstart
  · intro hrun
    unfold startRender at hok hrun
    dsimp only at hok hrun
    split at hok
    · rename_i hr
      exact absurd ((NtStatus.isSuccess_iff _).mp hr) hok
    · rename_i hr
      rw [if_neg hr] at hrun
      exact absurd hrun hstate

private theorem stopRender_started (target : KsState) (i : SetStateInput) (w : World)
    (htarget : target ≠ .run) (hstate : w.state = .run) (hi : StopSettles i w)
    (hw : Started w) : Started (stopRender target i w).2 := by
  have hquiet := (quiesceRender_does target i w htarget).state_eq (by decide)
  unfold stopRender
  dsimp only
  split
  · intro hrun
    refine absurd ?_ htarget
    rw [← hrun]
    dsimp only
    split
    · exact hquiet.symm
    · exact hquiet.symm
  · rename_i hbusy
    intro _
    have hrejected : i.stop ≠ .success ∧ i.release ≠ .success := by
      rcases hi with h | h | h | h | h
      · exact absurd (quiesceRender_stopped target i w htarget (Or.inl h)) hbusy
      · exact absurd (quiesceRender_stopped target i w htarget (Or.inr (Or.inl h))) hbusy
      · exact absurd (quiesceRender_stopped target i w htarget
          (Or.inr (Or.inr (Or.inl h)))) hbusy
      · exact absurd (quiesceRender_stopped target i w htarget
          (Or.inr (Or.inr (Or.inr h)))) hbusy
      · exact h
    have hdoes := quiesceRender_does_of (K := insert .rejected (insert .detach awaitKinds))
      (by decide) target i w htarget fun w =>
        ((viosndPcmCommand_rejected .stop i.stop w hrejected.1).trans
          (viosndPcmCommand_rejected .release i.release (viosndStopPcm i.stop w).2
            hrejected.2)).mono (by decide)
    exact (Does.lastAccepted_eq hdoes (by decide)).trans (hw hstate)

private theorem setState_started (target : KsState) (i : SetStateInput) (w : World)
    (hg : LifecycleGuard w (.setState target i)) (hw : Started w) :
    Started (setState target i w).2 := by
  by_cases htarget : target = .run
  · subst htarget
    by_cases hstate : w.state = .run
    · rw [setState_other .run i w (iff_of_true rfl hstate)]
      exact fun _ => hw hstate
    · rw [setState_start i w hstate]
      exact startRender_started i w hstate
  · by_cases hstate : w.state = .run
    · rw [setState_stop target i w htarget hstate]
      exact stopRender_started target i w htarget hstate (hg htarget hstate) hw
    · rw [setState_other target i w (iff_of_false htarget hstate)]
      exact fun hrun => absurd hrun htarget

private theorem step_started (w : World) (a : Action) (hw : Started w) (hg : LifecycleGuard w a) :
    Started (step w a) := by
  cases a with
  | setState target i => exact setState_started target i w hg hw
  | setWritePacket packetNumber endOfStream eosPacketLength =>
      have hdoes := Does.one (.write packetNumber endOfStream eosPacketLength w)
      exact Does.started hdoes (by decide) hw
  | worker s => exact workerStep_started w s hg hw
  | getPosition qpc => exact (getPosition_does qpc w).started (by decide) hw
  | getPresentationPosition qpc => exact (queryClock_does qpc w).started (by decide) hw

/-! ## Late answers

A command that timed out stays on the control queue, so the device may accept it afterwards. A late
acceptance inside a call counts as one right after the call when it follows the last command the
call had accepted, and is forgotten otherwise.
-/

/-- The stream and the commands accepted after their time-out. -/
structure LateWorld where
  world : World
  late : List PcmCommand

def LateWorld.fresh (buffer : Option Memory)
    (bufferSize notificationCount packetSize : ULONG) : LateWorld where
  world := .fresh buffer bufferSize notificationCount packetSize
  late := []

inductive LateAction where
  | act (a : Action)
  | acceptLate (c : PcmCommand)

/-- More commands of this kind failed than were accepted late: one may still be on the queue. -/
def LateWorld.Unanswered (w : LateWorld) (c : PcmCommand) : Prop :=
  w.late.count c < w.world.history.countP fun e => match e with
    | .command d accepted => d = c && !accepted
    | _ => false

instance (w : LateWorld) (c : PcmCommand) : Decidable (w.Unanswered c) :=
  inferInstanceAs (Decidable (_ < _))

def lateStep (w : LateWorld) : LateAction → LateWorld
  | .act a => { w with world := step w.world a }
  | .acceptLate c =>
      if w.Unanswered c then { world := w.world.note (.command c true), late := c :: w.late }
      else w

/-- Nothing but a START is accepted late during RUN. -/
def LateGuard (w : LateWorld) : LateAction → Prop
  | .act a => LifecycleGuard w.world a
  | .acceptLate c => w.Unanswered c → w.world.state = .run → c = .start

private theorem lateStep_started (w : LateWorld) (a : LateAction) (hw : Started w.world)
    (hg : LateGuard w a) : Started (lateStep w a).world := by
  cases a with
  | act a => exact step_started w.world a hw hg
  | acceptLate c =>
      unfold lateStep
      dsimp only
      split
      · rename_i hunanswered
        intro hrun
        obtain rfl := hg hunanswered hrun
        rfl
      · exact hw

end Viosnd.Render
