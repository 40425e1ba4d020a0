import Viosnd.Render.Lending

/-!
# Render buffers and the device

A buffer on the TX queue is lent to the device. `CancelRenderWrites` takes buffers off the queue
whatever the device answered to the commands before it, so the stream keeps the loans only where
every clean-up follows an accepted RELEASE or finds nothing lent.
-/

namespace Viosnd.Render

open StepRun EffectSystem Loans

/-- The buffer the driver uses as its own in this event. -/
def Event.reuses : Event → Option Nat
  | .submitted entry => some entry.io.id
  | .pooled io => some io.id
  | .freed io => some io.id
  | _ => none

/-- A buffer once submitted is pooled, submitted again or freed only after the device returned it,
or accepted a RELEASE, later than the submission. -/
def ReuseContract (history : List Event) : Prop :=
  ∀ newer e older id, history = newer ++ e :: older → e.reuses = some id →
    ∀ since entry before, older = since ++ .submitted entry :: before → entry.io.id = id →
      (∃ back, .returned back ∈ since ∧ back.io.id = id) ∨ .command .release true ∈ since

/-! ## The contract as a statement about loans -/

private theorem Event.loan_of_reuses (e : Event) (id : Nat) (he : e.reuses = some id) :
    ∃ l, e.loan .device = some l ∧ l.Claims id := by
  cases e with
  | submitted entry => exact ⟨.lend entry.io.id, rfl, Option.some.inj he⟩
  | pooled io => exact ⟨.reuse io.id, rfl, Option.some.inj he⟩
  | freed io => exact ⟨.reuse io.id, rfl, Option.some.inj he⟩
  | _ => cases he

private theorem Event.returned_of_loan (e : Event) (id : Nat)
    (he : e.loan .device = some (.giveBack id)) :
    ∃ back : TxEntry, e = .returned back ∧ back.io.id = id := by
  cases e with
  | returned back =>
      have hid : Loans.Event.giveBack back.io.id = .giveBack id := Option.some.inj he
      exact ⟨back, rfl, Loans.Event.giveBack.inj hid⟩
  | command c accepted => cases c <;> cases accepted <;> cases he
  | _ => cases he

private theorem Event.release_of_loan (e : Event) (he : e.loan .device = some .giveUpAll) :
    e = .command .release true := by
  cases e with
  | command c accepted =>
      cases c <;> cases accepted <;> first | rfl | cases he
  | _ => cases he

private theorem reuseContract_of_respected (history : List Event)
    (h : Respected (loans .device history)) :
    ReuseContract history := by
  rintro newer e older id rfl hreuse since entry before rfl hid
  obtain ⟨l, hl, hclaims⟩ := e.loan_of_reuses id hreuse
  have hsplit : loans .device (newer ++ e :: (since ++ .submitted entry :: before)) =
      loans .device newer ++ l :: (loans .device since ++ .lend id :: loans .device before) := by
    rw [loans_append, loans_cons_of_some _ e _ l hl, loans_append,
      loans_cons_of_some _ (.submitted entry) before (.lend id) (by rw [← hid]; rfl)]
  have hnot := (respected_iff _).mp h _ l _ hsplit id hclaims
  by_contra hnever
  rw [not_or] at hnever
  refine hnot ((out_iff id _).mpr ⟨loans .device since, loans .device before, rfl, ?_, ?_⟩)
  · intro hback
    obtain ⟨e', he', hloan⟩ := List.mem_filterMap.mp hback
    obtain ⟨back, rfl, hbid⟩ := e'.returned_of_loan id hloan
    exact hnever.1 ⟨back, he', hbid⟩
  · intro hrelease
    obtain ⟨e', he', hloan⟩ := List.mem_filterMap.mp hrelease
    rw [e'.release_of_loan hloan] at he'
    exact hnever.2 he'

private theorem Event.reuses_of_loan (e : Event) (l : Loans.Event Nat) (id : Nat)
    (he : e.loan .device = some l) (hl : l.Claims id) : e.reuses = some id := by
  cases e with
  | submitted entry =>
      obtain rfl := Option.some.inj he
      exact congrArg some hl
  | pooled io =>
      obtain rfl := Option.some.inj he
      exact congrArg some hl
  | freed io =>
      obtain rfl := Option.some.inj he
      exact congrArg some hl
  | returned back =>
      obtain rfl := Option.some.inj he
      exact hl.elim
  | command c accepted =>
      cases c <;> cases accepted <;> cases he
      exact hl.elim
  | _ => cases he

private theorem Event.submitted_of_loan (e : Event) (id : Nat)
    (he : e.loan .device = some (.lend id)) :
    ∃ entry : TxEntry, e = .submitted entry ∧ entry.io.id = id := by
  cases e with
  | submitted entry =>
      have hid : Loans.Event.lend entry.io.id = .lend id := Option.some.inj he
      exact ⟨entry, rfl, Loans.Event.lend.inj hid⟩
  | command c accepted => cases c <;> cases accepted <;> cases he
  | _ => cases he

private theorem reuseContract_iff (history : List Event) :
    ReuseContract history ↔ Respected (loans .device history) := by
  refine ⟨fun hcontract => (respected_iff _).mpr ?_, reuseContract_of_respected history⟩
  intro newer l older hsplit id hclaims hout
  obtain ⟨since, before, hlent, hback, hrelease⟩ := (out_iff id older).mp hout
  subst hlent
  obtain ⟨newer', rest, rfl, rfl, hrest⟩ := List.filterMap_eq_append_iff.mp hsplit
  obtain ⟨quiet, e, older', rfl, -, hl, holder⟩ := List.filterMap_eq_cons_iff.mp hrest
  obtain ⟨since', rest', rfl, rfl, hrest'⟩ := List.filterMap_eq_append_iff.mp holder
  obtain ⟨quiet', e', before', rfl, hquiet', hlend, rfl⟩ :=
    List.filterMap_eq_cons_iff.mp hrest'
  obtain ⟨entry, rfl, hid⟩ := e'.submitted_of_loan id hlend
  have hreuse := e.reuses_of_loan l id hl hclaims
  rcases hcontract (newer' ++ quiet) e (since' ++ (quiet' ++ .submitted entry :: before')) id
      (by simp) hreuse (since' ++ quiet') entry before' (by simp) hid with ⟨back, hmem, hbid⟩ | hmem
  · rcases List.mem_append.mp hmem with hmem | hmem
    · exact hback (List.mem_filterMap.mpr ⟨_, hmem, by rw [← hbid]; rfl⟩)
    · have hnone := hquiet' _ hmem
      cases hnone
  · rcases List.mem_append.mp hmem with hmem | hmem
    · exact hrelease (List.mem_filterMap.mpr ⟨_, hmem, rfl⟩)
    · have hnone := hquiet' _ hmem
      cases hnone

/-- An accepted RELEASE makes the device give up every buffer. -/
private theorem viosndReleasePcm_nothingOut (answer : NtStatus) (w : World)
    (hanswer : answer = .success) (hw : Lending .device w) :
    Lending .device (viosndReleasePcm answer w).2 ∧
      NothingOut (viosndReleasePcm answer w).2 := by
  have hlending := (viosndPcmCommand_does .release answer w).lending (by decide) hw
  refine ⟨hlending, fun id hout => ?_⟩
  subst hanswer
  exact out_giveUpAll id _ hout

/-! ## Where the loans are kept -/

/-- A switch that begins gets its RELEASE accepted, and a submission pass ends in the RUN period
it began in. -/
def WorkerRespects (w : World) : WorkerStep → Prop
  | .maybeSwitch qpc i => SwitchDue qpc w → i.release = .success
  | .submitLate _ => w.state = .run
  | _ => True

/-- A step that may put a buffer on the queue. -/
def WorkerStep.Lends (w : World) : WorkerStep → Prop
  | .submit _ => True
  | .submitLate _ => True
  | .maybeSwitch qpc _ => SwitchDue qpc w
  | _ => False

/-- The start path with START accepted, up to the creation of the worker. -/
def startedWorker (i : SetStateInput) (w : World) : NtStatus × World :=
  launchWorker i (viosndStartPcm i.start (prepareRender i w).2).2

/-- A start that queued a silence buffer is accepted by the device; one whose worker cannot be
started gets its RELEASE accepted, and no thread submits after that. -/
structure StartRespects (i : SetStateInput) (w : World) : Prop where
  prepared : (prepareRender i w).2.txQueue.length ≠ w.txQueue.length →
    (prepareRender i w).1 = .success ∧ i.start = .success
  launched : (prepareRender i w).1 = .success → i.start = .success →
    (startedWorker i w).1 ≠ .success →
    i.release = .success ∧ Guarded workerStep WorkerRespects (startedWorker i w).2 i.lost ∧
      Guarded workerStep (fun w s => ¬ s.Lends w) (viosndReleasePcm i.release
        (viosndStopPcm i.stop (run workerStep (startedWorker i w).2 i.lost)).2).2 i.lostLate

/-- A stop gets its RELEASE accepted, and no pass from before submits after that. -/
def StopRespects (i : SetStateInput) : Prop :=
  i.release = .success ∧ ∀ s ∈ i.lingering, ∀ o, s ≠ .submitLate o

def OwnershipGuard (w : World) : Action → Prop
  | .setState target i => (target = .run → w.state ≠ .run → StartRespects i w) ∧
      (target ≠ .run → w.state = .run → StopRespects i)
  | .worker s => WorkerRespects w s
  | _ => True

/-- Outside RUN nothing is out. -/
structure Owned (w : World) : Prop where
  lending : Lending .device w
  released : w.state ≠ .run → NothingOut w

/-! ## The worker keeps the loans -/

private theorem haltForFallback_nothingOut (i : SwitchInput) (w : World)
    (hrelease : i.release = .success) (hw : Lending .device w) :
    Lending .device (haltForFallback i w) ∧ NothingOut (haltForFallback i w) := by
  have hattempt : Does {.tune} w { w with renderFallbackAttempted := true } :=
    Does.one (.tune w _ _ _ _ _ _ _ _ (Or.inl rfl))
  have hstopped := (viosndPcmCommand_does .stop i.stop
    { w with renderFallbackAttempted := true }).lending (by decide)
    (hattempt.lending (by decide) hw)
  obtain ⟨hlending, hnone⟩ := viosndReleasePcm_nothingOut i.release _ hrelease hstopped
  exact (cancelRenderWrites_does i.cancel _).nothingOut (by decide) hlending hnone

private theorem switchRenderToFallback_lending (i : SwitchInput) (w : World)
    (hrelease : i.release = .success) (hw : Lending .device w) :
    Lending .device (switchRenderToFallback i w).2 := by
  have hhalt := (haltForFallback_nothingOut i w hrelease hw).1
  unfold switchRenderToFallback
  split
  · exact (startFallback_does i _).lending (by decide) hhalt
  · exact hhalt

private theorem workerStep_lending (w : World) (s : WorkerStep) (hg : WorkerRespects w s)
    (hw : Lending .device w) : Lending .device (workerStep w s) := by
  cases s with
  | reclaim o => exact (reclaimRenderPacket_does o w).lending (by decide) hw
  | maybeSwitch qpc i =>
      change Lending .device (maybeSwitchRenderFallback qpc i w)
      by_cases hdue : SwitchDue qpc w
      · rw [maybeSwitchRenderFallback_due qpc i w hdue]
        have hread := (Does.one (.reading qpc w)).lending (by decide) hw
        exact switchRenderToFallback_lending i _ (hg hdue) hread
      · exact (maybeSwitchRenderFallback_notDue qpc i w hdue).lending (by decide) hw
  | chooseTarget => exact (chooseTarget_does w).lending (by decide) hw
  | submit o => exact (submitPass_does o w).lending (by decide) hw
  | submitLate o => exact (submitLate_does o w).lending (by decide) hw

private theorem workerStep_nothingOut (w : World) (s : WorkerStep) (hs : ¬ s.Lends w)
    (hw : Lending .device w) (hnone : NothingOut w) :
    Lending .device (workerStep w s) ∧ NothingOut (workerStep w s) := by
  cases s with
  | reclaim o => exact (reclaimRenderPacket_does o w).nothingOut (by decide) hw hnone
  | maybeSwitch qpc i =>
      exact (maybeSwitchRenderFallback_notDue qpc i w hs).nothingOut (by decide) hw hnone
  | chooseTarget => exact (chooseTarget_does w).nothingOut (by decide) hw hnone
  | submit o => exact absurd trivial hs
  | submitLate o => exact absurd trivial hs

theorem workerStep_owned (w : World) (s : WorkerStep) (hg : WorkerRespects w s) (hw : Owned w) :
    Owned (workerStep w s) := by
  refine ⟨workerStep_lending w s hg hw.lending, ?_⟩
  intro hstate'
  have hstate : w.state ≠ .run := by
    intro hrun
    exact hstate' ((workerStep_does w s).state_eq (by decide) |>.trans hrun)
  have hprompt : ∀ o, s ≠ .submitLate o := by
    rintro o rfl
    exact hstate hg
  exact ((workerStep_prompt_does w s hstate hprompt).nothingOut (by decide) hw.lending
    (hw.released hstate)).2

/-! ## SetState keeps the loans -/

private theorem Does.queued_or_without {w w' : World} (h : Does prepareKinds w w') :
    w.txQueue.length ≤ w'.txQueue.length ∧
      (w'.txQueue.length = w.txQueue.length → Does (prepareKinds.erase .preroll) w w') := by
  have hstep : ∀ k ∈ prepareKinds, ∀ u v, Effect k u v →
      (k = .preroll ∧ v.txQueue.length = u.txQueue.length + 1) ∨
        (k ≠ .preroll ∧ v.txQueue = u.txQueue) := by
    intro k hk u v hR
    cases hR with
    | preroll entry => exact Or.inl ⟨rfl, List.length_append⟩
    | free =>
        refine Or.inr ⟨by decide, ?_⟩
        rw [freeRenderIo_eq]
    | silence => exact absurd hk (by decide)
    | packet => exact absurd hk (by decide)
    | complete => exact absurd hk (by decide)
    | detach => exact absurd hk (by decide)
    | write => exact absurd hk (by decide)
    | _ => exact Or.inr ⟨by decide, rfl⟩
  induction h with
  | refl => exact ⟨le_rfl, fun _ => Within.refl w⟩
  | @tail u v _ hlast ih =>
      obtain ⟨k, hk, hR⟩ := hlast
      rcases hstep k hk u v hR with ⟨-, hlength⟩ | ⟨hpreroll, hqueue⟩
      · have hle := ih.1
        exact ⟨by omega, fun hsame => by omega⟩
      · rw [hqueue]
        refine ⟨ih.1, fun hsame => (ih.2 hsame).trans ?_⟩
        exact Within.single (Finset.mem_erase.mpr ⟨hpreroll, hk⟩) hR

/-- The way back from a worker that could not be started leaves nothing out. -/
private theorem launchRender_failed_nothingOut (i : SetStateInput) (w : World)
    (hg : StartRespects i w) (hw : Lending .device w) (hprepare : (prepareRender i w).1 = .success)
    (hstart : i.start = .success) (hworker : (startedWorker i w).1 ≠ .success) :
    let launched := launchRender w.state i (viosndStartPcm i.start (prepareRender i w).2).2
    Lending .device launched.2 ∧ NothingOut launched.2 := by
  intro launched
  obtain ⟨hrelease, hlost, hlate⟩ := hg.launched hprepare hstart hworker
  have hprepared := (prepareRender_does i w).lending (by decide) hw
  have hstarted := (viosndPcmCommand_does .start i.start _).lending (by decide) hprepared
  have hlaunched : Lending .device (startedWorker i w).2 :=
    (launchWorker_does i _).1.lending (by decide) hstarted
  have hafter := hlost.invariant (P := Lending .device)
    (fun w s hw hs => workerStep_lending w s hs hw) hlaunched
  have hstopped := (viosndPcmCommand_does .stop i.stop
    (run workerStep (startedWorker i w).2 i.lost)).lending (by decide) hafter
  have hreleased := viosndReleasePcm_nothingOut i.release _ hrelease hstopped
  obtain ⟨hlending, hquiet⟩ := hlate.invariant (P := fun w => Lending .device w ∧ NothingOut w)
    (fun w s hw hs => workerStep_nothingOut w s hs hw.1 hw.2) hreleased
  have hfail : (startedWorker i w).1.isSuccess ≠ true := by
    simpa using hworker
  have hresult : launched = _ := launchRender_of_failure hfail
  rw [hresult]
  exact (Does.one (.enter w.state _)).nothingOut (by decide) hlending hquiet

private theorem startRender_failed_nothingOut (i : SetStateInput) (w : World)
    (hg : StartRespects i w) (hw : Lending .device w) (hnone : NothingOut w)
    (hfail : (whenOk (whenOk (prepareRender i w) (viosndStartPcm i.start))
      (launchRender w.state i)).1.isSuccess ≠ true) :
    Lending .device (whenOk (whenOk (prepareRender i w) (viosndStartPcm i.start))
        (launchRender w.state i)).2 ∧
      NothingOut (whenOk (whenOk (prepareRender i w) (viosndStartPcm i.start))
        (launchRender w.state i)).2 := by
  have hprepared := prepareRender_does i w
  by_cases hgo : (prepareRender i w).1 = .success ∧ i.start = .success
  · -- The device was started, so it is the worker that was not.
    have hcommand : (viosndStartPcm i.start (prepareRender i w).2).1.isSuccess = true :=
      (NtStatus.isSuccess_iff _).mpr hgo.2
    rw [whenOk_of_success ((NtStatus.isSuccess_iff _).mpr hgo.1),
      whenOk_of_success hcommand] at hfail ⊢
    refine launchRender_failed_nothingOut i w hg hw hgo.1 hgo.2 fun hsuccess => hfail ?_
    have hworker : (startedWorker i w).1.isSuccess = true :=
      (NtStatus.isSuccess_iff _).mpr hsuccess
    rw [launchRender_of_success hworker]
    exact hworker
  · -- Nothing was queued, and nothing but a rejected START may follow.
    have hlength : (prepareRender i w).2.txQueue.length = w.txQueue.length := by
      by_contra hqueued
      exact hgo (hg.prepared hqueued)
    obtain ⟨hlending, hquiet⟩ := (hprepared.queued_or_without.2 hlength).nothingOut (by decide)
      hw hnone
    by_cases hprepare : (prepareRender i w).1.isSuccess = true
    · have hstart : (viosndStartPcm i.start (prepareRender i w).2).1.isSuccess ≠ true :=
        fun h => hgo ⟨(NtStatus.isSuccess_iff _).mp hprepare, (NtStatus.isSuccess_iff _).mp h⟩
      rw [whenOk_of_success hprepare, whenOk_of_failure hstart]
      exact (viosndPcmCommand_does .start i.start _).nothingOut (by decide) hlending hquiet
    · rw [whenOk_of_failure hprepare, whenOk_of_failure hprepare]
      exact ⟨hlending, hquiet⟩

private theorem startRender_owned (i : SetStateInput) (w : World) (hg : StartRespects i w)
    (hstate : w.state ≠ .run) (hw : Owned w) : Owned (startRender i w).2 := by
  by_cases hok : (startRender i w).1 = .success
  · obtain ⟨hdoes, hrun⟩ := startRender_success_does i w hok
    exact ⟨hdoes.lending (by decide) hw.lending, fun h => absurd hrun h⟩
  · have hfail : (whenOk (whenOk (prepareRender i w) (viosndStartPcm i.start))
        (launchRender w.state i)).1.isSuccess ≠ true := by
      intro hr
      apply hok
      unfold startRender
      dsimp only
      rw [if_pos hr]
      exact (NtStatus.isSuccess_iff _).mp hr
    obtain ⟨hlending, hquiet⟩ := startRender_failed_nothingOut i w hg hw.lending
      (hw.released hstate) hfail
    unfold startRender
    dsimp only
    rw [if_neg hfail]
    obtain ⟨hlending', hquiet'⟩ := (abortRender_does w.state i _).nothingOut (by decide)
      hlending hquiet
    exact ⟨hlending', fun _ => hquiet'⟩

private theorem quiesceRender_owned (target : KsState) (i : SetStateInput) (w : World)
    (htarget : target ≠ .run) (hi : StopRespects i) (hw : Lending .device w) :
    Lending .device (quiesceRender target i w).2 ∧ NothingOut (quiesceRender target i w).2 := by
  have hfirst := awaitWorker_does target i w htarget
  have hentered := (Does.one (.enter target w)).lending (by decide) hw
  have hstopped := (viosndPcmCommand_does .stop i.stop (awaitWorker target i w).2).lending
    (by decide) (hfirst.lending (by decide) hentered)
  obtain ⟨hlending, hquiet⟩ := viosndReleasePcm_nothingOut i.release _ hi.1 hstopped
  have hstate : (viosndReleasePcm i.release
      (viosndStopPcm i.stop (awaitWorker target i w).2).2).2.state ≠ .run := by
    change (awaitWorker target i w).2.state ≠ .run
    rw [hfirst.state_eq (by decide)]
    exact htarget
  have hagain : Does {.tune, .thread, .free, .complete} (viosndReleasePcm i.release
      (viosndStopPcm i.stop (awaitWorker target i w).2).2).2 (awaitWorkerAgain
        (awaitWorker target i w).1 i (viosndReleasePcm i.release
          (viosndStopPcm i.stop (awaitWorker target i w).2).2).2).2 :=
    awaitWorkerAgain_does_of (by decide) _ i _
      ((workerSteps_prompt_does i.lingering _ hstate hi.2).mono (by decide))
  obtain ⟨hlending, hquiet⟩ := hagain.nothingOut (by decide) hlending hquiet
  obtain ⟨hlending, hquiet⟩ := (cancelRenderWrites_does i.cancel _).nothingOut (by decide)
    hlending hquiet
  exact (freeRenderIoPool_does _).nothingOut (by decide) hlending hquiet

private theorem stopRender_owned (target : KsState) (i : SetStateInput) (w : World)
    (htarget : target ≠ .run) (hi : StopRespects i) (hw : Owned w) :
    Owned (stopRender target i w).2 := by
  obtain ⟨hlending, hquiet⟩ := quiesceRender_owned target i w htarget hi hw.lending
  unfold stopRender
  dsimp only
  split
  · have hsettled := (Does.one (.settle i.qpc (quiesceRender target i w).2)).nothingOut
      (by decide) hlending hquiet
    dsimp only
    split
    · obtain ⟨hlending', hquiet'⟩ := (Does.one (.reset (settlePosition i.qpc
        (quiesceRender target i w).2))).nothingOut (by decide) hsettled.1 hsettled.2
      exact ⟨hlending', fun _ => hquiet'⟩
    · exact ⟨hsettled.1, fun _ => hsettled.2⟩
  · exact ⟨(Does.one (.enter .run _)).lending (by decide) hlending, fun h => absurd rfl h⟩

theorem step_owned (w : World) (a : Action) (hw : Owned w) (hg : OwnershipGuard w a) :
    Owned (step w a) := by
  have hkeep : ∀ {K : Finset Kind} {w' : World}, Does K w w' →
      .detach ∉ K ∧ .preroll ∉ K ∧ .silence ∉ K ∧ .packet ∉ K ∧ .enter ∉ K → Owned w' := by
    intro K w' hdoes hK
    refine ⟨hdoes.lending (fun h => absurd h hK.1) hw.lending, fun hstate => ?_⟩
    rw [hdoes.state_eq hK.2.2.2.2] at hstate
    exact (hdoes.nothingOut ⟨hK.2.1, hK.2.2.1, hK.2.2.2.1⟩ hw.lending (hw.released hstate)).2
  cases a with
  | setState target i =>
      rw [step_setState]
      by_cases htarget : target = .run
      · subst htarget
        by_cases hstate : w.state = .run
        · rw [setState_other .run i w (iff_of_true rfl hstate)]
          exact ⟨(Does.one (.enter .run w)).lending (by decide) hw.lending,
            fun h => absurd rfl h⟩
        · rw [setState_start i w hstate]
          exact startRender_owned i w (hg.1 rfl hstate) hstate hw
      · by_cases hstate : w.state = .run
        · rw [setState_stop target i w htarget hstate]
          exact stopRender_owned target i w htarget (hg.2 htarget hstate) hw
        · rw [setState_other target i w (iff_of_false htarget hstate)]
          obtain ⟨hlending, hquiet⟩ := (Does.one (.enter target w)).nothingOut (by decide)
            hw.lending (hw.released hstate)
          exact ⟨hlending, fun _ => hquiet⟩
  | setWritePacket packetNumber endOfStream eosPacketLength =>
      exact hkeep (Does.one (.write packetNumber endOfStream eosPacketLength w)) (by decide)
  | worker s => exact workerStep_owned w s hg hw
  | getPosition qpc => exact hkeep (getPosition_does qpc w) (by decide)
  | getPresentationPosition qpc => exact hkeep (queryClock_does qpc w) (by decide)

theorem World.fresh_owned (buffer : Option Memory)
    (bufferSize notificationCount packetSize : ULONG) :
    Owned (World.fresh buffer bufferSize notificationCount packetSize) :=
  ⟨⟨⟨[], World.fresh_stocked _ _ _ _⟩, fun _ h => h.elim, trivial⟩, fun _ _ h => h⟩

end Viosnd.Render
