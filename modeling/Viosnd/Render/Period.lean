import Viosnd.Render.Effects

/-!
# RUN periods

A RUN period begins with a `SetState(KSSTATE_RUN)` that succeeds. Its steps are the calls of the
OS, the steps of the worker and the pieces of the `SetState` call that leaves RUN: between two of
them any other thread may run.
-/

namespace Viosnd.Render

open StepRun EffectSystem

/-- The session as the constructor and `SetState(KSSTATE_STOP)` leave it, with no buffer left on
the queue. -/
structure World.IsReset (w : World) : Prop where
  idle : w.state ≠ .run
  packetNumber : w.packetNumber = 0
  position : w.position = 0
  eosPacketNumber : w.eosPacketNumber = maxULONG
  txQueue : w.txQueue = []

inductive PeriodStep where
  /-- `SetWritePacket` without the ENDOFSTREAM flag. -/
  | setWritePacket (packetNumber eosPacketLength : ULONG)
  /-- The OS writes into the WaveRT buffer. -/
  | writeBuffer (memory : Memory)
  | worker (s : WorkerStep)
  | getPosition (qpc : LONGLONG)
  | getPresentationPosition (qpc : LONGLONG)
  /-- `SetState` writes `m_State`. -/
  | enter (s : KsState)
  | command (c : PcmCommand) (answer : NtStatus)
  | stopWorker (exited : Bool)
  /-- One pass of the detach loop of `CancelRenderWrites`. -/
  | detach (o : TxDetach)
  | freePool

def periodStep (w : World) : PeriodStep → World
  | .setWritePacket packetNumber eosPacketLength =>
      (setWritePacket packetNumber false eosPacketLength w).2
  | .writeBuffer memory => { w with
      buffer := w.buffer.map fun _ => memory }
  | .worker s => workerStep w s
  | .getPosition qpc => (getPosition qpc w).2
  | .getPresentationPosition qpc => (getOutputStreamPresentationPosition qpc w).2
  | .enter s => { w with
      state := s }
  | .command c answer => (viosndPcmCommand c answer w).2
  | .stopWorker exited => (stopRenderWorker exited w).2
  | .detach o => detachRenderWrites [o] w
  | .freePool => freeRenderIoPool w

/-! ## Calls as runs of the pieces -/

/-- The answers `ReclaimRenderPackets` gets to see. -/
def reclaimPasses : List TxReclaim → World → List TxReclaim
  | [], _ => []
  | o :: answers, w =>
      let r := reclaimRenderPacket o w
      o :: (if r.1 then reclaimPasses answers r.2 else [])

def reclaimPass (w : World) (o : TxReclaim) : World := (reclaimRenderPacket o w).2

theorem reclaimRenderPackets_run (answers : List TxReclaim) (w : World) :
    reclaimRenderPackets answers w = run reclaimPass w (reclaimPasses answers w) := by
  induction answers generalizing w with
  | nil => rfl
  | cons o answers ih =>
      unfold reclaimRenderPackets reclaimPasses
      dsimp only
      rw [run_cons]
      split
      · exact ih _
      · rfl

private theorem run_worker (steps : List WorkerStep) (w : World) :
    run workerStep w steps = run periodStep w (steps.map .worker) := by
  induction steps generalizing w with
  | nil => rfl
  | cons s steps ih => exact ih (workerStep w s)

private theorem reclaimRenderPackets_period (answers : List TxReclaim) (w : World) :
    ∃ steps, reclaimRenderPackets answers w = run periodStep w steps := by
  refine ⟨(reclaimPasses answers w).map fun o => .worker (.reclaim o), ?_⟩
  rw [reclaimRenderPackets_run]
  generalize reclaimPasses answers w = passes
  induction passes generalizing w with
  | nil => rfl
  | cons o passes ih => exact ih (reclaimPass w o)

private theorem detachRenderWrites_period (answers : List TxDetach) (w : World) :
    ∃ steps, detachRenderWrites answers w = run periodStep w steps := by
  induction answers generalizing w with
  | nil => exact ⟨[], rfl⟩
  | cons o answers ih =>
      by_cases hnone : w.outstandingWrites = 0
      · refine ⟨[], ?_⟩
        unfold detachRenderWrites
        rw [if_pos hnone]
        rfl
      rcases hfound : viosndDetachUnusedWritePcm o w with ⟨status, _ | entry, w₁⟩
      · refine ⟨[.detach o], ?_⟩
        simp [periodStep, detachRenderWrites, hnone, hfound]
      · obtain ⟨steps, hsteps⟩ := ih (detachRenderWrites [o] w)
        refine ⟨.detach o :: steps, ?_⟩
        refine Eq.trans ?_ hsteps
        simp [detachRenderWrites, hnone, hfound]

private theorem cancelRenderWrites_period (i : CancelInput) (w : World) :
    ∃ steps, cancelRenderWrites i w = run periodStep w steps := by
  obtain ⟨reclaims, hreclaims⟩ := reclaimRenderPackets_period i.reclaims w
  obtain ⟨detaches, hdetaches⟩ :=
    detachRenderWrites_period i.detaches (reclaimRenderPackets i.reclaims w)
  refine ⟨reclaims ++ detaches, ?_⟩
  rw [run_append, ← hreclaims]
  exact hdetaches

private theorem awaitWorker_period (target : KsState) (i : SetStateInput) (w : World) :
    ∃ steps, (awaitWorker target i w).2 = run periodStep w steps := by
  unfold awaitWorker
  dsimp only
  rw [run_worker]
  split
  · refine ⟨.enter target :: i.stopping.map .worker ++ [.stopWorker i.exited], ?_⟩
    rw [run_concat]
    rfl
  · exact ⟨.enter target :: i.stopping.map .worker, rfl⟩

private theorem awaitWorkerAgain_period (stopped : Bool) (i : SetStateInput) (w : World) :
    ∃ steps, (awaitWorkerAgain stopped i w).2 = run periodStep w steps := by
  cases stopped with
  | true => exact ⟨[], rfl⟩
  | false =>
      have hagain : awaitWorkerAgain false i w =
          (let w := run periodStep w (i.lingering.map .worker)
          if w.workerStarted then stopRenderWorker i.exitedLate w else (false, w)) := by
        simp [awaitWorkerAgain, run_worker]
      rw [hagain]
      dsimp only
      split
      · refine ⟨i.lingering.map .worker ++ [.stopWorker i.exitedLate], ?_⟩
        rw [run_concat]
        rfl
      · exact ⟨i.lingering.map .worker, rfl⟩

private theorem quiesceRender_period (target : KsState) (i : SetStateInput) (w : World) :
    ∃ steps, (quiesceRender target i w).2 = run periodStep w steps := by
  unfold quiesceRender
  dsimp only
  obtain ⟨first, hfirst⟩ := awaitWorker_period target i w
  generalize awaitWorker target i w = waited at hfirst ⊢
  obtain ⟨again, hagain⟩ := awaitWorkerAgain_period waited.1 i
    (viosndReleasePcm i.release (viosndStopPcm i.stop waited.2).2).2
  generalize awaitWorkerAgain waited.1 i
    (viosndReleasePcm i.release (viosndStopPcm i.stop waited.2).2).2 = quiet at hagain ⊢
  obtain ⟨cancel, hcancel⟩ := cancelRenderWrites_period i.cancel quiet.2
  refine ⟨first ++ [.command .stop i.stop, .command .release i.release] ++ again ++ cancel ++
    [.freePool], ?_⟩
  rw [run_concat, run_append, run_append, run_append, ← hfirst]
  change _ = freeRenderIoPool (run periodStep (run periodStep
    (viosndReleasePcm i.release (viosndStopPcm i.stop waited.2).2).2 again) cancel)
  rw [← hagain, ← hcancel]

/-- A call that leaves RUN is a run of the pieces up to the settling of the position; one that
fails stays in the period. -/
theorem stopRender_period (target : KsState) (i : SetStateInput) (w : World) :
    ∃ steps, (stopRender target i w).2 =
      if (quiesceRender target i w).1 then
        if target = .stop then resetSession (settlePosition i.qpc (run periodStep w steps))
        else settlePosition i.qpc (run periodStep w steps)
      else run periodStep w steps := by
  obtain ⟨steps, hsteps⟩ := quiesceRender_period target i w
  unfold stopRender
  dsimp only
  split
  · refine ⟨steps, ?_⟩
    rw [hsteps]
  · refine ⟨steps ++ [.enter .run], ?_⟩
    rw [run_concat, ← hsteps]
    rfl

/-! ## The fields of the session -/

/-- The fields that steer the mode and the length of the blocks. -/
def sessionFields (w : World) : ULONG × Nat × Bool × Bool × ULONG :=
  (w.eosPacketNumber, w.renderPrerollPackets, w.renderFallbackAttempted, w.renderFallbackActive,
    w.renderFallbackPhase)

/-- What holds all through a period without end-of-stream packets: no cyclic preroll is left, and
the fallback is entered by a switch only. -/
structure InSession (w : World) : Prop where
  noEos : w.eosPacketNumber = maxULONG
  noPreroll : w.renderPrerollPackets = 0
  attempted : w.renderFallbackActive = true → w.renderFallbackAttempted = true

section

variable {w w' : World}

theorem InSession.congr (h : InSession w) (hfields : sessionFields w' = sessionFields w) :
    InSession w' := by
  simp only [sessionFields, Prod.mk.injEq] at hfields
  obtain ⟨heos, hpreroll, hattempted, hactive, -⟩ := hfields
  refine ⟨heos.trans h.noEos, hpreroll.trans h.noPreroll, fun hmode => ?_⟩
  rw [hattempted]
  exact h.attempted (hactive.symm.trans hmode)

theorem active_of_fields (hfields : sessionFields w' = sessionFields w) :
    w'.renderFallbackActive = w.renderFallbackActive := by
  simp only [sessionFields, Prod.mk.injEq] at hfields
  exact hfields.2.2.2.1

theorem phase_of_fields (hfields : sessionFields w' = sessionFields w) :
    w'.renderFallbackPhase = w.renderFallbackPhase := by
  simp only [sessionFields, Prod.mk.injEq] at hfields
  exact hfields.2.2.2.2

theorem Does.sessionFields_eq {K : Finset Kind} (h : Does K w w')
    (hK : .tune ∉ K ∧ .reset ∉ K ∧ .write ∉ K ∧ .fallback ∉ K) :
    sessionFields w' = sessionFields w := by
  apply h.keeps sessionFields
  intro k hk a b hR
  cases hR with
  | tune => exact absurd hk hK.1
  | reset => exact absurd hk hK.2.1
  | write => exact absurd hk hK.2.2.1
  | fallback => exact absurd hk hK.2.2.2
  | free => rw [freeRenderIo_eq]; rfl
  | complete => rw [completeEntry_eq]; rfl
  | detach => rw [detachEntry_eq]; rfl
  | _ => rfl

private theorem chooseTarget_fields (w : World) :
    sessionFields (chooseTarget w) = sessionFields w := by
  unfold chooseTarget
  split <;> rfl

private theorem freeRenderIoPool_fields (w : World) :
    sessionFields (freeRenderIoPool w) = sessionFields w := by
  unfold freeRenderIoPool
  split
  · rfl
  · exact (freeRenderIos_does _ w le_rfl).sessionFields_eq (by decide)

private theorem stopRenderWorker_fields (exited : Bool) (w : World) :
    sessionFields (stopRenderWorker exited w).2 = sessionFields w := by
  unfold stopRenderWorker
  split_ifs
  · rfl
  · rfl
  · exact freeRenderIoPool_fields _

private theorem allocateRenderIos_fields (requestLength n : Nat) (ios : List Bool) (w : World) :
    sessionFields (allocateRenderIos requestLength n ios w).2 = sessionFields w := by
  induction n generalizing ios w with
  | zero => rfl
  | succ n ih =>
      cases ios with
      | nil => exact freeRenderIoPool_fields w
      | cons allocated ios =>
          cases allocated with
          | false => exact freeRenderIoPool_fields w
          | true => exact ih ios (newRenderIo requestLength w)

private theorem allocateRenderIoPool_fields (i : PoolInput) (w : World) :
    sessionFields (allocateRenderIoPool i w).2 = sessionFields w := by
  unfold allocateRenderIoPool
  split_ifs
  · rfl
  · rfl
  · rfl
  all_goals exact allocateRenderIos_fields _ _ _ _

private theorem launchWorker_fields (i : SetStateInput) (w : World) :
    sessionFields (launchWorker i w).2 = sessionFields w := by
  unfold launchWorker startRenderWorker whenOk
  dsimp only
  split_ifs
  · rfl
  · exact (stopRenderWorker_fields _ _).trans (allocateRenderIoPool_fields _ _)
  all_goals exact allocateRenderIoPool_fields _ _

private theorem setWritePacket_fields (packetNumber eosPacketLength : ULONG) (h : InSession w) :
    sessionFields (setWritePacket packetNumber false eosPacketLength w).2 = sessionFields w := by
  unfold setWritePacket
  split
  · rfl
  · simp [h.noEos, sessionFields]

/-! ## The start -/

private theorem prepareRender_success {i : SetStateInput} (hok : (prepareRender i w).1 = .success) :
    ∃ phase, sessionFields (prepareRender i w).2 = (w.eosPacketNumber, 0, false, false, phase) := by
  obtain ⟨-, heq⟩ := whenOk_success ((NtStatus.isSuccess_iff _).mpr hok)
  unfold prepareRender at hok ⊢
  rw [heq] at hok ⊢
  obtain ⟨-, hprerolled⟩ := whenOk_success ((NtStatus.isSuccess_iff _).mpr hok)
  rw [hprerolled]
  have hready : sessionFields (prerollRender renderStartPrerollPackets i.prerolls
      (whenOk (viosndConfigurePcmFormat i.configure (beginRender w))
        (allocateRenderIoPool i.pool)).2).2 = sessionFields (beginRender w) := by
    refine ((prerollRender_does _ _ _).sessionFields_eq (by decide)).trans ?_
    have hconfigured := (viosndConfigurePcmFormat_does i.configure
      (beginRender w)).sessionFields_eq (by decide)
    unfold whenOk
    split
    · exact (allocateRenderIoPool_fields _ _).trans hconfigured
    · exact hconfigured
  simp only [sessionFields, Prod.mk.injEq] at hready ⊢
  exact ⟨_, hready.1, trivial, hready.2.2.1, hready.2.2.2.1, rfl⟩

theorem setState_run_steady (i : SetStateInput) (hidle : w.state ≠ .run)
    (heos : w.eosPacketNumber = maxULONG) (hok : (setState .run i w).1 = .success) :
    InSession (setState .run i w).2 ∧ (setState .run i w).2.renderFallbackActive = false := by
  rw [setState_start i w hidle] at hok ⊢
  obtain ⟨hprepared, -, heq⟩ := startRender_success hok
  obtain ⟨phase, hfields⟩ := prepareRender_success hprepared
  have hend : sessionFields (startRender i w).2 = (w.eosPacketNumber, 0, false, false, phase) := by
    rw [heq, launchWorker_fields]
    exact ((viosndPcmCommand_does .start i.start _).sessionFields_eq (by decide)).trans hfields
  simp only [sessionFields, Prod.mk.injEq] at hend
  obtain ⟨hnone, hpreroll, -, hactive, -⟩ := hend
  refine ⟨⟨hnone.trans heos, hpreroll, fun hmode => ?_⟩, hactive⟩
  rw [hactive] at hmode
  cases hmode

/-! ## The switch -/

/-- The stream when `SwitchRenderToFallback` begins to reclaim. -/
def haltCommands (i : SwitchInput) (w : World) : World :=
  (viosndReleasePcm i.release
    (viosndStopPcm i.stop { w with renderFallbackAttempted := true }).2).2

theorem haltForFallback_fields (i : SwitchInput) (w : World) :
    sessionFields (haltForFallback i w) = sessionFields { w with
      renderFallbackAttempted := true } :=
  (cancelRenderWrites_does i.cancel (haltCommands i w)).sessionFields_eq (by decide)

private theorem startFallback_fields (i : SwitchInput) (w : World) :
    ∃ active, sessionFields (startFallback i w).2 = (w.eosPacketNumber, w.renderPrerollPackets,
      w.renderFallbackAttempted, active, viosndFallbackInitialPhase) := by
  have hdoes : Does {.command, .preroll, .refuse} { w with
      renderFallbackActive := true, renderFallbackPhase := viosndFallbackInitialPhase }
      (whenOk (prepareFallback i w) (viosndStartPcm i.start)).2 := by
    refine whenOk_does (whenOk_does ?_ ?_) ?_
    · exact (viosndConfigurePcmFormat_does i.configure _).mono (by decide)
    · exact (prerollRender_does _ _ _).mono (by decide)
    · exact (viosndPcmCommand_does .start i.start _).mono (by decide)
  have hready := hdoes.sessionFields_eq (by decide)
  simp only [sessionFields, Prod.mk.injEq] at hready
  obtain ⟨heos, hpreroll, hattempted, hactive, hphase⟩ := hready
  unfold startFallback
  dsimp only
  split
  · exact ⟨true, by
      simp only [sessionFields, Prod.mk.injEq]
      exact ⟨heos, hpreroll, hattempted, hactive, hphase⟩⟩
  · exact ⟨false, by
      simp only [sessionFields, Prod.mk.injEq]
      exact ⟨heos, hpreroll, hattempted, trivial, hphase⟩⟩

private theorem switchRenderToFallback_steady (i : SwitchInput) (h : InSession w)
    (hinactive : w.renderFallbackActive = false) : InSession (switchRenderToFallback i w).2 ∧
      ((switchRenderToFallback i w).2.renderFallbackActive = true →
        (switchRenderToFallback i w).2.renderFallbackPhase = viosndFallbackInitialPhase) := by
  have hhalted := haltForFallback_fields i w
  simp only [sessionFields, Prod.mk.injEq] at hhalted
  obtain ⟨heos, hpreroll, hattempted, hactive, -⟩ := hhalted
  unfold switchRenderToFallback
  split
  · obtain ⟨active, hstarted⟩ := startFallback_fields i (haltForFallback i w)
    simp only [sessionFields, Prod.mk.injEq] at hstarted
    obtain ⟨heos', hpreroll', hattempted', -, hphase⟩ := hstarted
    refine ⟨⟨(heos'.trans heos).trans h.noEos, (hpreroll'.trans hpreroll).trans h.noPreroll,
      fun _ => hattempted'.trans hattempted⟩, fun _ => hphase⟩
  · refine ⟨⟨heos.trans h.noEos, hpreroll.trans h.noPreroll, fun _ => hattempted⟩, fun hmode => ?_⟩
    rw [hactive, hinactive] at hmode
    cases hmode

theorem maybeSwitchRenderFallback_active (qpc : LONGLONG) (i : SwitchInput) (h : InSession w)
    (hactive : w.renderFallbackActive = true) : maybeSwitchRenderFallback qpc i w = w := by
  unfold maybeSwitchRenderFallback
  rw [if_pos (Or.inl (h.attempted hactive))]

theorem maybeSwitchRenderFallback_notDue_fields (qpc : LONGLONG) (i : SwitchInput) (w : World)
    (hdue : ¬ SwitchDue qpc w) :
    ∃ attempted, sessionFields (maybeSwitchRenderFallback qpc i w) =
      (w.eosPacketNumber, w.renderPrerollPackets, attempted, w.renderFallbackActive,
        w.renderFallbackPhase) := by
  rcases maybeSwitchRenderFallback_notes qpc i w hdue with hsame | ⟨_, _, attempted, hnotes⟩
  · exact ⟨w.renderFallbackAttempted, by rw [hsame]; rfl⟩
  · exact ⟨attempted, by rw [hnotes]; rfl⟩

/-- A stream that enters the fallback does so at the initial phase. -/
theorem maybeSwitchRenderFallback_steady (qpc : LONGLONG) (i : SwitchInput) (h : InSession w)
    (hinactive : w.renderFallbackActive = false) : InSession (maybeSwitchRenderFallback qpc i w) ∧
      ((maybeSwitchRenderFallback qpc i w).renderFallbackActive = true →
        (maybeSwitchRenderFallback qpc i w).renderFallbackPhase = viosndFallbackInitialPhase) := by
  by_cases hdue : SwitchDue qpc w
  · rw [maybeSwitchRenderFallback_due qpc i w hdue]
    have hnoted : InSession (w.note (.counter qpc)) := h.congr rfl
    exact switchRenderToFallback_steady i hnoted hinactive
  · obtain ⟨attempted, hfields⟩ := maybeSwitchRenderFallback_notDue_fields qpc i w hdue
    simp only [sessionFields, Prod.mk.injEq] at hfields
    obtain ⟨heos, hpreroll, -, hactive, -⟩ := hfields
    have hstill := hactive.trans hinactive
    refine ⟨⟨heos.trans h.noEos, hpreroll.trans h.noPreroll, fun hmode => ?_⟩, fun hmode => ?_⟩
    all_goals
      rw [hstill] at hmode
      cases hmode

/-! ## Submissions -/

/-- A submission leaves all but the phase, and the phase is the one of the block it made. -/
private theorem submitRenderPacket_fields (packetNumber packetLength : ULONG) (o : TxSubmit)
    (w : World) :
    ∃ phase, sessionFields (submitRenderPacket packetNumber packetLength o w).2 =
      (w.eosPacketNumber, w.renderPrerollPackets, w.renderFallbackAttempted,
        w.renderFallbackActive, phase) := by
  rcases submitRenderPacket_sends packetNumber packetLength o w with
    ⟨memory, block, entry, w₀, rfl, -, -, -, heq⟩ | ⟨buffer, phase, -, status, -, w', hrefuse, heq⟩
  · rw [heq]
    exact ⟨_, rfl⟩
  · rw [heq]
    exact ⟨phase, hrefuse.sessionFields_eq (by decide)⟩

theorem submitNext_cases (o : TxSubmit) (h : InSession w) :
    (∃ packetLength, (viosndHasWritableRenderPacket w.nextSubmitPacket w.lastOsWritePacket = true ∨
        w.lastOsWritePacket = maxULONG) ∧
      (w.nextSubmitPacket ≠ maxULONG → packetLength = w.packetSize) ∧
      (submitNext o w).2 = (submitRenderPacket w.nextSubmitPacket packetLength o w).2) ∨
    submitNext o w = (false, w) := by
  unfold submitNext
  split
  · rename_i hwritable
    refine Or.inl ⟨_, Or.inl hwritable, fun hne => ?_, rfl⟩
    rw [if_neg fun heos => hne (heos.symm.trans h.noEos)]
  split
  · rename_i hcyclic
    rw [if_neg fun hpreroll => hpreroll h.noPreroll]
    exact Or.inl ⟨_, Or.inr hcyclic, fun _ => rfl, rfl⟩
  · exact Or.inr rfl

private theorem submitNext_steady (o : TxSubmit) (h : InSession w) : InSession (submitNext o w).2 ∧
    (submitNext o w).2.renderFallbackActive = w.renderFallbackActive := by
  rcases submitNext_cases o h with ⟨packetLength, -, -, heq⟩ | heq
  · obtain ⟨phase, hfields⟩ := submitRenderPacket_fields w.nextSubmitPacket packetLength o w
    rw [heq]
    simp only [sessionFields, Prod.mk.injEq] at hfields
    obtain ⟨heos, hpreroll, hattempted, hactive, -⟩ := hfields
    refine ⟨⟨heos.trans h.noEos, hpreroll.trans h.noPreroll, fun hmode => ?_⟩, hactive⟩
    exact hattempted.trans (h.attempted (hactive.symm.trans hmode))
  · rw [heq]
    exact ⟨h, rfl⟩

theorem submitPass_steady (o : TxSubmit) (h : InSession w) : InSession (submitPass o w).2 ∧
    (submitPass o w).2.renderFallbackActive = w.renderFallbackActive := by
  unfold submitPass
  split
  · exact submitNext_steady o h
  · exact ⟨h, rfl⟩

theorem submitLate_steady (o : TxSubmit) (h : InSession w) : InSession (submitLate o w) ∧
    (submitLate o w).renderFallbackActive = w.renderFallbackActive := by
  unfold submitLate
  split
  · exact submitNext_steady o h
  · exact ⟨h, rfl⟩

/-! ## All steps -/

/-- The steps that submit or switch. -/
def PeriodStep.Tunes : PeriodStep → Prop
  | .worker (.submit _) => True
  | .worker (.submitLate _) => True
  | .worker (.maybeSwitch _ _) => True
  | _ => False

theorem periodStep_fields (s : PeriodStep) (h : InSession w) (hs : ¬ s.Tunes) :
    sessionFields (periodStep w s) = sessionFields w := by
  cases s with
  | setWritePacket packetNumber eosPacketLength => exact setWritePacket_fields _ _ h
  | worker s =>
      cases s with
      | reclaim o => exact (reclaimRenderPacket_does o w).sessionFields_eq (by decide)
      | chooseTarget => exact chooseTarget_fields w
      | maybeSwitch => exact absurd trivial hs
      | submit => exact absurd trivial hs
      | submitLate => exact absurd trivial hs
  | getPosition qpc => exact (getPosition_does qpc w).sessionFields_eq (by decide)
  | getPresentationPosition qpc => exact (queryClock_does qpc w).sessionFields_eq (by decide)
  | stopWorker exited => exact stopRenderWorker_fields exited w
  | detach o => exact (detachRenderWrites_does [o] w).sessionFields_eq (by decide)
  | freePool => exact freeRenderIoPool_fields w
  | writeBuffer memory => rfl
  | enter s => rfl
  | command c answer => rfl

theorem periodStep_steady (s : PeriodStep) (h : InSession w) : InSession (periodStep w s) := by
  by_cases hs : s.Tunes
  · cases s with
    | worker s =>
        cases s with
        | maybeSwitch qpc i =>
            cases hmode : w.renderFallbackActive with
            | true =>
                simp only [periodStep, workerStep, maybeSwitchRenderFallback_active qpc i h hmode]
                exact h
            | false => exact (maybeSwitchRenderFallback_steady qpc i h hmode).1
        | submit o => exact (submitPass_steady o h).1
        | submitLate o => exact (submitLate_steady o h).1
        | _ => exact hs.elim
    | _ => exact hs.elim
  · exact h.congr (periodStep_fields s h hs)

end

end Viosnd.Render
