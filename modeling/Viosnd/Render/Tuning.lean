import Viosnd.Render.Outstanding

/-!
# The audio buffer and the phase

Few routines write to the audio buffer or to the phase of the resampler: a submission does, the
switch to the fallback and the start of a RUN period set the phase. A property of the two is kept
by every call when it is kept by these.
-/

namespace Viosnd.Render

open StepRun EffectSystem

/-- `P` is a property of the buffer and the phase, and is closed under the changes made to them. -/
structure TuneClosed (P : World → Prop) : Prop where
  frame : ∀ {w w' : World}, P w → w'.buffer = w.buffer →
    w'.renderFallbackPhase = w.renderFallbackPhase → P w'
  /-- The phase is set when a RUN period or the fallback starts. -/
  start : ∀ {w w' : World}, P w → w'.buffer = w.buffer →
    w'.renderFallbackPhase = 0 ∨ w'.renderFallbackPhase = viosndFallbackInitialPhase → P w'
  submit : ∀ {w : World} (packetNumber packetLength : ULONG) (o : TxSubmit), P w →
    P (submitRenderPacket packetNumber packetLength o w).2

private theorem Does.buffer_eq {K : Finset Kind} {w w' : World} (h : Does K w w')
    (hK : .tune ∉ K ∧ .reset ∉ K) :
    w'.buffer = w.buffer ∧ w'.renderFallbackPhase = w.renderFallbackPhase := by
  have hpair := h.keeps (fun w => (w.buffer, w.renderFallbackPhase)) fun k hk a b hR => by
    cases hR with
    | tune => exact absurd hk hK.1
    | reset => exact absurd hk hK.2
    | write => rw [setWritePacket_eq]
    | free => rw [freeRenderIo_eq]
    | complete => rw [completeEntry_eq]
    | detach => rw [detachEntry_eq]
    | _ => rfl
  exact Prod.ext_iff.mp hpair

namespace TuneClosed

variable {P : World → Prop} {w w' : World}

theorem does {K : Finset Kind} (hP : TuneClosed P) (hdoes : Does K w w')
    (hK : .tune ∉ K ∧ .reset ∉ K) (h : P w) : P w' :=
  have hsame := hdoes.buffer_eq hK
  hP.frame h hsame.1 hsame.2

theorem whenOk {r : NtStatus × World} {next : World → NtStatus × World} (h : P r.2)
    (hnext : ∀ w, P w → P (next w).2) : P (whenOk r next).2 := by
  unfold Render.whenOk
  split
  · exact hnext r.2 h
  · exact h

theorem submitRenderSilencePacket (hP : TuneClosed P) (packetNumber : ULONG) (o : TxSubmit)
    (h : P w) : P (submitRenderSilencePacket packetNumber o w).2 := by
  rcases submitRenderSilencePacket_cases packetNumber o w with
    ⟨entry, -, -, heq⟩ | ⟨status, -, w', hrefuse, heq⟩
  · rw [heq]
    exact hP.frame h rfl rfl
  · rw [heq]
    exact hP.does hrefuse (by decide) h

theorem submitNext (hP : TuneClosed P) (o : TxSubmit) (h : P w) : P (submitNext o w).2 := by
  unfold Render.submitNext
  split
  · exact hP.submit _ _ o h
  split
  · split
    · have hsilence := hP.submitRenderSilencePacket w.nextSubmitPacket o h
      dsimp only
      split
      · exact hP.frame hsilence rfl rfl
      · exact hsilence
    · exact hP.submit _ _ o h
  · exact h

theorem chooseTarget (hP : TuneClosed P) (h : P w) : P (chooseTarget w) := by
  unfold Render.chooseTarget
  split
  · exact hP.frame h rfl rfl
  · exact hP.frame h rfl rfl

/-! ## The pool and the worker thread -/

theorem freeRenderIoPool (hP : TuneClosed P) (h : P w) : P (freeRenderIoPool w) := by
  unfold Render.freeRenderIoPool
  split
  · exact h
  · have hfreed := hP.does (freeRenderIos_does w.renderIoFreeCount w le_rfl) (by decide) h
    exact hP.frame hfreed rfl rfl

theorem stopRenderWorker (hP : TuneClosed P) (exited : Bool) (h : P w) :
    P (stopRenderWorker exited w).2 := by
  unfold Render.stopRenderWorker
  split_ifs
  · exact hP.frame h rfl rfl
  · exact h
  · exact hP.freeRenderIoPool (hP.frame h rfl rfl)

theorem allocateRenderIos (hP : TuneClosed P) (requestLength n : Nat) (ios : List Bool) (h : P w) :
    P (allocateRenderIos requestLength n ios w).2 := by
  induction n generalizing ios w with
  | zero => exact h
  | succ n ih =>
      cases ios with
      | nil => exact hP.freeRenderIoPool h
      | cons allocated ios =>
          cases allocated with
          | false => exact hP.freeRenderIoPool h
          | true => exact ih ios (hP.frame h rfl rfl)

theorem allocateRenderIoPool (hP : TuneClosed P) (i : PoolInput) (h : P w) :
    P (allocateRenderIoPool i w).2 := by
  unfold Render.allocateRenderIoPool
  split_ifs
  · exact h
  · exact h
  · exact h
  all_goals exact hP.allocateRenderIos _ _ _ (hP.frame h rfl rfl)

theorem launchWorker (hP : TuneClosed P) (i : SetStateInput) (h : P w) :
    P (launchWorker i w).2 := by
  have hentered : P { anchorClock i.qpc i.frequency w with
    state := .run } := hP.frame h rfl rfl
  unfold Render.launchWorker startRenderWorker
  split
  · exact hentered
  · refine whenOk (hP.allocateRenderIoPool i.worker.pool hentered) fun w h => ?_
    split_ifs
    · exact hP.stopRenderWorker _ h
    · exact h
    · exact h
    · exact hP.frame h rfl rfl

/-! ## The worker -/

theorem startFallback (hP : TuneClosed P) (i : SwitchInput) (h : P w) :
    P (startFallback i w).2 := by
  have hbegun : P { w with
    renderFallbackActive := true, renderFallbackPhase := viosndFallbackInitialPhase } :=
    hP.start h rfl (Or.inr rfl)
  have hready : P (Render.whenOk (prepareFallback i w) (viosndStartPcm i.start)).2 := by
    refine whenOk (whenOk ?_ fun w h => ?_) fun w h => ?_
    · exact hP.does (viosndConfigurePcmFormat_does i.configure _) (by decide) hbegun
    · exact hP.does (prerollRender_does _ _ w) (by decide) h
    · exact hP.does (viosndPcmCommand_does .start i.start w) (by decide) h
  unfold Render.startFallback
  dsimp only
  split
  · exact hP.frame hready rfl rfl
  · exact hP.frame hready rfl rfl

theorem haltForFallback (hP : TuneClosed P) (i : SwitchInput) (h : P w) :
    P (haltForFallback i w) := by
  have hhalted : P (viosndReleasePcm i.release (viosndStopPcm i.stop { w with
    renderFallbackAttempted := true }).2).2 := hP.frame h rfl rfl
  exact hP.does (cancelRenderWrites_does i.cancel _) (by decide) hhalted

theorem maybeSwitchRenderFallback (hP : TuneClosed P) (qpc : LONGLONG) (i : SwitchInput)
    (h : P w) : P (maybeSwitchRenderFallback qpc i w) := by
  have hnoted : P (w.note (.counter qpc)) := hP.frame h rfl rfl
  have hswitched : P (switchRenderToFallback i (w.note (.counter qpc))).2 := by
    unfold switchRenderToFallback
    split
    · exact hP.startFallback i (hP.haltForFallback i hnoted)
    · exact hP.haltForFallback i hnoted
  unfold Render.maybeSwitchRenderFallback
  dsimp only
  split
  · exact h
  split
  · exact hP.frame hnoted rfl rfl
  split
  · exact hnoted
  · split
    · exact hP.frame hnoted rfl rfl
    · exact hP.frame hnoted rfl rfl
  · exact hswitched

theorem workerStep (hP : TuneClosed P) (s : WorkerStep) (h : P w) : P (workerStep w s) := by
  cases s with
  | reclaim o => exact hP.does (reclaimRenderPacket_does o w) (by decide) h
  | maybeSwitch qpc i => exact hP.maybeSwitchRenderFallback qpc i h
  | chooseTarget => exact hP.chooseTarget h
  | submit o =>
      change P (submitPass o w).2
      unfold submitPass
      split
      · exact hP.submitNext o h
      · exact h
  | submitLate o =>
      change P (submitLate o w)
      unfold submitLate
      split
      · exact hP.submitNext o h
      · exact h

theorem workerSteps (hP : TuneClosed P) (steps : List WorkerStep) (h : P w) :
    P (run Render.workerStep w steps) :=
  run_invariant (fun _ s h => hP.workerStep s h) steps h

/-! ## State transitions -/

theorem cancelAndFree (hP : TuneClosed P) (i : CancelInput) (h : P w) :
    P (Render.freeRenderIoPool (cancelRenderWrites i w)) :=
  hP.freeRenderIoPool (hP.does (cancelRenderWrites_does i w) (by decide) h)

theorem prepareRender (hP : TuneClosed P) (i : SetStateInput) (h : P w) :
    P (prepareRender i w).2 := by
  have hbegun : P (beginRender w) := hP.start h rfl (Or.inl rfl)
  refine whenOk (whenOk ?_ fun w h => ?_) fun w h => ?_
  · exact hP.does (viosndConfigurePcmFormat_does i.configure _) (by decide) hbegun
  · exact hP.allocateRenderIoPool i.pool h
  · refine whenOk ?_ fun w h => hP.frame h rfl rfl
    exact hP.does (prerollRender_does _ _ w) (by decide) h

theorem launchRender (hP : TuneClosed P) (oldState : KsState) (i : SetStateInput) (h : P w) :
    P (launchRender oldState i w).2 := by
  have hlaunched := hP.launchWorker i h
  unfold Render.launchRender
  dsimp only
  split
  · exact hlaunched
  · have hstopped : P (viosndReleasePcm i.release (viosndStopPcm i.stop
        (run Render.workerStep (Render.launchWorker i w).2 i.lost)).2).2 :=
      hP.frame (hP.workerSteps i.lost hlaunched) rfl rfl
    exact hP.frame (hP.workerSteps i.lostLate hstopped) rfl rfl

theorem startRender (hP : TuneClosed P) (i : SetStateInput) (h : P w) : P (startRender i w).2 := by
  have hready : P (Render.whenOk (Render.whenOk (Render.prepareRender i w)
      (viosndStartPcm i.start)) (Render.launchRender w.state i)).2 := by
    refine whenOk (whenOk (hP.prepareRender i h) fun w h => ?_) fun w' h => ?_
    · exact hP.does (viosndPcmCommand_does .start i.start w) (by decide) h
    · exact hP.launchRender w.state i h
  unfold Render.startRender
  dsimp only
  split
  · exact hready
  · exact hP.frame (hP.cancelAndFree i.cancel hready) rfl rfl

theorem quiesceRender (hP : TuneClosed P) (target : KsState) (i : SetStateInput) (h : P w) :
    P (quiesceRender target i w).2 := by
  have hentered : P { w with
    state := target } := hP.frame h rfl rfl
  have hfirst : P (awaitWorker target i w).2 := by
    unfold awaitWorker
    dsimp only
    split
    · exact hP.stopRenderWorker i.exited (hP.workerSteps i.stopping hentered)
    · exact hP.workerSteps i.stopping hentered
  have hagain : ∀ stopped w, P w → P (awaitWorkerAgain stopped i w).2 := by
    intro stopped w h
    have hlingering : P (if stopped then w else run Render.workerStep w i.lingering) := by
      split
      · exact h
      · exact hP.workerSteps i.lingering h
    unfold awaitWorkerAgain
    dsimp only
    generalize (if stopped = true then w else run Render.workerStep w i.lingering) = w₁
      at hlingering ⊢
    split
    · exact hP.stopRenderWorker i.exitedLate hlingering
    · exact hlingering
  have hreleased : P (viosndReleasePcm i.release (viosndStopPcm i.stop
    (awaitWorker target i w).2).2).2 := hP.frame hfirst rfl rfl
  exact hP.cancelAndFree i.cancel (hagain (awaitWorker target i w).1 _ hreleased)

theorem stopRender (hP : TuneClosed P) (target : KsState) (i : SetStateInput) (h : P w) :
    P (stopRender target i w).2 := by
  have hquiet := hP.quiesceRender target i h
  unfold Render.stopRender
  dsimp only
  split
  · split
    · exact hP.start hquiet rfl (Or.inl rfl)
    · exact hP.frame hquiet rfl rfl
  · exact hP.frame hquiet rfl rfl

theorem step (hP : TuneClosed P) (a : Action) (h : P w) : P (step w a) := by
  cases a with
  | setState target i =>
      change P (setState target i w).2
      unfold setState
      split
      · exact hP.startRender i h
      split
      · exact hP.stopRender target i h
      · exact hP.frame h rfl rfl
  | setWritePacket packetNumber endOfStream eosPacketLength =>
      change P (setWritePacket packetNumber endOfStream eosPacketLength w).2
      rw [setWritePacket_eq]
      exact hP.frame h rfl rfl
  | worker s => exact hP.workerStep s h
  | getPosition qpc => exact hP.does (getPosition_does qpc w) (by decide) h
  | getPresentationPosition qpc => exact hP.does (queryClock_does qpc w) (by decide) h

end TuneClosed

/-! ## Calls and clients -/

/-- The calls of a stream, and the writes of its client into the WaveRT buffer between them. -/
inductive ClientStep where
  | call (c : Call)
  | writeBuffer (memory : Memory)

def clientStep (w : World) : ClientStep → World
  | .call c => callStep w c
  | .writeBuffer memory => { w with
      buffer := w.buffer.map fun _ => memory }

end Viosnd.Render
