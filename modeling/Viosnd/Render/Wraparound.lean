import Viosnd.Render.Shifted

/-!
# Runs of a stream whose packet numbers wrap around

Runs with shifted numbers, step by step. The stream and the shifted one stay the same but for their
numbers until one of them comes to `MAXULONG`.
-/

namespace Viosnd.Render

open StepRun EffectSystem

section

variable {notificationCount packetSize s : ULONG} {w w' : World}

/-! ## The worker -/

/-- A submission that did not touch the last written packet and the end of the stream. -/
theorem Shifted.submitted {v v' : World} (h : Shifted notificationCount packetSize s w w')
    (hsame : v'.unnumbered (packetOffset · notificationCount packetSize) =
      v.unnumbered (packetOffset · notificationCount packetSize))
    (hnext : v'.nextSubmitPacket = v.nextSubmitPacket + shiftOf s w)
    {K : Finset Kind} (hK : .write ∉ K ∧ .reset ∉ K) (hv : Does K w v) (hv' : Does K w' v') :
    Shifted notificationCount packetSize s v v' := by
  have hlast := hv.lastOsWritePacket_eq hK
  have heos := hv.eosPacketNumber_eq hK
  constructor
  · exact h.slot
  · exact hsame
  · unfold shiftOf
    rw [hlast]
    exact hnext
  · rw [hlast, hv'.lastOsWritePacket_eq hK]
    exact h.last
  · rw [heos, hlast, hv'.eosPacketNumber_eq hK]
    exact h.eos
  · rw [hv.geometry_eq]
    exact h.geometry

private theorem Shifted.packetOffset_shiftOf (h : Shifted notificationCount packetSize s w w')
    (p : ULONG) : packetOffset (p + shiftOf s w) notificationCount packetSize =
      packetOffset p notificationCount packetSize := by
  unfold shiftOf
  split
  · exact congrArg (packetOffset · notificationCount packetSize) (BitVec.add_zero p)
  · exact h.slot p

private theorem Shifted.writable_eq (h : Shifted notificationCount packetSize s w w') :
    viosndHasWritableRenderPacket w'.nextSubmitPacket w'.lastOsWritePacket =
      viosndHasWritableRenderPacket w.nextSubmitPacket w.lastOsWritePacket := by
  unfold viosndHasWritableRenderPacket
  by_cases hcyclic : w.lastOsWritePacket = maxULONG
  · simp [hcyclic, h.cyclic_iff.mpr hcyclic]
  · have hshift : shiftOf s w = s := if_neg hcyclic
    rw [h.next, hshift, h.last hcyclic, viosndPacketNumberLessOrEqual_add]
    have hcyclic' : w.lastOsWritePacket + s ≠ maxULONG := by
      rw [← h.last hcyclic]
      exact fun hmax => hcyclic (h.cyclic_iff.mp hmax)
    simp [hcyclic, hcyclic']

private theorem Shifted.eos_eq_iff {packetNumber : ULONG}
    (h : Shifted notificationCount packetSize s w w')
    (hclear : w.lastOsWritePacket ≠ maxULONG → ClearNumber s packetNumber) :
    w'.eosPacketNumber = packetNumber + shiftOf s w ↔ w.eosPacketNumber = packetNumber := by
  by_cases hcyclic : w.lastOsWritePacket = maxULONG
  · have hnone : w.eosPacketNumber = maxULONG := by
      by_contra hsome
      exact (h.eos hsome).1 hcyclic
    have hshift : packetNumber + shiftOf s w = packetNumber := by
      unfold shiftOf
      rw [if_pos hcyclic]
      exact BitVec.add_zero packetNumber
    rw [h.eos_iff.mpr hnone, hnone, hshift]
  have hshift : shiftOf s w = s := if_neg hcyclic
  have hnumber := hclear hcyclic
  rw [hshift]
  by_cases hnone : w.eosPacketNumber = maxULONG
  · rw [h.eos_iff.mpr hnone, hnone]
    exact iff_of_false hnumber.2.symm hnumber.1.symm
  · rw [(h.eos hnone).2]
    exact add_left_inj s

/-- In a stream with clear numbers a submission finds the packets and the end of the stream where
it finds them in the shifted one. -/
theorem Shifted.aligned (h : Shifted notificationCount packetSize s w w')
    (hclear : SubmitClear s w) :
    Aligned w w' w.nextSubmitPacket (shiftOf s w) := by
  have hgeometry := h.geometry
  simp only [Prod.mk.injEq] at hgeometry
  constructor
  · rw [hgeometry.1, hgeometry.2]
    exact h.packetOffset_shiftOf
  · intro j
    rw [Ne, h.cyclic_iff]
    apply and_congr_right
    intro hwritten
    have hshift : shiftOf s w = s := if_neg hwritten
    have hnumber : w.nextSubmitPacket + s + j = w.nextSubmitPacket + j + s := by bv_omega
    rw [hshift, h.last hwritten, hnumber, viosndPacketNumberLessOrEqual_add]
  · intro hactive j hj hnot
    have hnumber : w.nextSubmitPacket + shiftOf s w + BitVec.ofNat 32 j =
        w.nextSubmitPacket + BitVec.ofNat 32 j + shiftOf s w := by bv_omega
    rw [hnumber]
    apply h.eos_eq_iff
    intro hwritten
    apply hclear hwritten j
    · rw [if_pos hactive]
      exact hj
    · by_contra hbeyond
      exact hnot ⟨hwritten, hbeyond⟩

theorem SubmitClear.first (h : SubmitClear s w) (hwritten : w.lastOsWritePacket ≠ maxULONG)
    (hwritable : viosndPacketNumberLessOrEqual w.nextSubmitPacket w.lastOsWritePacket = true) :
    ClearNumber s w.nextSubmitPacket := by
  have hzero : w.nextSubmitPacket + BitVec.ofNat 32 0 = w.nextSubmitPacket := BitVec.add_zero _
  have hfirst := h hwritten 0 (by split <;> decide)
  rw [hzero] at hfirst
  exact hfirst hwritable

private theorem submitRenderSilencePacket_next (packetNumber : ULONG) (o : TxSubmit) (w : World) :
    (submitRenderSilencePacket packetNumber o w).2.nextSubmitPacket =
      if (submitRenderSilencePacket packetNumber o w).1.isSuccess ∧ packetNumber ≠ maxULONG then
        packetNumber + 1
      else w.nextSubmitPacket := by
  rcases submitRenderSilencePacket_cases packetNumber o w with
    ⟨entry, -, -, heq⟩ | ⟨status, hstatus, v, hrefuse, heq⟩
  · rw [heq]
    simp [NtStatus.isSuccess]
  · rw [heq, if_neg fun hok => hstatus ((NtStatus.isSuccess_iff _).mp hok.1)]
    exact hrefuse.nextSubmitPacket_eq (by decide)

/-- The two streams after the same kind of submission. -/
def SameSend (notificationCount packetSize t : ULONG) {α : Type} (r r' : α × World) : Prop :=
  r'.1 = r.1 ∧ r'.2.unnumbered (packetOffset · notificationCount packetSize) =
    r.2.unnumbered (packetOffset · notificationCount packetSize) ∧
  r'.2.nextSubmitPacket = r.2.nextSubmitPacket + t

private theorem not_writable_of_cyclic (hcyclic : w.lastOsWritePacket = maxULONG) :
    viosndHasWritableRenderPacket w.nextSubmitPacket w.lastOsWritePacket ≠ true := by
  simp [viosndHasWritableRenderPacket, hcyclic]

/-- Silent packets of the cyclic mode have the same numbers in both streams. -/
private theorem submitNext_silence (o : TxSubmit) (h : Shifted notificationCount packetSize s w w')
    (hcyclic : w.lastOsWritePacket = maxULONG) (hpreroll : w.renderPrerollPackets ≠ 0) :
    SameSend notificationCount packetSize 0 (submitNext o w) (submitNext o w') := by
  have hcyclic' := h.cyclic_iff.mpr hcyclic
  have hcount : w'.renderPrerollPackets = w.renderPrerollPackets :=
    read_eq World.renderPrerollPackets (fun _ => rfl) h.same
  have hnext : w'.nextSubmitPacket = w.nextSubmitPacket := by
    rw [h.next]
    unfold shiftOf
    rw [if_pos hcyclic]
    exact BitVec.add_zero _
  obtain ⟨hstatus, hsame⟩ := submitRenderSilencePacket_unaware w.nextSubmitPacket o w w' h.same
  have hnumber := submitRenderSilencePacket_next w.nextSubmitPacket o w
  have hnumber' := submitRenderSilencePacket_next w.nextSubmitPacket o w'
  rw [hstatus, hnext, ← hnumber] at hnumber'
  have hplayed : Unaware (packetOffset · notificationCount packetSize) fun w => { w with
      renderPrerollPackets := w.renderPrerollPackets - 1 } := Unaware.of_commutes fun _ => rfl
  unfold submitNext
  rw [if_neg (not_writable_of_cyclic hcyclic), if_neg (not_writable_of_cyclic hcyclic'),
    if_pos hcyclic, if_pos hcyclic', hcount, if_pos hpreroll, if_pos hpreroll, hnext]
  dsimp only
  rw [hstatus]
  refine ⟨rfl, ?_, ?_⟩
  · split
    · exact hplayed _ _ hsame
    · exact hsame
  · refine Eq.trans ?_ (BitVec.add_zero _).symm
    split
    · exact hnumber'
    · exact hnumber'

private theorem submitNext_shift (o : TxSubmit) (h : Shifted notificationCount packetSize s w w')
    (hclear : SubmitClear s w) :
    SameSend notificationCount packetSize (shiftOf s w) (submitNext o w) (submitNext o w') := by
  have haligned := h.aligned hclear
  obtain ⟨hfields, -⟩ := h.reads
  simp only [Prod.mk.injEq] at hfields
  have hpacket : ∀ packetLength, maskNumber (w.nextSubmitPacket + shiftOf s w) =
      maskNumber w.nextSubmitPacket → SameSend notificationCount packetSize (shiftOf s w)
        (submitRenderPacket w.nextSubmitPacket packetLength o w)
        (submitRenderPacket w'.nextSubmitPacket packetLength o w') := by
    intro packetLength hmask
    rw [h.next]
    exact submitRenderPacket_shift o h haligned hmask h.next
  have hmodes := h.writable_eq
  by_cases hwritable : viosndHasWritableRenderPacket w.nextSubmitPacket w.lastOsWritePacket = true
  · have hwritten := hwritable
    simp only [viosndHasWritableRenderPacket, Bool.and_eq_true, decide_eq_true_eq] at hwritten
    have hnumber := hclear.first hwritten.1 hwritten.2
    have hmask : maskNumber (w.nextSubmitPacket + shiftOf s w) = maskNumber w.nextSubmitPacket := by
      have hshift : shiftOf s w = s := if_neg hwritten.1
      rw [hshift]
      exact hnumber.mask
    have heos : (w'.eosPacketNumber = w'.nextSubmitPacket) ↔
        w.eosPacketNumber = w.nextSubmitPacket := by
      rw [h.next]
      exact h.eos_eq_iff fun _ => hnumber
    have hsent := hpacket
      (if w.eosPacketNumber = w.nextSubmitPacket then w.eosPacketLength else w.packetSize) hmask
    unfold submitNext
    rw [if_pos hwritable, if_pos (hmodes.trans hwritable)]
    simp only [heos, hfields.1, hfields.2.1]
    exact ⟨congrArg NtStatus.isSuccess hsent.1, hsent.2⟩
  have hwritable' : viosndHasWritableRenderPacket w'.nextSubmitPacket w'.lastOsWritePacket ≠ true :=
    hmodes ▸ hwritable
  by_cases hcyclic : w.lastOsWritePacket = maxULONG
  · have hshift : shiftOf s w = 0 := if_pos hcyclic
    by_cases hpreroll : w.renderPrerollPackets ≠ 0
    · rw [hshift]
      exact submitNext_silence o h hcyclic hpreroll
    · have hcount : w'.renderPrerollPackets = w.renderPrerollPackets :=
        read_eq World.renderPrerollPackets (fun _ => rfl) h.same
      have hmask : maskNumber (w.nextSubmitPacket + shiftOf s w) =
          maskNumber w.nextSubmitPacket := by
        rw [hshift]
        exact congrArg maskNumber (BitVec.add_zero _)
      have hsent := hpacket w.packetSize hmask
      unfold submitNext
      rw [if_neg hwritable, if_neg hwritable', if_pos hcyclic, if_pos (h.cyclic_iff.mpr hcyclic),
        hcount, if_neg hpreroll, if_neg hpreroll, hfields.2.1]
      exact ⟨congrArg NtStatus.isSuccess hsent.1, hsent.2⟩
  · unfold submitNext
    rw [if_neg hwritable, if_neg hwritable', if_neg hcyclic,
      if_neg fun hcyclic' => hcyclic (h.cyclic_iff.mp hcyclic')]
    exact ⟨rfl, h.same, h.next⟩

/-- A submission that comes to packets with clear numbers only. -/
def WorkerClear (s : ULONG) (w : World) : WorkerStep → Prop
  | .submit _ => w.state = .run → w.outstandingWrites < w.targetOutstanding → SubmitClear s w
  | .submitLate _ => w.outstandingWrites < w.targetOutstanding → SubmitClear s w
  | _ => True

theorem Shifted.submitNext (o : TxSubmit) (h : Shifted notificationCount packetSize s w w')
    (hroom : w.outstandingWrites < w.targetOutstanding)
    (hroom' : w'.outstandingWrites < w'.targetOutstanding) (hclear : SubmitClear s w) :
    (Render.submitNext o w').1 = (Render.submitNext o w).1 ∧
      Shifted notificationCount packetSize s (Render.submitNext o w).2
        (Render.submitNext o w').2 := by
  obtain ⟨hmore, hsame, hnext⟩ := submitNext_shift o h hclear
  exact ⟨hmore, h.submitted hsame hnext (by decide) (submitNext_does o w hroom)
    (submitNext_does o w' hroom')⟩

theorem Shifted.submitPass (o : TxSubmit) (h : Shifted notificationCount packetSize s w w')
    (hclear : WorkerClear s w (.submit o)) :
    (Render.submitPass o w').1 = (Render.submitPass o w).1 ∧
      Shifted notificationCount packetSize s (Render.submitPass o w).2
        (Render.submitPass o w').2 := by
  have hgo : (w'.state, w'.outstandingWrites, w'.targetOutstanding) =
      (w.state, w.outstandingWrites, w.targetOutstanding) :=
    read_eq (fun w => (w.state, w.outstandingWrites, w.targetOutstanding)) (fun _ => rfl) h.same
  simp only [Prod.mk.injEq] at hgo
  obtain ⟨hstate, hout, htarget⟩ := hgo
  unfold Render.submitPass
  rw [hstate, hout, htarget]
  split
  · rename_i hpass
    have hroom' : w'.outstandingWrites < w'.targetOutstanding := by
      rw [hout, htarget]
      exact hpass.2
    exact h.submitNext o hpass.2 hroom' (hclear hpass.1 hpass.2)
  · exact ⟨rfl, h⟩

theorem Shifted.submitLate (o : TxSubmit) (h : Shifted notificationCount packetSize s w w')
    (hclear : WorkerClear s w (.submitLate o)) :
    Shifted notificationCount packetSize s (Render.submitLate o w) (Render.submitLate o w') := by
  have hgo : (w'.outstandingWrites, w'.targetOutstanding) =
      (w.outstandingWrites, w.targetOutstanding) :=
    read_eq (fun w => (w.outstandingWrites, w.targetOutstanding)) (fun _ => rfl) h.same
  simp only [Prod.mk.injEq] at hgo
  unfold Render.submitLate
  rw [hgo.1, hgo.2]
  split
  · rename_i hroom
    have hroom' : w'.outstandingWrites < w'.targetOutstanding := by
      rw [hgo.1, hgo.2]
      exact hroom
    exact (h.submitNext o hroom hroom' (hclear hroom)).2
  · exact h

private theorem maybeSwitchRenderFallback_keeps (qpc : LONGLONG) (i : SwitchInput) (w : World) :
    Does (insert .reading (insert .tune switchKinds)) w (maybeSwitchRenderFallback qpc i w) := by
  by_cases hdue : SwitchDue qpc w
  · have hread : Does (insert .reading (insert .tune switchKinds)) w (w.note (.counter qpc)) :=
      Within.single (k := .reading) (by decide) (.reading qpc w)
    rw [maybeSwitchRenderFallback_due qpc i w hdue]
    exact hread.trans ((switchRenderToFallback_does i _).mono (by decide))
  · exact (maybeSwitchRenderFallback_notDue qpc i w hdue).mono (by decide)

theorem Shifted.workerStep (step : WorkerStep) (h : Shifted notificationCount packetSize s w w')
    (hclear : WorkerClear s w step) :
    Shifted notificationCount packetSize s (Render.workerStep w step)
      (Render.workerStep w' step) := by
  cases step with
  | reclaim o =>
      exact h.state (reclaimRenderPacket_unaware o).state (reclaimRenderPacket_does o) (by decide)
  | maybeSwitch qpc i =>
      exact h.state (maybeSwitchRenderFallback_unaware qpc i)
        (maybeSwitchRenderFallback_keeps qpc i) (by decide)
  | chooseTarget => exact h.state chooseTarget_unaware chooseTarget_does (by decide)
  | submit o => exact (h.submitPass o hclear).2
  | submitLate o => exact h.submitLate o hclear

theorem Shifted.workerSteps (steps : List WorkerStep)
    (h : Shifted notificationCount packetSize s w w')
    (hclear : Guarded Render.workerStep (WorkerClear s) w steps) :
    Shifted notificationCount packetSize s (run Render.workerStep w steps)
      (run Render.workerStep w' steps) := by
  induction steps generalizing w w' with
  | nil => exact h
  | cons step steps ih => exact ih (h.workerStep step hclear.1) hclear.2

/-! ## State transitions -/

def haltRender (i : SetStateInput) (w : World) : World :=
  (viosndReleasePcm i.release (viosndStopPcm i.stop w).2).2

private theorem Shifted.haltRender (i : SetStateInput)
    (h : Shifted notificationCount packetSize s w w') :
    Shifted notificationCount packetSize s (haltRender i w) (haltRender i w') := by
  have hstopped := (h.call (viosndPcmCommand_unaware .stop i.stop)
    (viosndPcmCommand_does .stop i.stop) (by decide)).2
  exact (hstopped.call (viosndPcmCommand_unaware .release i.release)
    (viosndPcmCommand_does .release i.release) (by decide)).2

theorem Shifted.enter (target : KsState) (h : Shifted notificationCount packetSize s w w') :
    Shifted notificationCount packetSize s { w with
      state := target } { w' with
      state := target } :=
  h.keep (Unaware.of_commutes (f := fun w => { w with
    state := target }) (fun _ => rfl) w w' h.same) rfl rfl rfl

theorem Shifted.cancelAndFree (i : CancelInput)
    (h : Shifted notificationCount packetSize s w w') :
    Shifted notificationCount packetSize s (freeRenderIoPool (cancelRenderWrites i w))
      (freeRenderIoPool (cancelRenderWrites i w')) :=
  (h.state (cancelRenderWrites_unaware i) (cancelRenderWrites_does i) (by decide)).state
    freeRenderIoPool_unaware freeRenderIoPool_does (by decide)

/-- The worker that is lost between START and the clean-up comes to clear numbers only. -/
def StartClear (s : ULONG) (i : SetStateInput) (w : World) : Prop :=
  let ready := whenOk (prepareRender i w) (viosndStartPcm i.start)
  ready.1.isSuccess = true → (launchWorker i ready.2).1.isSuccess ≠ true →
    let lost := run Render.workerStep (launchWorker i ready.2).2 i.lost
    Guarded Render.workerStep (WorkerClear s) (launchWorker i ready.2).2 i.lost ∧
      Guarded Render.workerStep (WorkerClear s) (Render.haltRender i lost) i.lostLate

/-- So does the worker that is on its way out of a stop. -/
def StopClear (s : ULONG) (target : KsState) (i : SetStateInput) (w : World) : Prop :=
  Guarded Render.workerStep (WorkerClear s) { w with state := target } i.stopping ∧
    ((awaitWorker target i w).1 = false → Guarded Render.workerStep (WorkerClear s)
      (Render.haltRender i (awaitWorker target i w).2) i.lingering)

theorem Shifted.launchRender (oldState : KsState) (i : SetStateInput)
    (h : Shifted notificationCount packetSize s w w')
    (hclear : (launchWorker i w).1.isSuccess ≠ true →
      Guarded Render.workerStep (WorkerClear s) (launchWorker i w).2 i.lost ∧
      Guarded Render.workerStep (WorkerClear s)
        (Render.haltRender i (run Render.workerStep (launchWorker i w).2 i.lost)) i.lostLate) :
    (Render.launchRender oldState i w').1 = (Render.launchRender oldState i w).1 ∧
      Shifted notificationCount packetSize s (Render.launchRender oldState i w).2
        (Render.launchRender oldState i w').2 := by
  have hlaunched := h.call (launchWorker_unaware i) (fun w => (launchWorker_does i w).1) (by decide)
  by_cases hok : (launchWorker i w).1.isSuccess = true
  · rw [launchRender_of_success hok, launchRender_of_success (hlaunched.1 ▸ hok)]
    exact hlaunched
  · obtain ⟨hlost, hlate⟩ := hclear hok
    have hhalted := (hlaunched.2.workerSteps i.lost hlost).haltRender i
    rw [launchRender_of_failure hok, launchRender_of_failure (hlaunched.1 ▸ hok)]
    exact ⟨hlaunched.1, (hhalted.workerSteps i.lostLate hlate).enter oldState⟩

theorem Shifted.abortRender (oldState : KsState) (i : SetStateInput)
    (h : Shifted notificationCount packetSize s w w') :
    Shifted notificationCount packetSize s (Render.abortRender oldState i w)
      (Render.abortRender oldState i w') := by
  have hcleared := (h.cancelAndFree i.cancel).state
    (Unaware.of_commutes (f := clearAnchor) fun _ => rfl) (fun w => Does.one (.clear w)) (by decide)
  exact hcleared.enter oldState

theorem Shifted.startRender (i : SetStateInput) (h : Shifted notificationCount packetSize s w w')
    (hclear : StartClear s i w) :
    (Render.startRender i w').1 = (Render.startRender i w).1 ∧
      Shifted notificationCount packetSize s (Render.startRender i w).2
        (Render.startRender i w').2 := by
  have hstate : w'.state = w.state := read_eq World.state (fun _ => rfl) h.same
  have hready := h.call ((prepareRender_unaware i).whenOk (viosndPcmCommand_unaware .start i.start))
    (fun w => whenOk_does ((prepareRender_does i w).mono (by decide))
      ((viosndPcmCommand_does .start i.start _).mono (by decide)))
    (K := prepareKinds) (by decide)
  have hlaunched : (whenOk (whenOk (prepareRender i w') (viosndStartPcm i.start))
        (Render.launchRender w'.state i)).1 =
      (whenOk (whenOk (prepareRender i w) (viosndStartPcm i.start))
        (Render.launchRender w.state i)).1 ∧
      Shifted notificationCount packetSize s
        (whenOk (whenOk (prepareRender i w) (viosndStartPcm i.start))
          (Render.launchRender w.state i)).2
        (whenOk (whenOk (prepareRender i w') (viosndStartPcm i.start))
          (Render.launchRender w'.state i)).2 := by
    rw [hstate]
    by_cases hok : (whenOk (prepareRender i w) (viosndStartPcm i.start)).1.isSuccess = true
    · rw [whenOk_of_success hok, whenOk_of_success (hready.1 ▸ hok)]
      exact hready.2.launchRender w.state i (hclear hok)
    · rw [whenOk_of_failure hok, whenOk_of_failure (hready.1 ▸ hok)]
      exact hready
  unfold Render.startRender
  dsimp only
  rw [hlaunched.1]
  split
  · exact hlaunched
  · rw [hstate] at hlaunched ⊢
    exact ⟨rfl, hlaunched.2.abortRender w.state i⟩

theorem Shifted.awaitWorker (target : KsState) (i : SetStateInput)
    (h : Shifted notificationCount packetSize s w w')
    (hclear : Guarded Render.workerStep (WorkerClear s) { w with state := target } i.stopping) :
    (Render.awaitWorker target i w').1 = (Render.awaitWorker target i w).1 ∧
      Shifted notificationCount packetSize s (Render.awaitWorker target i w).2
        (Render.awaitWorker target i w').2 := by
  have hstopping := (h.enter target).workerSteps i.stopping hclear
  have hstarted := read_eq World.workerStarted (fun _ => rfl) hstopping.same
  unfold Render.awaitWorker
  dsimp only
  rw [hstarted]
  split
  · exact hstopping.call (stopRenderWorker_unaware i.exited) (stopRenderWorker_does i.exited)
      (by decide)
  · exact ⟨rfl, hstopping⟩

theorem Shifted.awaitWorkerAgain (stopped : Bool) (i : SetStateInput)
    (h : Shifted notificationCount packetSize s w w')
    (hclear : stopped = false → Guarded Render.workerStep (WorkerClear s) w i.lingering) :
    (Render.awaitWorkerAgain stopped i w').1 = (Render.awaitWorkerAgain stopped i w).1 ∧
      Shifted notificationCount packetSize s (Render.awaitWorkerAgain stopped i w).2
        (Render.awaitWorkerAgain stopped i w').2 := by
  cases stopped with
  | true => exact ⟨rfl, h⟩
  | false =>
      have hlingering := h.workerSteps i.lingering (hclear rfl)
      have hstarted := read_eq World.workerStarted (fun _ => rfl) hlingering.same
      simp only [Render.awaitWorkerAgain, Bool.false_eq_true, if_false, true_and]
      rw [hstarted]
      split
      · exact hlingering.call (stopRenderWorker_unaware i.exitedLate)
          (stopRenderWorker_does i.exitedLate) (by decide)
      · exact ⟨rfl, hlingering⟩

/-- A reset leaves no numbers to shift. -/
theorem Shifted.resetSession (h : Shifted notificationCount packetSize s w w') :
    Shifted notificationCount packetSize s (Render.resetSession w) (Render.resetSession w') := by
  constructor
  · exact h.slot
  · exact resetSession_unaware w w' h.same
  · exact (BitVec.add_zero _).symm
  · exact fun hwritten => absurd rfl hwritten
  · exact fun hsome => absurd rfl hsome
  · exact h.geometry

theorem Shifted.stopRender (target : KsState) (i : SetStateInput)
    (h : Shifted notificationCount packetSize s w w') (hclear : StopClear s target i w) :
    (Render.stopRender target i w').1 = (Render.stopRender target i w).1 ∧
      Shifted notificationCount packetSize s (Render.stopRender target i w).2
        (Render.stopRender target i w').2 := by
  have hfirst := h.awaitWorker target i hclear.1
  have hagain := (hfirst.2.haltRender i).awaitWorkerAgain (Render.awaitWorker target i w).1 i
    hclear.2
  have hquiet : (quiesceRender target i w').1 = (quiesceRender target i w).1 ∧
      Shifted notificationCount packetSize s (quiesceRender target i w).2
        (quiesceRender target i w').2 := by
    unfold quiesceRender
    dsimp only
    rw [hfirst.1]
    exact ⟨hagain.1, hagain.2.cancelAndFree i.cancel⟩
  have hsettled := hquiet.2.state (settlePosition_unaware i.qpc)
    (fun w => Does.one (.settle i.qpc w)) (by decide)
  unfold Render.stopRender
  dsimp only
  rw [hquiet.1]
  split
  · refine ⟨rfl, ?_⟩
    dsimp only
    split
    · exact hsettled.resetSession
    · exact hsettled
  · exact ⟨rfl, hquiet.2.enter .run⟩

/-! ## SetWritePacket -/

/-- The end of the stream after a call of `SetWritePacket`. -/
def eosAfter (packetNumber : ULONG) (endOfStream : Bool) (eosPacketLength : ULONG) (w : World) :
    ULONG × ULONG :=
  if endOfStream then
    (packetNumber, if w.packetSize < eosPacketLength then w.packetSize else eosPacketLength)
  else if w.eosPacketNumber ≠ maxULONG ∧
      viosndPacketNumberLessOrEqual w.eosPacketNumber packetNumber then (maxULONG, 0)
  else (w.eosPacketNumber, w.eosPacketLength)

def setNumbers (next last : ULONG) (eos : ULONG × ULONG) (w : World) : World := { w with
  nextSubmitPacket := next
  lastOsWritePacket := last
  eosPacketNumber := eos.1
  eosPacketLength := eos.2
  history := .wrote last :: w.history }

private theorem setWritePacket_sets {packetNumber eosPacketLength : ULONG} {endOfStream : Bool}
    (hopen : ¬ (w.buffer.isNone ∨ w.packetSize = 0)) :
    setWritePacket packetNumber endOfStream eosPacketLength w = (.success,
      setNumbers (if w.lastOsWritePacket = maxULONG then packetNumber else w.nextSubmitPacket)
        packetNumber (eosAfter packetNumber endOfStream eosPacketLength w) w) := by
  unfold setWritePacket eosAfter
  rw [if_neg hopen]
  dsimp only
  split
  · rfl
  · split <;> rfl

private theorem setNumbers_unnumbered (slot : ULONG → ULONG) (next last : ULONG)
    (eos : ULONG × ULONG) (w : World) : (setNumbers next last eos w).unnumbered slot =
      { w.unnumbered slot with
        lastOsWritePacket := maskNumber last
        eosPacketNumber := maskNumber eos.1
        eosPacketLength := eos.2
        history := .wrote (slot last) :: (w.unnumbered slot).history } := rfl

private theorem Shifted.eosAfter {packetNumber : ULONG} (endOfStream : Bool)
    (eosPacketLength : ULONG) (h : Shifted notificationCount packetSize s w w')
    (hclear : ClearNumber s packetNumber) :
    let eos := Render.eosAfter packetNumber endOfStream eosPacketLength w
    let eos' := Render.eosAfter (packetNumber + s) endOfStream eosPacketLength w'
    maskNumber eos'.1 = maskNumber eos.1 ∧ eos'.2 = eos.2 ∧
      (eos.1 ≠ maxULONG → eos'.1 = eos.1 + s) := by
  obtain ⟨hfields, -⟩ := h.reads
  simp only [Prod.mk.injEq] at hfields
  unfold Render.eosAfter
  dsimp only
  rw [hfields.1, hfields.2.1]
  cases endOfStream with
  | true => exact ⟨hclear.mask, rfl, fun _ => rfl⟩
  | false =>
      by_cases hnone : w.eosPacketNumber = maxULONG
      · have hnone' := h.eos_iff.mpr hnone
        simp [hnone, hnone']
      · have hsome' : w'.eosPacketNumber ≠ maxULONG := fun hmax => hnone (h.eos_iff.mp hmax)
        have hmask : maskNumber w'.eosPacketNumber = maskNumber w.eosPacketNumber := by
          unfold maskNumber
          rw [if_neg hnone, if_neg hsome']
        have heos := (h.eos hnone).2
        have hle : viosndPacketNumberLessOrEqual w'.eosPacketNumber (packetNumber + s) =
            viosndPacketNumberLessOrEqual w.eosPacketNumber packetNumber := by
          rw [heos, viosndPacketNumberLessOrEqual_add]
        simp only [Bool.false_eq_true, if_false, ne_eq, hnone, hsome', not_false_eq_true, true_and,
          hle]
        split
        · simp
        · exact ⟨hmask, rfl, fun _ => heos⟩

theorem Shifted.setWritePacket {packetNumber : ULONG} (endOfStream : Bool)
    (eosPacketLength : ULONG) (h : Shifted notificationCount packetSize s w w')
    (hclear : ¬ (w.buffer.isNone ∨ w.packetSize = 0) → ClearNumber s packetNumber) :
    (Render.setWritePacket (packetNumber + s) endOfStream eosPacketLength w').1 =
        (Render.setWritePacket packetNumber endOfStream eosPacketLength w).1 ∧
      Shifted notificationCount packetSize s
        (Render.setWritePacket packetNumber endOfStream eosPacketLength w).2
        (Render.setWritePacket (packetNumber + s) endOfStream eosPacketLength w').2 := by
  have hgate : (w'.buffer.isNone ∨ w'.packetSize = 0) = (w.buffer.isNone ∨ w.packetSize = 0) :=
    read_eq (fun w => (w.buffer.isNone ∨ w.packetSize = 0)) (fun _ => rfl) h.same
  by_cases hclosed : w.buffer.isNone ∨ w.packetSize = 0
  · have hclosed' : w'.buffer.isNone ∨ w'.packetSize = 0 := hgate ▸ hclosed
    have hrefused : ∀ {w : World} {p : ULONG}, w.buffer.isNone ∨ w.packetSize = 0 →
        Render.setWritePacket p endOfStream eosPacketLength w = (.invalidDeviceRequest, w) :=
      fun hclosed => if_pos hclosed
    rw [hrefused hclosed, hrefused hclosed']
    exact ⟨rfl, h⟩
  · have hopen' : ¬ (w'.buffer.isNone ∨ w'.packetSize = 0) := hgate ▸ hclosed
    have hnumber := hclear hclosed
    obtain ⟨hmask, hlength, heos⟩ := h.eosAfter endOfStream eosPacketLength hnumber
    rw [setWritePacket_sets hclosed, setWritePacket_sets hopen']
    refine ⟨rfl, h.slot, ?_, ?_, fun _ => rfl, fun hsome => ⟨hnumber.1, heos hsome⟩, h.geometry⟩
    · rw [setNumbers_unnumbered, setNumbers_unnumbered, h.same, hnumber.mask, hmask, hlength,
        h.slot]
    · have hshift : shiftOf s (setNumbers (if w.lastOsWritePacket = maxULONG then packetNumber
          else w.nextSubmitPacket) packetNumber
          (Render.eosAfter packetNumber endOfStream eosPacketLength w) w) = s :=
        if_neg hnumber.1
      rw [hshift]
      dsimp only [setNumbers]
      by_cases hcyclic : w.lastOsWritePacket = maxULONG
      · rw [if_pos hcyclic, if_pos (h.cyclic_iff.mpr hcyclic)]
      · rw [if_neg hcyclic, if_neg fun hmax => hcyclic (h.cyclic_iff.mp hmax), h.next]
        exact congrArg (w.nextSubmitPacket + ·) (if_neg hcyclic)

end

/-! ## Runs -/

/-- The steps of a stream, and the writes of its client into the WaveRT buffer between them. -/
inductive StreamStep where
  | act (a : Action)
  | writeBuffer (memory : Memory)

def streamStep (w : World) : StreamStep → World
  | .act a => step w a
  | .writeBuffer memory => { w with
      buffer := w.buffer.map fun _ => memory }

def StreamStep.shift (s : ULONG) : StreamStep → StreamStep
  | .act (.setWritePacket packetNumber endOfStream eosPacketLength) =>
      .act (.setWritePacket (packetNumber + s) endOfStream eosPacketLength)
  | other => other

inductive Answer where
  | status (status : NtStatus)
  | more (more : Bool)
  | offsets (offsets : ULONGLONG × ULONGLONG)
  | blocks (blocks : ULONGLONG)
  | nothing
  deriving DecidableEq

def answer (w : World) : StreamStep → Answer
  | .act (.setState target i) => .status (setState target i w).1
  | .act (.setWritePacket packetNumber endOfStream eosPacketLength) =>
      .status (setWritePacket packetNumber endOfStream eosPacketLength w).1
  | .act (.worker (.reclaim o)) => .more (reclaimRenderPacket o w).1
  | .act (.worker (.submit o)) => .more (submitPass o w).1
  | .act (.getPosition qpc) => .offsets (getPosition qpc w).1
  | .act (.getPresentationPosition qpc) => .blocks (getOutputStreamPresentationPosition qpc w).1
  | _ => .nothing

def answers (w : World) : List StreamStep → List Answer
  | [] => []
  | a :: steps => answer w a :: answers (streamStep w a) steps

def StepClear (s : ULONG) (w : World) : StreamStep → Prop
  | .act (.setState target i) =>
      (target = .run ∧ w.state ≠ .run → StartClear s i w) ∧
        (target ≠ .run ∧ w.state = .run → StopClear s target i w)
  | .act (.setWritePacket packetNumber _ _) =>
      ¬ (w.buffer.isNone ∨ w.packetSize = 0) → ClearNumber s packetNumber
  | .act (.worker step) => WorkerClear s w step
  | _ => True

/-- `KeSetEvent` for each packet that is completed, preroll excepted. -/
def notifications (history : List Event) : ℕ :=
  history.countP fun
    | .returned entry => entry.packetNumber ≠ maxULONG
    | _ => false

private theorem notifications_unnumbered (slot : ULONG → ULONG) (history : List Event) :
    notifications (history.map (Event.unnumbered slot)) = notifications history := by
  have hreturned : ∀ e : Event, (match e.unnumbered slot with
      | .returned entry => (entry.packetNumber ≠ maxULONG : Bool)
      | _ => false) = (match e with
      | .returned entry => (entry.packetNumber ≠ maxULONG : Bool)
      | _ => false) := by
    intro e
    cases e with
    | returned entry => simp [Event.unnumbered, TxEntry.unnumbered]
    | _ => rfl
  unfold notifications
  rw [List.countP_map]
  exact List.countP_congr fun e _ => by rw [Function.comp_apply, hreturned e]

section

variable {notificationCount packetSize s : ULONG} {w w' : World}

theorem Shifted.setState (target : KsState) (i : SetStateInput)
    (h : Shifted notificationCount packetSize s w w')
    (hclear : StepClear s w (.act (.setState target i))) :
    (Render.setState target i w').1 = (Render.setState target i w).1 ∧
      Shifted notificationCount packetSize s (Render.setState target i w).2
        (Render.setState target i w').2 := by
  have hstate : w'.state = w.state := read_eq World.state (fun _ => rfl) h.same
  unfold Render.setState
  rw [hstate]
  split
  · rename_i hstart
    exact h.startRender i (hclear.1 hstart)
  split
  · rename_i hstop
    exact h.stopRender target i (hclear.2 hstop)
  · exact ⟨rfl, h.enter target⟩

private theorem Shifted.streamStep (a : StreamStep)
    (h : Shifted notificationCount packetSize s w w') (hclear : StepClear s w a) :
    answer w' (a.shift s) = answer w a ∧
      Shifted notificationCount packetSize s (Render.streamStep w a)
        (Render.streamStep w' (a.shift s)) := by
  cases a with
  | writeBuffer memory =>
      exact ⟨rfl, h.keep (Unaware.of_commutes (f := fun w => { w with
        buffer := w.buffer.map fun _ => memory }) (fun _ => rfl) w w' h.same) rfl rfl rfl⟩
  | act a =>
      cases a with
      | setState target i =>
          obtain ⟨hstatus, hstate⟩ := h.setState target i hclear
          exact ⟨congrArg Answer.status hstatus, hstate⟩
      | setWritePacket packetNumber endOfStream eosPacketLength =>
          obtain ⟨hstatus, hstate⟩ := h.setWritePacket endOfStream eosPacketLength hclear
          exact ⟨congrArg Answer.status hstatus, hstate⟩
      | worker step =>
          refine ⟨?_, h.workerStep step hclear⟩
          cases step with
          | reclaim o =>
              exact congrArg Answer.more (reclaimRenderPacket_unaware o w w' h.same).1
          | submit o => exact congrArg Answer.more (h.submitPass o hclear).1
          | _ => rfl
      | getPosition qpc =>
          obtain ⟨hoffsets, hstate⟩ := h.call (getPosition_unaware qpc) (getPosition_does qpc)
            (by decide)
          exact ⟨congrArg Answer.offsets hoffsets, hstate⟩
      | getPresentationPosition qpc =>
          obtain ⟨hblocks, hstate⟩ := h.call (getOutputStreamPresentationPosition_unaware qpc)
            (queryClock_does qpc) (by decide)
          exact ⟨congrArg Answer.blocks hblocks, hstate⟩

theorem Shifted.run (steps : List StreamStep) (h : Shifted notificationCount packetSize s w w')
    (hclear : Guarded Render.streamStep (StepClear s) w steps) :
    answers w' (steps.map (StreamStep.shift s)) = answers w steps ∧
      Shifted notificationCount packetSize s (StepRun.run Render.streamStep w steps)
        (StepRun.run Render.streamStep w' (steps.map (StreamStep.shift s))) := by
  induction steps generalizing w w' with
  | nil => exact ⟨rfl, h⟩
  | cons a steps ih =>
      obtain ⟨hanswer, hstep⟩ := h.streamStep a hclear.1
      obtain ⟨hanswers, hrun⟩ := ih hstep hclear.2
      refine ⟨?_, hrun⟩
      exact List.cons_eq_cons.mpr ⟨hanswer, hanswers⟩

private theorem World.fresh_shifted (buffer : Option Memory)
    (bufferSize notificationCount packetSize s : ULONG)
    (hslot : ∀ p, packetOffset (p + s) notificationCount packetSize =
      packetOffset p notificationCount packetSize) :
    Shifted notificationCount packetSize s
      (World.fresh buffer bufferSize notificationCount packetSize)
      (World.fresh buffer bufferSize notificationCount packetSize) := by
  constructor
  · exact hslot
  · rfl
  · rfl
  · exact fun hwritten => absurd rfl hwritten
  · exact fun hsome => absurd rfl hsome
  · rfl

private theorem StreamStep.shift_zero (a : StreamStep) : a.shift 0 = a := by
  have hzero : ∀ p : ULONG, p + 0 = p := BitVec.add_zero
  unfold StreamStep.shift
  split
  · rw [hzero]
  · rfl

private theorem count_dvd (hcount : ∃ k, notificationCount.toNat = 2 ^ k) :
    notificationCount.toNat ∣ 2 ^ 32 := by
  obtain ⟨k, hk⟩ := hcount
  have hlt : 2 ^ k < 2 ^ 32 := hk ▸ notificationCount.isLt
  rw [hk]
  exact Nat.pow_dvd_pow 2 ((Nat.pow_lt_pow_iff_right (by decide)).mp hlt).le

end

/-- Two runs with the same steps but for a shift of the numbers that are written: when the shift
leaves the slots alone and the first run comes to clear numbers only, they answer the same, submit
and complete the same audio, and end alike. Once a packet was written, the next packet to submit is
shifted. -/
theorem run_shift (buffer : Option Memory) (bufferSize notificationCount packetSize s : ULONG)
    (steps : List StreamStep) (hcount : ∃ k, notificationCount.toNat = 2 ^ k)
    (hs : notificationCount.toNat ∣ s.toNat) :
    let start := World.fresh buffer bufferSize notificationCount packetSize
    let w := run streamStep start steps
    let w' := run streamStep start (steps.map (StreamStep.shift s))
    s = 0 ∨ Guarded streamStep (StepClear s) start steps →
    answers start (steps.map (StreamStep.shift s)) = answers start steps ∧
      w'.history.map (Event.unnumbered (packetOffset · notificationCount packetSize)) =
        w.history.map (Event.unnumbered (packetOffset · notificationCount packetSize)) ∧
      (w'.position, w'.packetNumber, w'.outstandingWrites, notifications w'.history) =
        (w.position, w.packetNumber, w.outstandingWrites, notifications w.history) ∧
      w'.nextSubmitPacket = w.nextSubmitPacket + shiftOf s w := by
  intro start w w' hclear
  have hslot : ∀ p, packetOffset (p + s) notificationCount packetSize =
      packetOffset p notificationCount packetSize := fun p =>
    packetOffset_add p packetSize (count_dvd hcount) hs
  rcases hclear with rfl | hclear
  · have hsteps : steps.map (StreamStep.shift 0) = steps := by
      rw [funext StreamStep.shift_zero, List.map_id']
    have hw : w' = w := by
      dsimp only [w', w]
      rw [hsteps]
    have hshift : shiftOf 0 w = 0 := ite_self 0
    rw [hsteps, hw, hshift]
    exact ⟨rfl, rfl, rfl, (BitVec.add_zero _).symm⟩
  obtain ⟨hanswers, h⟩ :=
    (World.fresh_shifted buffer bufferSize notificationCount packetSize s hslot).run steps hclear
  have hhistory : w'.history.map (Event.unnumbered (packetOffset · notificationCount packetSize)) =
      w.history.map (Event.unnumbered (packetOffset · notificationCount packetSize)) :=
    congrArg World.history h.same
  have hcounts : (w'.position, w'.packetNumber, w'.outstandingWrites) =
      (w.position, w.packetNumber, w.outstandingWrites) :=
    read_eq (fun w => (w.position, w.packetNumber, w.outstandingWrites)) (fun _ => rfl) h.same
  refine ⟨hanswers, hhistory, ?_, h.next⟩
  rw [← notifications_unnumbered (packetOffset · notificationCount packetSize) w'.history, hhistory,
    notifications_unnumbered]
  simp only [Prod.mk.injEq] at hcounts ⊢
  exact ⟨hcounts.1, hcounts.2.1, hcounts.2.2, trivial⟩

instance (s : ULONG) (w : World) : Decidable (SubmitClear s w) :=
  inferInstanceAs (Decidable (_ → ∀ i < _, _ → _))

instance (s : ULONG) (w : World) (step : WorkerStep) : Decidable (WorkerClear s w step) :=
  match step with
  | .submit _ => inferInstanceAs (Decidable (_ → _ → _))
  | .submitLate _ => inferInstanceAs (Decidable (_ → _))
  | .reclaim _ => inferInstanceAs (Decidable True)
  | .maybeSwitch _ _ => inferInstanceAs (Decidable True)
  | .chooseTarget => inferInstanceAs (Decidable True)

instance (s : ULONG) (i : SetStateInput) (w : World) : Decidable (StartClear s i w) :=
  inferInstanceAs (Decidable (_ → _ → _ ∧ _))

instance (s : ULONG) (target : KsState) (i : SetStateInput) (w : World) :
    Decidable (StopClear s target i w) :=
  inferInstanceAs (Decidable (_ ∧ (_ → _)))

instance (s : ULONG) (w : World) (a : StreamStep) : Decidable (StepClear s w a) :=
  match a with
  | .act (.setState _ _) => inferInstanceAs (Decidable ((_ → _) ∧ (_ → _)))
  | .act (.setWritePacket _ _ _) => inferInstanceAs (Decidable (_ → _))
  | .act (.worker step) => inferInstanceAs (Decidable (WorkerClear s _ step))
  | .act (.getPosition _) => inferInstanceAs (Decidable True)
  | .act (.getPresentationPosition _) => inferInstanceAs (Decidable True)
  | .writeBuffer _ => inferInstanceAs (Decidable True)

/-- A stream in RUN plays its preroll and then the packet `p`. -/
def playPacket (p : ULONG) : List StreamStep :=
  [.act (.setState .run (.granted 1)), .act (.worker .chooseTarget),
    .act (.worker (.reclaim (.used 0))), .act (.worker (.reclaim (.used 0))),
    .act (.setWritePacket p false 0), .act (.worker (.submit .queued)),
    .act (.worker (.reclaim (.used 0)))]

theorem run_shift_playPacket :
    (run streamStep (World.fresh (some fun _ => 1) 4096 2 2048)
      ((playPacket 1).map (StreamStep.shift 4))).position = 2048 := by
  have hshift := run_shift (some fun _ => 1) 4096 2 2048 4 (playPacket 1) ⟨1, rfl⟩ ⟨2, rfl⟩
    (Or.inr (by decide +kernel))
  have hposition := congrArg Prod.fst hshift.2.2.1
  refine hposition.trans ?_
  decide +kernel

/-- Packet 1, shifted to `MAXULONG`, is taken for silence: its bytes are played but not counted. -/
theorem run_not_shift :
    let start := World.fresh (some fun _ => 1) 4096 2 2048
    (2 : ULONG).toNat ∣ (4294967294 : ULONG).toNat ∧
      (run streamStep start (playPacket 1)).position = 2048 ∧
      (run streamStep start ((playPacket 1).map (StreamStep.shift 4294967294))).position = 0 := by
  decide +kernel

end Viosnd.Render
