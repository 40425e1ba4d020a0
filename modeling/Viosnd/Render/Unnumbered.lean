import Mathlib.Data.List.InsertIdx
import Viosnd.Render.Effects

/-!
# The stream without packet numbers

Most routines look at a packet number only to see whether it is `MAXULONG`. Two streams that differ
in the other numbers are told apart by `SetWritePacket` and by the submission of a packet only.
-/

namespace Viosnd.Render

open StepRun EffectSystem

/-- All numbers but `MAXULONG` are one. -/
def maskNumber (packet : ULONG) : ULONG := if packet = maxULONG then maxULONG else 0

@[simp] theorem maskNumber_eq_max (packet : ULONG) :
    maskNumber packet = maxULONG ↔ packet = maxULONG := by
  unfold maskNumber
  split
  · simp [*]
  · rename_i hne
    exact iff_of_false (by decide) hne

def TxEntry.unnumbered (entry : TxEntry) : TxEntry := { entry with
  packetNumber := maskNumber entry.packetNumber }

/-- A packet the OS wrote is known by its slot. -/
def Event.unnumbered (slot : ULONG → ULONG) : Event → Event
  | .submitted entry => .submitted entry.unnumbered
  | .returned entry => .returned entry.unnumbered
  | .detached entry => .detached entry.unnumbered
  | .consumed packets => .consumed (packets.map slot)
  | .wrote packet => .wrote (slot packet)
  | e => e

def World.unnumbered (slot : ULONG → ULONG) (w : World) : World := { w with
  lastOsWritePacket := maskNumber w.lastOsWritePacket
  nextSubmitPacket := 0
  eosPacketNumber := maskNumber w.eosPacketNumber
  txQueue := w.txQueue.map TxEntry.unnumbered
  history := w.history.map (Event.unnumbered slot) }

/-- A routine that does the same to streams that are the same but for the numbers. -/
def Unaware (slot : ULONG → ULONG) (f : World → World) : Prop :=
  ∀ w w', w'.unnumbered slot = w.unnumbered slot →
    (f w').unnumbered slot = (f w).unnumbered slot

def UnawareCall {α : Type} (slot : ULONG → ULONG) (f : World → α × World) : Prop :=
  ∀ w w', w'.unnumbered slot = w.unnumbered slot → (f w').1 = (f w).1 ∧
    (f w').2.unnumbered slot = (f w).2.unnumbered slot

section

variable {slot : ULONG → ULONG} {f g : World → World}

theorem Unaware.of_commutes (h : ∀ w, f (w.unnumbered slot) = (f w).unnumbered slot) :
    Unaware slot f := by
  intro w w' hsame
  rw [← h w, ← h w', hsame]

theorem Unaware.comp (hg : Unaware slot g) (hf : Unaware slot f) :
    Unaware slot fun w => g (f w) :=
  fun w w' hsame => hg _ _ (hf w w' hsame)

variable {α β : Type} {call : World → α × World}

theorem UnawareCall.of_commutes
    (h : ∀ w, call (w.unnumbered slot) = ((call w).1, (call w).2.unnumbered slot)) :
    UnawareCall slot call := by
  intro w w' hsame
  have hw := h w
  have hw' := h w'
  rw [hsame, hw] at hw'
  simp only [Prod.mk.injEq] at hw'
  exact ⟨hw'.1.symm, hw'.2.symm⟩

theorem UnawareCall.state (h : UnawareCall slot call) : Unaware slot fun w => (call w).2 :=
  fun w w' hsame => (h w w' hsame).2

theorem UnawareCall.bind (h : UnawareCall slot call) (next : α → World → β × World)
    (hnext : ∀ a, UnawareCall slot (next a)) :
    UnawareCall slot fun w => next (call w).1 (call w).2 := by
  intro w w' hsame
  obtain ⟨hanswer, hstate⟩ := h w w' hsame
  dsimp only
  rw [hanswer]
  exact hnext _ _ _ hstate

theorem UnawareCall.after (h : UnawareCall slot call) (hf : Unaware slot f) :
    UnawareCall slot fun w => call (f w) :=
  fun w w' hsame => h _ _ (hf w w' hsame)

theorem UnawareCall.whenOk {call : World → NtStatus × World} {next : World → NtStatus × World}
    (h : UnawareCall slot call) (hnext : UnawareCall slot next) :
    UnawareCall slot fun w => whenOk (call w) next := by
  apply h.bind fun status w => if status.isSuccess then next w else (status, w)
  intro status
  cases status.isSuccess with
  | true => exact hnext
  | false => exact fun w w' hsame => ⟨rfl, hsame⟩

/-! ## Buffers and commands -/

theorem viosndPcmCommand_unaware (c : PcmCommand) (answer : NtStatus) :
    UnawareCall slot (viosndPcmCommand c answer) :=
  UnawareCall.of_commutes fun _ => rfl

private theorem viosndConfigurePcmFormat_unaware (i : ConfigureInput) :
    UnawareCall slot (viosndConfigurePcmFormat i) :=
  (viosndPcmCommand_unaware .setParams i.setParams).whenOk
    (viosndPcmCommand_unaware .prepare i.prepare)

private theorem recycleRenderIo_unnumbered (slot : ULONG → ULONG) (io : PcmIo) (w : World) :
    recycleRenderIo io (w.unnumbered slot) = (recycleRenderIo io w).unnumbered slot := by
  unfold recycleRenderIo
  have hcount : (w.unnumbered slot).renderIoFreeCount = w.renderIoFreeCount := rfl
  rw [hcount]
  split
  · rfl
  · rfl

private theorem freeRenderIo_unnumbered (slot : ULONG → ULONG) (w : World) :
    freeRenderIo (w.unnumbered slot) = (freeRenderIo w).unnumbered slot := by
  have hpop : popRenderIo (w.unnumbered slot) =
    ((popRenderIo w).1, (popRenderIo w).2.unnumbered slot) := rfl
  unfold freeRenderIo
  rw [hpop]
  unfold viosndFreeWritePcmIo
  dsimp only
  split
  · rfl
  · rfl

private theorem freeRenderIos_unnumbered (slot : ULONG → ULONG) (n : ℕ) (w : World) :
    freeRenderIos n (w.unnumbered slot) = (freeRenderIos n w).unnumbered slot := by
  induction n generalizing w with
  | zero => rfl
  | succ n ih =>
      have hfirst := freeRenderIo_unnumbered slot w
      unfold freeRenderIo at hfirst
      unfold freeRenderIos
      dsimp only
      rw [hfirst, ih]

private theorem freeRenderIoPool_unnumbered (slot : ULONG → ULONG) (w : World) :
    freeRenderIoPool (w.unnumbered slot) = (freeRenderIoPool w).unnumbered slot := by
  have hcounts : (w.unnumbered slot).outstandingWrites = w.outstandingWrites ∧
    (w.unnumbered slot).renderIoFreeCount = w.renderIoFreeCount := ⟨rfl, rfl⟩
  unfold freeRenderIoPool
  rw [hcounts.1, hcounts.2, freeRenderIos_unnumbered]
  split
  · rfl
  · rfl

theorem freeRenderIoPool_unaware : Unaware slot freeRenderIoPool :=
  Unaware.of_commutes (freeRenderIoPool_unnumbered slot)

private theorem allocateRenderIos_unnumbered (slot : ULONG → ULONG) (requestLength n : ℕ)
    (ios : List Bool) (w : World) :
    allocateRenderIos requestLength n ios (w.unnumbered slot) =
      ((allocateRenderIos requestLength n ios w).1,
        (allocateRenderIos requestLength n ios w).2.unnumbered slot) := by
  induction n generalizing ios w with
  | zero => rfl
  | succ n ih =>
      cases ios with
      | nil => exact congrArg (Prod.mk _) (freeRenderIoPool_unnumbered slot w)
      | cons allocated ios =>
          cases allocated with
          | false => exact congrArg (Prod.mk _) (freeRenderIoPool_unnumbered slot w)
          | true => exact ih ios (newRenderIo requestLength w)

private theorem allocateRenderIoPool_unaware (i : PoolInput) :
    UnawareCall slot (allocateRenderIoPool i) := by
  apply UnawareCall.of_commutes
  intro w
  have hfields : (w.unnumbered slot).renderIoFreeCount = w.renderIoFreeCount ∧
    (w.unnumbered slot).packetSize = w.packetSize ∧
    (w.unnumbered slot).renderFallbackBuffer = w.renderFallbackBuffer := ⟨rfl, rfl, rfl⟩
  unfold allocateRenderIoPool
  rw [hfields.1, hfields.2.1, hfields.2.2]
  split
  · rfl
  split
  · rfl
  split
  · rfl
  · generalize (if fallbackPeriodBytes < w.packetSize then w.packetSize
      else fallbackPeriodBytes) = size
    exact allocateRenderIos_unnumbered slot _ _ _ { w with
      renderFallbackBuffer := some (w.renderFallbackBuffer.getD size) }

/-! ## Reclaims and cancels -/

private theorem addPosition_unnumbered (slot : ULONG → ULONG) (bytes : ULONG) (w : World) :
    addPosition bytes (w.unnumbered slot) = (addPosition bytes w).unnumbered slot := by
  have hposition : (w.unnumbered slot).position = w.position := rfl
  unfold addPosition
  rw [hposition]
  split
  · rfl
  · rfl

private theorem accountCompletion_unnumbered (slot : ULONG → ULONG) (entry : TxEntry) (w : World) :
    accountCompletion entry.unnumbered (w.unnumbered slot) =
      (accountCompletion entry w).unnumbered slot := by
  have hnumber : entry.unnumbered.packetNumber = maxULONG ↔ entry.packetNumber = maxULONG :=
    maskNumber_eq_max _
  unfold accountCompletion
  by_cases hpreroll : entry.packetNumber = maxULONG
  · rw [if_pos hpreroll, if_pos (hnumber.mpr hpreroll)]
  · rw [if_neg hpreroll, if_neg fun h => hpreroll (hnumber.mp h)]
    dsimp only
    rw [addPosition_unnumbered]
    rfl

private theorem completeEntry_unnumbered (slot : ULONG → ULONG) (k : ℕ) (entry : TxEntry)
    (w : World) :
    completeEntry k entry.unnumbered (w.unnumbered slot) =
      (completeEntry k entry w).unnumbered slot := by
  have haccounted := accountCompletion_unnumbered slot entry { w with
    txQueue := w.txQueue.eraseIdx k
    history := .returned entry :: w.history
    outstandingWrites := w.outstandingWrites - 1 }
  have herased : (w.unnumbered slot).txQueue.eraseIdx k =
      (w.txQueue.eraseIdx k).map TxEntry.unnumbered := List.eraseIdx_map ..
  unfold completeEntry
  rw [herased, ← recycleRenderIo_unnumbered, ← haccounted]
  rfl

private theorem detachEntry_unnumbered (slot : ULONG → ULONG) (k : ℕ) (entry : TxEntry)
    (w : World) :
    detachEntry k entry.unnumbered (w.unnumbered slot) =
      (detachEntry k entry w).unnumbered slot := by
  have herased : (w.unnumbered slot).txQueue.eraseIdx k =
      (w.txQueue.eraseIdx k).map TxEntry.unnumbered := List.eraseIdx_map ..
  unfold detachEntry
  rw [herased, ← recycleRenderIo_unnumbered]
  rfl

theorem reclaimRenderPacket_unaware (o : TxReclaim) :
    UnawareCall slot (reclaimRenderPacket o) := by
  apply UnawareCall.of_commutes
  intro w
  cases o with
  | used k =>
      have hqueue : (w.unnumbered slot).txQueue[k]? = w.txQueue[k]?.map TxEntry.unnumbered :=
        List.getElem?_map
      unfold reclaimRenderPacket viosndReclaimPreparedWritePcm
      dsimp only
      rw [hqueue]
      cases w.txQueue[k]? with
      | none => rfl
      | some entry =>
          have hcompleted := completeEntry_unnumbered slot k entry w
          exact congrArg (Prod.mk true) hcompleted
  | _ => rfl

private theorem reclaimRenderPackets_unaware (answers : List TxReclaim) :
    Unaware slot (reclaimRenderPackets answers) := by
  induction answers with
  | nil => exact fun w w' hsame => hsame
  | cons o answers ih =>
      intro w w' hsame
      obtain ⟨hmore, hstate⟩ := reclaimRenderPacket_unaware o w w' hsame
      unfold reclaimRenderPackets
      dsimp only
      rw [hmore]
      split
      · exact ih _ _ hstate
      · exact hstate

private theorem detachRenderWrites_unnumbered (slot : ULONG → ULONG) (answers : List TxDetach)
    (w : World) :
    detachRenderWrites answers (w.unnumbered slot) =
      (detachRenderWrites answers w).unnumbered slot := by
  induction answers generalizing w with
  | nil => rfl
  | cons o answers ih =>
      have hcount : (w.unnumbered slot).outstandingWrites = w.outstandingWrites := rfl
      unfold detachRenderWrites
      rw [hcount]
      split
      · rfl
      cases o with
      | found k =>
          have hqueue : (w.unnumbered slot).txQueue[k]? = w.txQueue[k]?.map TxEntry.unnumbered :=
            List.getElem?_map
          unfold viosndDetachUnusedWritePcm
          dsimp only
          rw [hqueue]
          cases w.txQueue[k]? with
          | none => rfl
          | some entry =>
              have hdetached := detachEntry_unnumbered slot k entry w
              refine Eq.trans ?_ (ih (detachEntry k entry w))
              exact congrArg (detachRenderWrites answers) hdetached
      | _ => rfl

theorem cancelRenderWrites_unaware (i : CancelInput) : Unaware slot (cancelRenderWrites i) :=
  (Unaware.of_commutes (detachRenderWrites_unnumbered slot i.detaches)).comp
    (reclaimRenderPackets_unaware i.reclaims)

/-! ## Submissions -/

private theorem popRenderIo_unaware : UnawareCall slot popRenderIo :=
  UnawareCall.of_commutes fun _ => rfl

private theorem pushRenderIo_unaware (io : Option PcmIo) : Unaware slot (pushRenderIo io) := by
  apply Unaware.of_commutes
  intro w
  cases io with
  | none => rfl
  | some io => rfl

/-- An entry keeps whether its number is `MAXULONG`. -/
private theorem viosndSubmitPreparedWritePcm_unnumbered (slot : ULONG → ULONG) (audio : List Byte)
    (length sourceLength packetNumber : ULONG) (io : Option PcmIo) (o : TxSubmit) (w : World) :
    viosndSubmitPreparedWritePcm audio length sourceLength (maskNumber packetNumber) io o
        (w.unnumbered slot) =
      ((viosndSubmitPreparedWritePcm audio length sourceLength packetNumber io o w).1,
        (viosndSubmitPreparedWritePcm audio length sourceLength packetNumber io o w).2.unnumbered
          slot) := by
  unfold viosndSubmitPreparedWritePcm
  split
  · rfl
  cases io with
  | none => rfl
  | some io =>
      dsimp only
      split
      · rfl
      cases o with
      | queued =>
          have happend : ∀ entry : TxEntry, (w.txQueue ++ [entry]).map TxEntry.unnumbered =
              w.txQueue.map TxEntry.unnumbered ++ [entry.unnumbered] := fun entry =>
            List.map_append
          simp only [World.unnumbered, happend]
          rfl
      | _ => rfl

theorem submitPooled_unaware {audio : List Byte} {length sourceLength packetNumber number : ULONG}
    {o : TxSubmit} {onSuccess onSuccess' : World → World}
    (hmask : maskNumber number = maskNumber packetNumber)
    (hsuccess : ∀ w w', w'.unnumbered slot = w.unnumbered slot →
      (onSuccess' w').unnumbered slot = (onSuccess w).unnumbered slot) {w w' : World}
    (hsame : w'.unnumbered slot = w.unnumbered slot) :
    (submitPooled audio length sourceLength number o onSuccess' w').1 =
        (submitPooled audio length sourceLength packetNumber o onSuccess w).1 ∧
      (submitPooled audio length sourceLength number o onSuccess' w').2.unnumbered slot =
        (submitPooled audio length sourceLength packetNumber o onSuccess w).2.unnumbered slot := by
  obtain ⟨hio, hpopped⟩ := popRenderIo_unaware w w' hsame
  have hfirst := viosndSubmitPreparedWritePcm_unnumbered slot audio length sourceLength
    packetNumber (popRenderIo w).1 o (popRenderIo w).2
  have hsecond := viosndSubmitPreparedWritePcm_unnumbered slot audio length sourceLength
    number (popRenderIo w).1 o (popRenderIo w').2
  rw [hmask, hpopped, hfirst] at hsecond
  simp only [Prod.mk.injEq] at hsecond
  obtain ⟨hstatus, hsent⟩ := hsecond
  unfold submitPooled
  dsimp only
  rw [hio, ← hstatus]
  split
  · have hnext := hsuccess _ _ hsent.symm
    have hcounts : Unaware slot fun w => { w with
        outstandingWrites := w.outstandingWrites + 1 } := Unaware.of_commutes fun _ => rfl
    exact ⟨rfl, hcounts _ _ hnext⟩
  · exact ⟨rfl, pushRenderIo_unaware _ _ _ hsent.symm⟩

/-- What does not depend on the numbers is the same in both streams. -/
theorem read_eq {w w' : World} (read : World → α) (hread : ∀ w, read (w.unnumbered slot) = read w)
    (hsame : w'.unnumbered slot = w.unnumbered slot) : read w' = read w := by
  rw [← hread w', hsame, hread]

theorem submitRenderSilencePacket_unaware (packetNumber : ULONG) (o : TxSubmit) :
    UnawareCall slot (submitRenderSilencePacket packetNumber o) := by
  intro w w' hsame
  have hbuffer : w'.buffer = w.buffer := read_eq World.buffer (fun _ => rfl) hsame
  have hsize : w'.packetSize = w.packetSize := read_eq World.packetSize (fun _ => rfl) hsame
  have hcount : w'.renderIoFreeCount = w.renderIoFreeCount :=
    read_eq World.renderIoFreeCount (fun _ => rfl) hsame
  have hactive : w'.renderFallbackActive = w.renderFallbackActive :=
    read_eq World.renderFallbackActive (fun _ => rfl) hsame
  unfold submitRenderSilencePacket
  rw [hbuffer, hsize, hcount, hactive]
  generalize (if w.renderFallbackActive = true then fallbackPeriodBytes else w.packetSize) =
    silenceLength
  cases w.buffer with
  | none => exact ⟨rfl, hsame⟩
  | some memory =>
      dsimp only
      split
      · exact ⟨rfl, hsame⟩
      split
      · exact ⟨rfl, hsame⟩
      split
      · exact ⟨rfl, hsame⟩
      · refine submitPooled_unaware rfl ?_ hsame
        intro next next' h
        exact h

private theorem prerollRender_unaware (n : ℕ) (answers : List TxSubmit) :
    UnawareCall slot (prerollRender n answers) := by
  induction n generalizing answers with
  | zero => exact fun w w' hsame => ⟨rfl, hsame⟩
  | succ n ih =>
      intro w w' hsame
      have hcount : w'.outstandingWrites = w.outstandingWrites :=
        read_eq World.outstandingWrites (fun _ => rfl) hsame
      unfold prerollRender
      rw [hcount]
      split
      · exact ((submitRenderSilencePacket_unaware maxULONG _).whenOk (ih answers.tail)) w w' hsame
      · exact ⟨rfl, hsame⟩

/-! ## The fallback switch -/

private theorem haltForFallback_unaware (i : SwitchInput) : Unaware slot (haltForFallback i) :=
  (cancelRenderWrites_unaware i.cancel).comp (Unaware.of_commutes fun _ => rfl)

private theorem startFallback_unaware (i : SwitchInput) : UnawareCall slot (startFallback i) := by
  have hbegin : Unaware slot fun w => { w with
      renderFallbackActive := true, renderFallbackPhase := viosndFallbackInitialPhase } :=
    Unaware.of_commutes fun _ => rfl
  have hprepare : UnawareCall slot (prepareFallback i) :=
    ((viosndConfigurePcmFormat_unaware i.configure).after hbegin).whenOk
      (prerollRender_unaware renderStartPrerollPackets i.prerolls)
  have hready := hprepare.whenOk (viosndPcmCommand_unaware .start i.start)
  apply hready.bind fun status w => if status.isSuccess then
    (.success, { anchorClock i.qpc i.frequency w with
      fallbackMonitorStartQpc := 0, fallbackMonitorStartPosition := 0 })
    else (status, { w with
      renderFallbackActive := false })
  intro status
  cases status.isSuccess with
  | true => exact UnawareCall.of_commutes fun _ => rfl
  | false => exact UnawareCall.of_commutes fun _ => rfl

private theorem switchRenderToFallback_unaware (i : SwitchInput) :
    Unaware slot fun w => (switchRenderToFallback i w).2 := by
  unfold switchRenderToFallback
  split
  · exact (startFallback_unaware i).state.comp (haltForFallback_unaware i)
  · exact haltForFallback_unaware i

theorem maybeSwitchRenderFallback_unaware (qpc : LONGLONG) (i : SwitchInput) :
    Unaware slot (maybeSwitchRenderFallback qpc i) := by
  intro w w' hsame
  have hnoted : (w'.note (.counter qpc)).unnumbered slot =
      (w.note (.counter qpc)).unnumbered slot :=
    (Unaware.of_commutes (f := fun w => w.note (.counter qpc)) fun _ => rfl) w w' hsame
  have hswitched := switchRenderToFallback_unaware i _ _ hnoted
  have hverdict : fallbackVerdict (w'.note (.counter qpc)) qpc =
      fallbackVerdict (w.note (.counter qpc)) qpc :=
    read_eq (fallbackVerdict · qpc) (fun _ => rfl) hnoted
  have hgo : (w'.renderFallbackAttempted, w'.state, w'.qpcFrequency) =
      (w.renderFallbackAttempted, w.state, w.qpcFrequency) :=
    read_eq (fun w => (w.renderFallbackAttempted, w.state, w.qpcFrequency)) (fun _ => rfl) hsame
  have hmonitor : (w'.note (.counter qpc)).fallbackMonitorStartQpc =
      (w.note (.counter qpc)).fallbackMonitorStartQpc :=
    read_eq World.fallbackMonitorStartQpc (fun _ => rfl) hnoted
  have hactive : (w'.note (.counter qpc)).renderFallbackActive =
      (w.note (.counter qpc)).renderFallbackActive :=
    read_eq World.renderFallbackActive (fun _ => rfl) hnoted
  have hrestart : Unaware slot fun w => { w with
      fallbackMonitorStartQpc := qpc, fallbackMonitorStartPosition := w.position } :=
    Unaware.of_commutes fun _ => rfl
  have hattempt : Unaware slot fun w => { w with
      renderFallbackAttempted := true } := Unaware.of_commutes fun _ => rfl
  simp only [Prod.mk.injEq] at hgo
  unfold maybeSwitchRenderFallback
  rw [hgo.1, hgo.2.1, hgo.2.2]
  dsimp only
  split
  · exact hsame
  by_cases hfresh : (w.note (.counter qpc)).fallbackMonitorStartQpc = 0
  · rw [if_pos hfresh, if_pos (hmonitor.trans hfresh)]
    exact hrestart _ _ hnoted
  rw [if_neg hfresh, if_neg fun h => hfresh (hmonitor.symm.trans h), hverdict]
  cases fallbackVerdict (w.note (.counter qpc)) qpc with
  | wait => exact hnoted
  | healthy =>
      dsimp only
      by_cases hon : (w.note (.counter qpc)).renderFallbackActive = true
      · rw [if_pos hon, if_pos (hactive.trans hon)]
        exact hrestart _ _ hnoted
      · rw [if_neg hon, if_neg fun h => hon (hactive.symm.trans h)]
        exact hattempt _ _ hnoted
  | slow => exact hswitched

theorem chooseTarget_unaware : Unaware slot chooseTarget := by
  apply Unaware.of_commutes
  intro w
  have hcyclic : (w.unnumbered slot).lastOsWritePacket = maxULONG ↔
      w.lastOsWritePacket = maxULONG := maskNumber_eq_max _
  unfold chooseTarget
  simp only [hcyclic]
  have hgo : ((w.unnumbered slot).state, (w.unnumbered slot).buffer,
      (w.unnumbered slot).packetSize) = (w.state, w.buffer, w.packetSize) := rfl
  simp only [Prod.mk.injEq] at hgo
  rw [hgo.1, hgo.2.1, hgo.2.2]
  split
  · rfl
  · rfl

/-! ## The worker thread and the state -/

theorem stopRenderWorker_unaware (exited : Bool) : UnawareCall slot (stopRenderWorker exited) := by
  apply UnawareCall.of_commutes
  intro w
  have hthread : (w.unnumbered slot).threadObject = w.threadObject := rfl
  unfold stopRenderWorker
  rw [hthread]
  split
  · rfl
  split
  · rfl
  · exact congrArg (Prod.mk true) (freeRenderIoPool_unnumbered slot { w with
      threadObject := false, workerStarted := false })

private theorem startRenderWorker_unaware (i : StartWorkerInput) :
    UnawareCall slot (startRenderWorker i) := by
  have hcreated : UnawareCall slot fun w =>
      if i.createThread.isSuccess = false then
        (i.createThread, if w.threadObject then (stopRenderWorker i.exited w).2 else w)
      else if i.referenceObject.isSuccess = false then (i.referenceObject, w)
      else (.success, { w with threadObject := true, workerStarted := true }) := by
    intro w w' hsame
    have hthread : w'.threadObject = w.threadObject := read_eq _ (fun _ => rfl) hsame
    have hstarted : Unaware slot fun w => { w with threadObject := true, workerStarted := true } :=
      Unaware.of_commutes fun _ => rfl
    dsimp only
    rw [hthread]
    split
    · split
      · exact ⟨rfl, (stopRenderWorker_unaware i.exited).state w w' hsame⟩
      · exact ⟨rfl, hsame⟩
    split
    · exact ⟨rfl, hsame⟩
    · exact ⟨rfl, hstarted w w' hsame⟩
  intro w w' hsame
  have hstarted : w'.workerStarted = w.workerStarted := read_eq _ (fun _ => rfl) hsame
  unfold startRenderWorker
  rw [hstarted]
  split
  · exact ⟨rfl, hsame⟩
  · exact (allocateRenderIoPool_unaware i.pool).whenOk hcreated w w' hsame

theorem launchWorker_unaware (i : SetStateInput) : UnawareCall slot (launchWorker i) :=
  (startRenderWorker_unaware i.worker).after (Unaware.of_commutes fun _ => rfl)

private theorem beginRender_unaware : Unaware slot beginRender := by
  apply Unaware.of_commutes
  intro w
  rfl

theorem prepareRender_unaware (i : SetStateInput) : UnawareCall slot (prepareRender i) := by
  have hbegin : Unaware slot beginRender := beginRender_unaware
  have hconfigured := ((viosndConfigurePcmFormat_unaware i.configure).after hbegin).whenOk
    (allocateRenderIoPool_unaware i.pool)
  refine hconfigured.whenOk ((prerollRender_unaware renderStartPrerollPackets i.prerolls).whenOk ?_)
  exact UnawareCall.of_commutes fun _ => rfl

theorem settlePosition_unaware (qpc : LONGLONG) : Unaware slot (settlePosition qpc) := by
  apply Unaware.of_commutes
  intro w
  have hclock : ((w.unnumbered slot).runStartQpc, (w.unnumbered slot).qpcFrequency) =
    (w.runStartQpc, w.qpcFrequency) := rfl
  simp only [Prod.mk.injEq] at hclock
  unfold settlePosition
  rw [hclock.1, hclock.2]
  split
  · rfl
  · rfl

theorem resetSession_unaware : Unaware slot resetSession :=
  Unaware.of_commutes fun _ => rfl

/-! ## Position queries -/

private theorem queryClock_unaware (qpc : LONGLONG) : Unaware slot (queryClock qpc) := by
  apply Unaware.of_commutes
  intro w
  have hclock : ((w.unnumbered slot).runStartQpc, (w.unnumbered slot).qpcFrequency) =
    (w.runStartQpc, w.qpcFrequency) := rfl
  simp only [Prod.mk.injEq] at hclock
  unfold queryClock
  rw [hclock.1, hclock.2]
  dsimp only
  split
  · rfl
  · rfl

theorem getPosition_unaware (qpc : LONGLONG) : UnawareCall slot (getPosition qpc) := by
  intro w w' hsame
  have hquery := queryClock_unaware qpc w w' hsame
  have hcyclic : (w'.lastOsWritePacket = maxULONG) = (w.lastOsWritePacket = maxULONG) :=
    read_eq (fun w => w.lastOsWritePacket = maxULONG)
      (fun w => propext (maskNumber_eq_max w.lastOsWritePacket)) hsame
  have hclock : getRenderClockPosition qpc w' = getRenderClockPosition qpc w :=
    read_eq (getRenderClockPosition qpc) (fun _ => rfl) hsame
  have hsizes : (w'.bufferSize, w'.notificationCount, w'.packetSize, w'.renderFallbackActive) =
      (w.bufferSize, w.notificationCount, w.packetSize, w.renderFallbackActive) :=
    read_eq (fun w => (w.bufferSize, w.notificationCount, w.packetSize, w.renderFallbackActive))
      (fun _ => rfl) hsame
  simp only [Prod.mk.injEq] at hsizes
  obtain ⟨hsize, hnotifications, hpacket, hactive⟩ := hsizes
  unfold getPosition
  simp only [hclock, hsize, hnotifications, hpacket, hactive, hcyclic]
  split
  · exact ⟨rfl, hsame⟩
  · exact ⟨rfl, hquery⟩

theorem getOutputStreamPresentationPosition_unaware (qpc : LONGLONG) :
    UnawareCall slot (getOutputStreamPresentationPosition qpc) := by
  intro w w' hsame
  have hclock : getRenderClockPosition qpc w' = getRenderClockPosition qpc w :=
    read_eq (getRenderClockPosition qpc) (fun _ => rfl) hsame
  exact ⟨congrArg (· / blockAlign) hclock, queryClock_unaware qpc w w' hsame⟩

end

end Viosnd.Render
