import Viosnd.Lib.Effects
import Viosnd.Capture.SetState

/-!
# What the routines do to the capture stream

The kinds of change a capture routine is made of, and each routine decomposed into them.
-/

namespace Viosnd.Capture

open StepRun EffectSystem

def lendCaptureIo (entry : RxEntry) (w : World) : World :=
  { (popCaptureIo w).2 with
    rxQueue := w.rxQueue ++ [entry]
    history := .submitted entry :: w.history
    nextSubmitPacket := w.nextSubmitPacket + 1
    captureInFlight := w.captureInFlight + 1 }

/-- The `k`-th buffer of the queue is taken off it and freed. -/
def detachEntry (k : Nat) (entry : RxEntry) (w : World) : World :=
  viosndFreeReadPcmIo (some entry.io)
    { w with rxQueue := w.rxQueue.eraseIdx k, history := .detached entry :: w.history }

/-- The `k`-th buffer of the queue comes back. -/
def takeRx (k : Nat) (entry : RxEntry) (w : World) : World :=
  { w with
    rxQueue := w.rxQueue.eraseIdx k
    captureInFlight := w.captureInFlight - 1
    history := .returned entry :: w.history }

/-- The `k`-th buffer of the queue comes back with an error. -/
def failCapture (k : Nat) (entry : RxEntry) (w : World) : World :=
  (takeRx k entry w).note (.failed entry.packetNumber)

def freeCaptureIo (w : World) : World := viosndFreeReadPcmIo (popCaptureIo w).1 (popCaptureIo w).2

def newCaptureIo (w : World) : World :=
  { pushCaptureIo (some ⟨w.nextIo, w.packetSize⟩) w with nextIo := w.nextIo + 1 }

/-- The pool's top buffer is `io`. -/
def PoolTop (io : PcmIo) (w : World) : Prop :=
  w.captureIoFreeCount ≠ 0 ∧ w.captureIoPool (w.captureIoFreeCount - 1) = some io

inductive Kind where
  | command
  | thread
  | latch
  | enter
  | begin
  | settle
  | reset
  | read
  | allocate
  | free
  | refuse
  | submit
  | complete
  | detach
  deriving DecidableEq

inductive Effect : Kind → World → World → Prop where
  | command (c : PcmCommand) (accepted : Bool) (w : World) :
      Effect .command w (w.note (.command c accepted))
  | thread (threadObject workerStarted : Bool) (w : World) :
      Effect .thread w { w with threadObject, workerStarted }
  /-- A latch that is set stays set. -/
  | latch (captureFaulted : Bool) (w : World)
      (hlatch : w.captureFaulted = true → captureFaulted = true) :
      Effect .latch w { w with captureFaulted }
  | enter (s : KsState) (w : World) : Effect .enter w { w with state := s }
  | begin (w : World) : Effect .begin w (beginCapture w)
  | settle (w : World) : Effect .settle w { w with captureInFlight := 0, outstandingWrites := 0 }
  | reset (w : World) : Effect .reset w (resetSession w)
  | read (w : World) : Effect .read w (getReadPacket w).2.2.2
  | allocate (w : World) : Effect .allocate w (newCaptureIo w)
  | free (w : World) (hfree : w.captureIoFreeCount ≠ 0) : Effect .free w (freeCaptureIo w)
  /-- The queue refused the pool's top buffer, which went back to its place. -/
  | refuse (io : PcmIo) (w : World) (htop : PoolTop io w) : Effect .refuse w (w.note (.pooled io))
  | submit (entry : RxEntry) (w : World) (htop : PoolTop entry.io w)
      (hsize : w.packetSize ≠ 0) (hlength : entry.audioLength = w.packetSize)
      (hnumber : entry.packetNumber = w.nextSubmitPacket) :
      Effect .submit w (lendCaptureIo entry w)
  | fail (k : Nat) (entry : RxEntry) (w : World) (hk : w.rxQueue[k]? = some entry) :
      Effect .complete w (recycleCaptureIo entry.io (failCapture k entry w))
  | complete (k : Nat) (entry : RxEntry) (bytesRead : ULONG) (audio : Memory) (w : World)
      (hk : w.rxQueue[k]? = some entry) (hfit : bytesRead ≤ entry.audioLength) :
      Effect .complete w (recycleCaptureIo entry.io
        (completeCapture entry bytesRead audio (takeRx k entry w)))
  | detach (k : Nat) (entry : RxEntry) (w : World) (hk : w.rxQueue[k]? = some entry) :
      Effect .detach w (detachEntry k entry w)

/-- `w'` is reached from `w` by changes of the kinds `K`. -/
abbrev Does (K : Finset Kind) (w w' : World) : Prop := Within Effect K w w'

theorem Does.one {k : Kind} {w w' : World} (h : Effect k w w') : Does {k} w w' :=
  Within.single (Finset.mem_singleton_self k) h

/-! ## What a change leaves alone -/

theorem freeCaptureIo_eq (w : World) :
    freeCaptureIo w = { w with
      captureIoPool := Function.update w.captureIoPool (w.captureIoFreeCount - 1) none
      captureIoFreeCount := w.captureIoFreeCount - 1
      history := match w.captureIoPool (w.captureIoFreeCount - 1) with
        | none => w.history
        | some io => .freed io :: w.history } := by
  unfold freeCaptureIo popCaptureIo viosndFreeReadPcmIo
  cases w.captureIoPool (w.captureIoFreeCount - 1) <;> rfl

theorem recycleCaptureIo_eq (io : PcmIo) (w : World) :
    recycleCaptureIo io w = { w with
      captureIoPool := (recycleCaptureIo io w).captureIoPool
      captureIoFreeCount := (recycleCaptureIo io w).captureIoFreeCount
      history := (if w.captureIoFreeCount < captureIoPoolSize then .pooled io else .freed io) ::
        w.history } := by
  unfold recycleCaptureIo pushCaptureIo viosndFreeReadPcmIo World.note
  split <;> rfl

theorem countReady_eq (w : World) :
    countReady w = { w with
      nextReadPacket := (countReady w).nextReadPacket
      outstandingWrites := (countReady w).outstandingWrites
      captureOverflows := (countReady w).captureOverflows
      history := (countReady w).history } := by
  unfold countReady
  dsimp only
  split <;> rfl

private theorem countReady_history (w : World) :
    (countReady w).history = w.history ∨
      ∃ first count, (countReady w).history = .dropped first count :: w.history := by
  unfold countReady
  dsimp only
  split
  · exact Or.inr ⟨_, _, rfl⟩
  · exact Or.inl rfl

theorem completeCapture_eq (entry : RxEntry) (bytesRead : ULONG) (audio : Memory) (w : World) :
    completeCapture entry bytesRead audio w = { w with
      buffer := w.buffer.map fun memory =>
        storeAudio w memory entry.packetNumber bytesRead audio
      packetNumber := entry.packetNumber + 1
      position := w.position + w.packetSize.setWidth 64
      nextReadPacket := (completeCapture entry bytesRead audio w).nextReadPacket
      outstandingWrites := (completeCapture entry bytesRead audio w).outstandingWrites
      captureOverflows := (completeCapture entry bytesRead audio w).captureOverflows
      history := (completeCapture entry bytesRead audio w).history } :=
  countReady_eq _

theorem getReadPacket_eq (w : World) :
    (getReadPacket w).2.2.2 = { w with
      nextReadPacket := (getReadPacket w).2.2.2.nextReadPacket
      outstandingWrites := (getReadPacket w).2.2.2.outstandingWrites
      captureReadPackets := (getReadPacket w).2.2.2.captureReadPackets
      history := (getReadPacket w).2.2.2.history } := by
  unfold getReadPacket
  split_ifs <;> rfl

theorem Effect.state_eq {k : Kind} {w w' : World} (h : Effect k w w') (hk : k ≠ .enter) :
    w'.state = w.state := by
  cases h with
  | enter => exact absurd rfl hk
  | read => rw [getReadPacket_eq]
  | free => rw [freeCaptureIo_eq]
  | fail => rw [recycleCaptureIo_eq]; rfl
  | complete => rw [recycleCaptureIo_eq, completeCapture_eq]; rfl
  | _ => rfl

theorem Does.state_eq {K : Finset Kind} {w w' : World} (h : Does K w w') (hK : .enter ∉ K) :
    w'.state = w.state :=
  h.keeps World.state fun _ hk _ _ hR => hR.state_eq fun he => hK (he ▸ hk)

theorem Effect.thread_eq {k : Kind} {w w' : World} (h : Effect k w w') (hk : k ≠ .thread) :
    w'.threadObject = w.threadObject ∧ w'.workerStarted = w.workerStarted := by
  cases h with
  | thread => exact absurd rfl hk
  | read => rw [getReadPacket_eq]; exact ⟨rfl, rfl⟩
  | free => rw [freeCaptureIo_eq]; exact ⟨rfl, rfl⟩
  | fail => rw [recycleCaptureIo_eq]; exact ⟨rfl, rfl⟩
  | complete => rw [recycleCaptureIo_eq, completeCapture_eq]; exact ⟨rfl, rfl⟩
  | _ => exact ⟨rfl, rfl⟩

theorem Does.thread_eq {K : Finset Kind} {w w' : World} (h : Does K w w') (hK : .thread ∉ K) :
    w'.threadObject = w.threadObject ∧ w'.workerStarted = w.workerStarted := by
  have hpair := h.keeps (fun w => (w.threadObject, w.workerStarted)) fun _ hk _ _ hR =>
    Prod.ext_iff.mpr (hR.thread_eq fun he => hK (he ▸ hk))
  exact Prod.ext_iff.mp hpair

theorem completeCapture_stores (entry : RxEntry) (bytesRead : ULONG) (audio : Memory)
    (w : World) :
    (completeCapture entry bytesRead audio w).history =
        .stored entry.packetNumber (audio.slice 0 bytesRead.toNat) :: w.history ∨
      ∃ first count, (completeCapture entry bytesRead audio w).history =
        .dropped first count :: .stored entry.packetNumber (audio.slice 0 bytesRead.toNat) ::
          w.history := by
  unfold completeCapture
  exact countReady_history _

theorem completeCapture_history (entry : RxEntry) (bytesRead : ULONG) (audio : Memory)
    (w : World) :
    ∃ dropped, (∀ e ∈ dropped, ∃ first count, e = .dropped first count) ∧
      (completeCapture entry bytesRead audio w).history =
        dropped ++ .stored entry.packetNumber (audio.slice 0 bytesRead.toNat) :: w.history := by
  rcases completeCapture_stores entry bytesRead audio w with hsame | ⟨first, count, hdropped⟩
  · exact ⟨[], by simp, hsame⟩
  · refine ⟨[.dropped first count], ?_, hdropped⟩
    intro e he
    exact ⟨first, count, List.mem_singleton.mp he⟩

theorem Effect.history_extends {k : Kind} {w w' : World} (h : Effect k w w') (hk : k ≠ .begin) :
    ∃ newer, w'.history = newer ++ w.history ∧ .begun ∉ newer := by
  cases h with
  | begin => exact absurd rfl hk
  | command c accepted => exact ⟨[.command c accepted], rfl, by simp⟩
  | refuse io => exact ⟨[.pooled io], rfl, by simp⟩
  | submit entry => exact ⟨[.submitted entry], rfl, by simp⟩
  | allocate => exact ⟨[.pooled ⟨w.nextIo, w.packetSize⟩], rfl, by simp⟩
  | detach k entry => exact ⟨[.freed entry.io, .detached entry], rfl, by simp⟩
  | read =>
      unfold getReadPacket
      split_ifs
      · exact ⟨[], rfl, by simp⟩
      · exact ⟨[], rfl, by simp⟩
      · exact ⟨[.handedOut w.nextReadPacket], rfl, by simp⟩
  | free =>
      rw [freeCaptureIo_eq]
      cases w.captureIoPool (w.captureIoFreeCount - 1) with
      | none => exact ⟨[], rfl, by simp⟩
      | some io => exact ⟨[.freed io], rfl, by simp⟩
  | fail k entry =>
      rw [recycleCaptureIo_eq]
      refine ⟨[_, .failed entry.packetNumber, .returned entry], rfl, ?_⟩
      split <;> simp
  | complete k entry bytesRead audio =>
      obtain ⟨dropped, hdropped, hhistory⟩ :=
        completeCapture_history entry bytesRead audio (takeRx k entry w)
      rw [recycleCaptureIo_eq]
      dsimp only
      rw [hhistory]
      refine ⟨_ :: (dropped ++ [.stored entry.packetNumber (audio.slice 0 bytesRead.toNat),
        .returned entry]), by rw [List.cons_append, List.append_assoc]; rfl, ?_⟩
      have hnone : .begun ∉ dropped := by
        intro hmem
        obtain ⟨first, count, he⟩ := hdropped _ hmem
        cases he
      split <;> simp [hnone]
  | _ => exact ⟨[], rfl, by simp⟩

/-! ## Commands and the pool -/

theorem viosndPcmCommand_does (c : PcmCommand) (answer : NtStatus) (w : World) :
    Does {.command} w (viosndPcmCommand c answer w).2 :=
  Does.one (.command c _ w)

theorem whenOk_does {K : Finset Kind} {w : World} {r : NtStatus × World}
    {next : World → NtStatus × World} (hr : Does K w r.2)
    (hnext : Does K r.2 (next r.2).2) : Does K w (whenOk r next).2 := by
  unfold whenOk
  split
  · exact hr.trans hnext
  · exact hr

theorem whenOk_of_success {r : NtStatus × World} {next : World → NtStatus × World}
    (h : r.1.isSuccess = true) : whenOk r next = next r.2 := if_pos h

theorem whenOk_of_failure {r : NtStatus × World} {next : World → NtStatus × World}
    (h : r.1.isSuccess ≠ true) : whenOk r next = r := if_neg h

theorem viosndConfigureDefaultPcm_does (i : ConfigureInput) (w : World) :
    Does {.command} w (viosndConfigureDefaultPcm i w).2 :=
  whenOk_does (viosndPcmCommand_does _ _ _) (viosndPcmCommand_does _ _ _)

private theorem freeCaptureIos_does (n : Nat) (w : World) (hn : n ≤ w.captureIoFreeCount) :
    Does {.free} w (freeCaptureIos n w) := by
  induction n generalizing w with
  | zero => exact Within.refl w
  | succ n ih =>
      have hfirst : Does {.free} w (freeCaptureIo w) := Does.one (.free w (by omega))
      have hcount : (freeCaptureIo w).captureIoFreeCount = w.captureIoFreeCount - 1 := by
        unfold freeCaptureIo viosndFreeReadPcmIo
        split <;> rfl
      unfold freeCaptureIos
      apply hfirst.trans
      apply ih
      rw [hcount]
      omega

theorem freeCaptureIoPool_does (w : World) : Does {.free} w (freeCaptureIoPool w) := by
  unfold freeCaptureIoPool
  split
  · exact Within.refl w
  · exact freeCaptureIos_does _ w le_rfl

private theorem allocateCaptureIos_does (n : Nat) (ios : List Bool) (w : World) :
    Does {.allocate, .free} w (allocateCaptureIos n ios w).2 := by
  induction n generalizing ios w with
  | zero => exact Within.refl w
  | succ n ih =>
      have hfail : Does {.allocate, .free} w (freeCaptureIoPool w) :=
        (freeCaptureIoPool_does w).mono (by decide)
      have hnew : Does {.allocate, .free} w (newCaptureIo w) :=
        Within.single (k := .allocate) (by decide) (.allocate w)
      cases ios with
      | nil => exact hfail
      | cons allocated ios =>
          cases allocated with
          | false => exact hfail
          | true => exact hnew.trans (ih ios _)

private theorem allocateCaptureIoPool_does (ios : List Bool) (w : World) :
    Does {.allocate, .free} w (allocateCaptureIoPool ios w).2 := by
  unfold allocateCaptureIoPool
  split_ifs
  · exact Within.refl w
  · exact Within.refl w
  · exact allocateCaptureIos_does _ ios w

/-! ## Submission -/

private theorem pushCaptureIo_popCaptureIo (w : World) (hfree : w.captureIoFreeCount ≠ 0) :
    pushCaptureIo (popCaptureIo w).1 (popCaptureIo w).2 =
      { w with history := match w.captureIoPool (w.captureIoFreeCount - 1) with
        | none => w.history
        | some io => .pooled io :: w.history } := by
  have hcount : w.captureIoFreeCount - 1 + 1 = w.captureIoFreeCount := by omega
  cases hio : w.captureIoPool (w.captureIoFreeCount - 1) with
  | none =>
      simp only [pushCaptureIo, popCaptureIo, hio, hcount, Function.update_idem]
      rw [← hio, Function.update_eq_self]
  | some io =>
      simp only [pushCaptureIo, popCaptureIo, hio, hcount, Function.update_idem]
      rw [← hio, Function.update_eq_self]

/-- A submission queues the pool's top buffer, which only the outcome `queued` allows, or fails
and leaves everything as it was. -/
private theorem submitCapturePacket_cases (o : RxSubmit) (w : World) :
    (∃ entry : RxEntry, o = .queued ∧ PoolTop entry.io w ∧ w.packetSize ≠ 0 ∧
      entry.audioLength = w.packetSize ∧ entry.packetNumber = w.nextSubmitPacket ∧
      submitCapturePacket o w = (.success, lendCaptureIo entry w)) ∨
    ∃ status, status ≠ .success ∧ ∃ w', Does {.refuse} w w' ∧
      submitCapturePacket o w = (status, w') := by
  by_cases hready : w.buffer.isNone ∨ w.packetSize = 0 ∨ w.notificationCount = 0
  · exact Or.inr ⟨_, by decide, _, Within.refl w, if_pos hready⟩
  by_cases hfree : w.captureIoFreeCount = 0
  · exact Or.inr ⟨.deviceBusy, by decide, _, Within.refl w, by
      rw [submitCapturePacket, if_neg hready, if_pos hfree]⟩
  by_cases hroom : w.notificationCount.toNat ≤ w.captureInFlight
  · exact Or.inr ⟨.deviceBusy, by decide, _, Within.refl w, by
      rw [submitCapturePacket, if_neg hready, if_neg hfree, if_pos hroom]⟩
  have hback : Does {.refuse} w (pushCaptureIo (popCaptureIo w).1 (popCaptureIo w).2) := by
    rw [pushCaptureIo_popCaptureIo w hfree]
    cases htop : w.captureIoPool (w.captureIoFreeCount - 1) with
    | none => exact Within.refl w
    | some io => exact Does.one (.refuse io w ⟨hfree, htop⟩)
  rw [submitCapturePacket, if_neg hready, if_neg hfree, if_neg hroom]
  by_cases hq : o = .noQueue
  · exact Or.inr ⟨.deviceNotReady, by decide, _, hback, by
      simp [viosndSubmitPreparedReadPcm, hq, NtStatus.isSuccess]⟩
  cases htop : w.captureIoPool (w.captureIoFreeCount - 1) with
  | none =>
      exact Or.inr ⟨.invalidParameter, by decide, _, hback, by
        simp [viosndSubmitPreparedReadPcm, hq, popCaptureIo, htop, NtStatus.isSuccess]⟩
  | some io =>
      by_cases hfit : io.maxAudioLength < w.packetSize
      · exact Or.inr ⟨.invalidParameter, by decide, _, hback, by
          simp [viosndSubmitPreparedReadPcm, hq, popCaptureIo, htop, hfit, NtStatus.isSuccess]⟩
      cases o with
      | noQueue => exact absurd rfl hq
      | ringFull =>
          exact Or.inr ⟨.deviceBusy, by decide, _, hback, by
            simp [viosndSubmitPreparedReadPcm, popCaptureIo, htop, hfit, NtStatus.isSuccess]⟩
      | queued =>
          have hsize : w.packetSize ≠ 0 := fun h => hready (Or.inr (Or.inl h))
          refine Or.inl ⟨⟨io, w.packetSize, w.nextSubmitPacket⟩, rfl, ⟨hfree, htop⟩, hsize, rfl,
            rfl, ?_⟩
          simp [viosndSubmitPreparedReadPcm, popCaptureIo, htop, hfit, NtStatus.isSuccess,
            lendCaptureIo]

private theorem submitCapturePacket_does (o : RxSubmit) (w : World) :
    Does {.submit, .refuse} w (submitCapturePacket o w).2 := by
  rcases submitCapturePacket_cases o w with
    ⟨entry, -, htop, hsize, hlength, hnumber, heq⟩ | ⟨status, -, w', hrefused, heq⟩
  · rw [heq]
    exact Within.single (k := .submit) (by decide) (.submit entry w htop hsize hlength hnumber)
  · rw [heq]
    exact hrefused.mono (by decide)

private theorem submitCapturePacket_refused (o : RxSubmit) (w : World) (ho : o ≠ .queued) :
    Does {.refuse} w (submitCapturePacket o w).2 := by
  rcases submitCapturePacket_cases o w with ⟨entry, hqueued, -⟩ | ⟨status, -, w', hrefused, heq⟩
  · exact absurd hqueued ho
  · rw [heq]
    exact hrefused

/-! ## Reclaim and detach -/

def deliveredLength (entry : RxEntry) (usedLength : ULONG) : ULONG :=
  if entry.audioLength < usedLength - BitVec.ofNat 32 sizeofPcmStatus then entry.audioLength
  else usedLength - BitVec.ofNat 32 sizeofPcmStatus

private theorem deliveredLength_le (entry : RxEntry) (usedLength : ULONG) :
    deliveredLength entry usedLength ≤ entry.audioLength := by
  unfold deliveredLength
  split
  · exact BitVec.le_refl _
  · exact BitVec.not_lt.mp ‹_›

/-- The used length covers the status word, which reports no error. -/
def Delivered (usedLength : ULONG) (statusOk : Bool) : Prop :=
  BitVec.ofNat 32 sizeofPcmStatus ≤ usedLength ∧ statusOk = true

private theorem reclaimCapturePacket_used {k : Nat} {entry : RxEntry} {w : World}
    (hk : w.rxQueue[k]? = some entry) (usedLength : ULONG) (statusOk : Bool) (audio : Memory) :
    (Delivered usedLength statusOk ∧
      reclaimCapturePacket (.used k usedLength statusOk audio) w = (true,
        recycleCaptureIo entry.io (completeCapture entry (deliveredLength entry usedLength) audio
          (takeRx k entry w)))) ∨
    (¬ Delivered usedLength statusOk ∧
      reclaimCapturePacket (.used k usedLength statusOk audio) w =
        (true, recycleCaptureIo entry.io (failCapture k entry w))) := by
  by_cases hfailed : usedLength < BitVec.ofNat 32 sizeofPcmStatus ∨ statusOk = false
  · refine Or.inr ⟨?_, ?_⟩
    · rintro ⟨hlength, hok⟩
      rcases hfailed with hshort | herror
      · exact absurd hshort (BitVec.not_lt.mpr hlength)
      · exact absurd herror (by simp [hok])
    · simp only [reclaimCapturePacket, viosndReclaimPreparedReadPcm, hk, if_pos hfailed]
      rfl
  · refine Or.inl ⟨?_, ?_⟩
    · rw [not_or] at hfailed
      exact ⟨BitVec.not_lt.mp hfailed.1, by simpa using hfailed.2⟩
    · simp only [reclaimCapturePacket, viosndReclaimPreparedReadPcm, hk, if_neg hfailed]
      rfl

private theorem reclaimCapturePacket_does (o : RxReclaim) (w : World) :
    Does {.complete} w (reclaimCapturePacket o w).2 := by
  cases o with
  | empty => exact Within.refl w
  | used k usedLength statusOk audio =>
      cases hk : w.rxQueue[k]? with
      | none =>
          simp only [reclaimCapturePacket, viosndReclaimPreparedReadPcm, hk]
          exact Within.refl w
      | some entry =>
          rcases reclaimCapturePacket_used hk usedLength statusOk audio with ⟨-, heq⟩ | ⟨-, heq⟩
          · rw [heq]
            exact Does.one (.complete k entry _ audio w hk (deliveredLength_le entry usedLength))
          · rw [heq]
            exact Does.one (.fail k entry w hk)

theorem reclaimCapturePackets_does (answers : List RxReclaim) (w : World) :
    Does {.complete} w (reclaimCapturePackets answers w) := by
  induction answers generalizing w with
  | nil => exact Within.refl w
  | cons o answers ih =>
      have hfirst := reclaimCapturePacket_does o w
      unfold reclaimCapturePackets
      dsimp only
      split
      · exact hfirst.trans (ih _)
      · exact hfirst

private theorem detachRead_does (k : Nat) (w : World) : Does {.detach} w (detachRead k w) := by
  unfold detachRead
  cases hk : w.rxQueue[k % w.rxQueue.length]? with
  | none => exact Within.refl w
  | some entry => exact Does.one (.detach _ entry w hk)

theorem detachReads_does (n : Nat) (picks : List Nat) (w : World) :
    Does {.detach} w (detachReads n picks w) := by
  induction n generalizing picks w with
  | zero => exact Within.refl w
  | succ n ih => exact (detachRead_does _ w).trans (ih _ _)

private theorem detachRead_length (k : Nat) (w : World) :
    (detachRead k w).rxQueue.length = w.rxQueue.length - 1 := by
  unfold detachRead
  by_cases hempty : w.rxQueue = []
  · simp [hempty]
  · have hlt : k % w.rxQueue.length < w.rxQueue.length :=
      Nat.mod_lt _ (List.length_pos_of_ne_nil hempty)
    simp only [List.getElem?_eq_getElem hlt, viosndFreeReadPcmIo, World.note]
    exact List.length_eraseIdx_of_lt hlt

theorem viosndDetachUnusedReadPcm_empty (picks : List Nat) (w : World) :
    (viosndDetachUnusedReadPcm picks w).rxQueue = [] := by
  have hloop : ∀ (n : Nat) (picks : List Nat) (w : World), w.rxQueue.length = n →
      (detachReads n picks w).rxQueue = [] := by
    intro n
    induction n with
    | zero =>
        intro picks w hlength
        exact List.length_eq_zero_iff.mp hlength
    | succ n ih =>
        intro picks w hlength
        apply ih
        rw [detachRead_length, hlength]
        rfl
  exact hloop _ picks w rfl

/-! ## The worker -/

/-- What the worker's steps are made of. -/
def workerKinds : Finset Kind := {.complete, .submit, .refuse}

theorem submitPass_does (o : RxSubmit) (w : World) :
    Does {.submit, .refuse} w (submitPass o w) := by
  unfold submitPass
  split_ifs
  · exact Within.refl w
  · exact submitCapturePacket_does o w
  · exact Within.refl w

theorem workerStep_does (w : World) (s : WorkerStep) : Does workerKinds w (workerStep w s) := by
  cases s with
  | reclaim o => exact (reclaimCapturePacket_does o w).mono (by decide)
  | submit o => exact (submitPass_does o w).mono (by decide)
  | submitLate o => exact (submitCapturePacket_does o w).mono (by decide)

theorem workerSteps_does (steps : List WorkerStep) (w : World) :
    Does workerKinds w (run workerStep w steps) :=
  Within.run (fun s _ w => workerStep_does w s) w

/-- The step puts a buffer on the queue, if it can. -/
def WorkerStep.Queues : WorkerStep → Prop
  | .reclaim _ => False
  | .submit o => o = .queued
  | .submitLate o => o = .queued

private theorem workerStep_quiet_does (w : World) (s : WorkerStep) (hs : ¬ s.Queues) :
    Does {.complete, .refuse} w (workerStep w s) := by
  cases s with
  | reclaim o => exact (reclaimCapturePacket_does o w).mono (by decide)
  | submit o =>
      have hrefused := (submitCapturePacket_refused o w hs).mono (L := {.complete, .refuse})
        (by decide)
      change Does _ w (submitPass o w)
      unfold submitPass
      split_ifs
      · exact Within.refl w
      · exact hrefused
      · exact Within.refl w
  | submitLate o => exact (submitCapturePacket_refused o w hs).mono (by decide)

theorem workerSteps_quiet_does (steps : List WorkerStep) (w : World)
    (hsteps : ∀ s ∈ steps, ¬ s.Queues) :
    Does {.complete, .refuse} w (run workerStep w steps) :=
  Within.run (fun s hs w => workerStep_quiet_does w s (hsteps s hs)) w

/-- A submission that tested the state before, and that the queue accepts. -/
def WorkerStep.Late : WorkerStep → Prop
  | .submitLate o => o = .queued
  | _ => False

/-- Outside KSSTATE_RUN the submission loop does nothing. -/
theorem workerStep_prompt_does (w : World) (s : WorkerStep) (hstate : w.state ≠ .run)
    (hs : ¬ s.Late) : Does {.complete, .refuse} w (workerStep w s) := by
  cases s with
  | reclaim o => exact workerStep_quiet_does w (.reclaim o) id
  | submit o =>
      change Does _ w (submitPass o w)
      rw [submitPass, if_pos (Or.inl hstate)]
      exact Within.refl w
  | submitLate o => exact workerStep_quiet_does w (.submitLate o) hs

theorem workerSteps_prompt_does (steps : List WorkerStep) (w : World) (hstate : w.state ≠ .run)
    (hsteps : ∀ s ∈ steps, ¬ s.Late) :
    Does {.complete, .refuse} w (run workerStep w steps) := by
  induction steps generalizing w with
  | nil => exact Within.refl w
  | cons s steps ih =>
      have hfirst := workerStep_prompt_does w s hstate (hsteps s List.mem_cons_self)
      have hstate' : (workerStep w s).state ≠ .run := by
        rw [hfirst.state_eq (by decide)]
        exact hstate
      exact hfirst.trans (ih _ hstate' fun s' hs' => hsteps s' (List.mem_cons_of_mem s hs'))

theorem stopRenderWorker_does (exited : Bool) (w : World) :
    Does {.free, .thread, .latch} w (stopRenderWorker exited w).2 := by
  unfold stopRenderWorker
  split_ifs
  · exact Within.single (k := .thread) (by decide) (.thread w.threadObject false w)
  · exact (Within.single (k := .latch) (by decide) (.latch true w fun _ => rfl)).trans
      (Within.single (k := .thread) (by decide) (.thread false false _))
  · exact (Within.single (k := .thread) (by decide) (.thread false false w)).trans
      ((freeCaptureIoPool_does _).mono (by decide))

def threadKinds : Finset Kind := {.allocate, .free, .thread, .latch}

theorem startRenderWorker_does (i : StartWorkerInput) (w : World) :
    Does threadKinds w (startRenderWorker i w).2 := by
  unfold startRenderWorker
  split
  · exact Within.refl w
  · apply whenOk_does ((allocateCaptureIoPool_does i.pool w).mono (by decide))
    split_ifs
    · exact (stopRenderWorker_does _ _).mono (by decide)
    · exact Within.refl _
    · exact Within.refl _
    · exact Within.single (k := .thread) (by decide) (.thread true true _)

/-! ## SetState -/

/-- The start path from the reset of the counters on, when it succeeds. -/
def startKinds : Finset Kind := {.command, .enter} ∪ threadKinds

theorem startCapture_success_does (i : SetStateInput) (w : World)
    (hok : (startCapture i w).1 = .success) :
    Does startKinds (beginCapture w) (startCapture i w).2 ∧ (startCapture i w).2.state = .run := by
  have hfault : w.captureFaulted ≠ true := by
    intro hfault
    rw [startCapture, if_pos hfault] at hok
    cases hok
  have hprepared : Does startKinds (beginCapture w)
      (whenOk (viosndConfigureDefaultPcm i.configure (beginCapture w))
        (viosndPcmCommand .start i.start)).2 :=
    (whenOk_does (viosndConfigureDefaultPcm_does _ _) (viosndPcmCommand_does _ _ _)).mono
      (by decide)
  rw [startCapture, if_neg hfault] at hok ⊢
  dsimp only at hok ⊢
  generalize whenOk (viosndConfigureDefaultPcm i.configure (beginCapture w))
    (viosndPcmCommand .start i.start) = r at hok hprepared ⊢
  by_cases hr : r.1.isSuccess = true
  · rw [if_pos hr] at hok ⊢
    have hworker := startRenderWorker_does i.worker { r.2 with state := .run }
    have hstate := hworker.state_eq (by decide)
    unfold launchCapture at hok ⊢
    dsimp only at hok ⊢
    split_ifs at hok ⊢ with hstarted
    · have hentered : Does startKinds r.2 { r.2 with state := .run } :=
        Within.single (k := .enter) (by decide) (.enter .run r.2)
      exact ⟨hprepared.trans (hentered.trans (hworker.mono (by decide))), hstate⟩
    · exact absurd ((NtStatus.isSuccess_iff _).mpr hok) hstarted
  · rw [if_neg hr] at hok
    exact absurd ((NtStatus.isSuccess_iff _).mpr hok) hr

theorem startCapture_failure_state (i : SetStateInput) (w : World)
    (hfail : (startCapture i w).1 ≠ .success) : (startCapture i w).2.state = w.state := by
  unfold startCapture at hfail ⊢
  split_ifs with hfault
  · rfl
  dsimp only
  split_ifs with hr
  · rw [if_neg hfault] at hfail
    dsimp only at hfail
    rw [if_pos hr] at hfail
    unfold launchCapture at hfail ⊢
    dsimp only at hfail ⊢
    split_ifs with hstarted
    · rw [if_pos hstarted] at hfail
      exact absurd ((NtStatus.isSuccess_iff _).mp hstarted) hfail
    · rfl
  · rfl

/-- What the clean-up of a stop is made of. -/
def drainKinds : Finset Kind := insert .detach workerKinds

theorem drainCapture_does (i : SetStateInput) (w : World) :
    Does drainKinds w (drainCapture i w) := by
  have hreleased := (workerSteps_does i.released w).mono (L := drainKinds) (by decide)
  have hreclaimed := (reclaimCapturePackets_does i.reclaims (run workerStep w i.released)).mono
    (L := drainKinds) (by decide)
  have hdrained := (workerSteps_does i.drained (reclaimCapturePackets i.reclaims
    (run workerStep w i.released))).mono (L := drainKinds) (by decide)
  exact hreleased.trans (hreclaimed.trans (hdrained.trans
    ((detachReads_does _ i.picks _).mono (by decide))))

def releaseKinds : Finset Kind := {.settle, .free, .command} ∪ drainKinds

private theorem releaseCapture_does (i : SetStateInput) (w : World) :
    Does releaseKinds w (releaseCapture i w).2 := by
  have hdrained := (drainCapture_does i w).mono (L := releaseKinds) (by decide)
  have hdetached := (workerSteps_does i.detached (drainCapture i w)).mono (L := releaseKinds)
    (by decide)
  have hsettled : Does releaseKinds (run workerStep (drainCapture i w) i.detached) _ :=
    Within.single (k := .settle) (by decide) (.settle _)
  exact hdrained.trans (hdetached.trans (hsettled.trans
    (((freeCaptureIoPool_does _).mono (by decide)).trans
      ((viosndConfigureDefaultPcm_does i.configure _).mono (by decide)))))

def quiesceKinds : Finset Kind := insert .latch releaseKinds

private theorem quiesceCapture_does (stopped : Bool) (i : SetStateInput) (w : World) :
    Does quiesceKinds w (quiesceCapture stopped i w) := by
  have hcommand := (viosndPcmCommand_does .release i.release w).mono (L := quiesceKinds)
    (by decide)
  have hlatch : ∀ (done : Bool) (w : World), Does quiesceKinds w { w with
      captureFaulted := w.captureFaulted || !(stopped && done) } := by
    intro done w
    exact Within.single (k := .latch) (by decide) (.latch _ w fun h => by rw [h, Bool.true_or])
  unfold quiesceCapture
  dsimp only
  split
  · exact hcommand.trans (((releaseCapture_does i _).mono (by decide)).trans (hlatch _ _))
  · exact hcommand.trans (hlatch _ _)

def stopKinds : Finset Kind := {.thread, .reset} ∪ quiesceKinds

theorem awaitCapture_does (exited : Bool) (w : World) :
    Does {.free, .thread, .latch} w
      (if w.workerStarted then stopRenderWorker exited w else (true, w)).2 := by
  split
  · exact stopRenderWorker_does exited w
  · exact Within.refl w

/-- What a stop is made of when it does not end in KSSTATE_STOP. -/
def pauseKinds : Finset Kind := insert .thread quiesceKinds

/-- A stop resets the session fields last, and only on the way to KSSTATE_STOP. -/
private theorem stopCapture_eq (target : KsState) (i : SetStateInput) (w : World) :
    ∃ u, Does pauseKinds { w with state := target } u ∧
      (stopCapture target i w).2 = if target = .stop then resetSession u else u := by
  refine ⟨_, ?_, rfl⟩
  have hstopping := (workerSteps_does i.stopping { w with state := target }).mono
    (L := pauseKinds) (by decide)
  generalize run workerStep { w with state := target } i.stopping = stopping at hstopping ⊢
  have hwaited := (awaitCapture_does i.exited stopping).mono (L := pauseKinds) (by decide)
  generalize (if stopping.workerStarted then stopRenderWorker i.exited stopping
    else (true, stopping)) = waited at hwaited ⊢
  have hlingering := (workerSteps_does i.lingering waited.2).mono (L := pauseKinds) (by decide)
  have hquiesced := (quiesceCapture_does waited.1 i (run workerStep waited.2 i.lingering)).mono
    (L := pauseKinds) (by decide)
  exact hstopping.trans (hwaited.trans (hlingering.trans hquiesced))

theorem stopCapture_pause_does (target : KsState) (i : SetStateInput) (w : World)
    (htarget : target ≠ .stop) :
    Does pauseKinds { w with state := target } (stopCapture target i w).2 := by
  obtain ⟨u, hdoes, heq⟩ := stopCapture_eq target i w
  rw [heq, if_neg htarget]
  exact hdoes

theorem stopCapture_does (target : KsState) (i : SetStateInput) (w : World) :
    Does stopKinds { w with state := target } (stopCapture target i w).2 := by
  obtain ⟨u, hdoes, heq⟩ := stopCapture_eq target i w
  have hpaused : Does stopKinds { w with state := target } u := hdoes.mono (by decide)
  rw [heq]
  split
  · exact hpaused.trans (Within.single (k := .reset) (by decide) (.reset u))
  · exact hpaused

theorem setState_start (i : SetStateInput) (w : World) (hstate : w.state ≠ .run) :
    setState .run i w = startCapture i w := if_pos ⟨rfl, hstate⟩

theorem setState_stop (target : KsState) (i : SetStateInput) (w : World) (htarget : target ≠ .run)
    (hstate : w.state = .run) : setState target i w = stopCapture target i w := by
  rw [setState, if_neg (fun h => htarget h.1), if_pos ⟨htarget, hstate⟩]

theorem setState_other (target : KsState) (i : SetStateInput) (w : World)
    (h : target = .run ↔ w.state = .run) :
    setState target i w = (.success, { w with state := target }) := by
  rw [setState, if_neg (fun hs => hs.2 (h.mp hs.1)), if_neg (fun hs => hs.1 (h.mpr hs.2))]

/-! ## Whole calls -/

/-- What an attempt to start the worker is made of. -/
def attemptKinds : Finset Kind := {.command, .enter} ∪ (threadKinds ∪ workerKinds)

private theorem launchCapture_does (oldState : KsState) (i : SetStateInput) (w : World) :
    Does attemptKinds w (launchCapture oldState i w).2 := by
  have hentered : Does attemptKinds w { w with state := .run } :=
    Within.single (k := .enter) (by decide) (.enter .run w)
  have hstarted := hentered.trans
    ((startRenderWorker_does i.worker { w with state := .run }).mono (by decide))
  unfold launchCapture
  dsimp only
  split
  · exact hstarted
  · have hlost := (workerSteps_does i.lost
      (startRenderWorker i.worker { w with state := .run }).2).mono (L := attemptKinds) (by decide)
    have hcommand := (viosndPcmCommand_does .stop i.stop (run workerStep
      (startRenderWorker i.worker { w with state := .run }).2 i.lost)).mono (L := attemptKinds)
      (by decide)
    have hlate := (workerSteps_does i.lostLate (viosndPcmCommand .stop i.stop (run workerStep
      (startRenderWorker i.worker { w with state := .run }).2 i.lost)).2).mono (L := attemptKinds)
      (by decide)
    exact hstarted.trans (hlost.trans (hcommand.trans (hlate.trans
      (Within.single (k := .enter) (by decide) (.enter oldState _)))))

theorem startCapture_begun_does (i : SetStateInput) (w : World)
    (hfault : w.captureFaulted = false) :
    Does attemptKinds (beginCapture w) (startCapture i w).2 := by
  have hprepared : Does attemptKinds (beginCapture w) _ :=
    (whenOk_does (viosndConfigureDefaultPcm_does i.configure (beginCapture w))
      (viosndPcmCommand_does .start i.start _)).mono (by decide)
  unfold startCapture
  rw [if_neg (by simp [hfault])]
  dsimp only
  split
  · exact hprepared.trans (launchCapture_does w.state i _)
  · exact hprepared.trans (Within.single (k := .enter) (by decide) (.enter w.state _))

theorem startCapture_faulted (i : SetStateInput) (w : World) (hfault : w.captureFaulted = true) :
    startCapture i w = (.deviceNotReady, w) := if_pos hfault

theorem startCapture_does (i : SetStateInput) (w : World) :
    Does (insert .begin attemptKinds) w (startCapture i w).2 := by
  cases hfault : w.captureFaulted with
  | true =>
      rw [startCapture_faulted i w hfault]
      exact Within.refl w
  | false =>
      have hbegun : Does (insert .begin attemptKinds) w (beginCapture w) :=
        Within.single (k := .begin) (by decide) (.begin w)
      exact hbegun.trans ((startCapture_begun_does i w hfault).mono (by decide))

def allKinds : Finset Kind := {.begin, .read} ∪ (attemptKinds ∪ stopKinds)

theorem step_does (w : World) (a : Action) : Does allKinds w (step w a) := by
  cases a with
  | setState target i =>
      change Does allKinds w (setState target i w).2
      have hentered : Does allKinds w { w with state := target } :=
        Within.single (k := .enter) (by decide) (.enter target w)
      unfold setState
      split_ifs
      · exact (startCapture_does i w).mono (by decide)
      · exact hentered.trans ((stopCapture_does target i w).mono (by decide))
      · exact hentered
  | worker s => exact (workerStep_does w s).mono (by decide)
  | getReadPacket => exact Within.single (k := .read) (by decide) (.read w)

end Viosnd.Capture
