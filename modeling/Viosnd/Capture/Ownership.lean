import Viosnd.Lib.Loans
import Viosnd.Lib.Stock
import Viosnd.Capture.Effects

/-!
# Capture buffers and the device

A buffer on the RX queue is lent to the device. A stop takes buffers off the queue after an accepted
RELEASE, and the fault latch keeps a stream from starting that left buffers behind.
-/

namespace Viosnd.Capture

open StepRun EffectSystem Loans

/-! ## Places and loans -/

def Event.freedId : Event → Option Nat
  | .freed io => some io.id
  | _ => none

def freedIds (history : List Event) : List Nat := history.filterMap Event.freedId

def queueIds (w : World) : List Nat := w.rxQueue.map fun entry => entry.io.id

/-- An event as the driver and the device see a buffer change hands. -/
def Event.loan : Event → Option (Loans.Event Nat)
  | .submitted entry => some (.lend entry.io.id)
  | .returned entry => some (.giveBack entry.io.id)
  | .command .release true => some .giveUpAll
  | .pooled io => some (.reuse io.id)
  | .freed io => some (.reuse io.id)
  | _ => none

def loans (history : List Event) : List (Loans.Event Nat) := history.filterMap Event.loan

/-- Each buffer is in one place, and the loans are respected so far. -/
structure Lending (w : World) : Prop where
  stocked : ∃ pooled, Stock.Kept PcmIo.id w.captureIoPool w.captureIoFreeCount pooled (queueIds w)
    (freedIds w.history) w.nextIo
  covered : Covered (queueIds w) (loans w.history)

def NothingOut (w : World) : Prop := ∀ id, ¬ Out id (loans w.history)

section

variable {w w' : World}

theorem Lending.congr (h : Lending w) (hpool : w'.captureIoPool = w.captureIoPool)
    (hcount : w'.captureIoFreeCount = w.captureIoFreeCount) (hqueue : w'.rxQueue = w.rxQueue)
    (hnext : w'.nextIo = w.nextIo) (hfreed : freedIds w'.history = freedIds w.history)
    (hloans : loans w'.history = loans w.history) : Lending w' := by
  obtain ⟨hstocked, hcovered⟩ := h
  unfold queueIds at hstocked hcovered
  constructor
  · unfold queueIds
    rwa [hpool, hcount, hqueue, hnext, hfreed]
  · unfold queueIds
    rwa [hqueue, hloans]

theorem Lending.top (h : Lending w) {io : PcmIo} (htop : PoolTop io w) : io.id ∉ queueIds w := by
  obtain ⟨pooled, hstocked⟩ := h.stocked
  exact hstocked.top_not_lent htop.1 htop.2

theorem Lending.lend (h : Lending w) (entry : RxEntry) (htop : PoolTop entry.io w) :
    Lending (lendCaptureIo entry w) := by
  obtain ⟨pooled, hstocked⟩ := h.stocked
  have hqueue : queueIds (lendCaptureIo entry w) = queueIds w ++ [entry.io.id] := List.map_append
  constructor
  · rw [hqueue]
    exact ⟨_, hstocked.lend htop.1 htop.2⟩
  · rw [hqueue]
    exact h.covered.lend (h.top htop)

theorem queueIds_getElem? {k : Nat} {entry : RxEntry} (hk : w.rxQueue[k]? = some entry) :
    (queueIds w)[k]? = some entry.io.id := by
  unfold queueIds
  rw [List.getElem?_map, hk]
  rfl

theorem queueIds_eraseIdx {k : Nat} (hqueue : w'.rxQueue = w.rxQueue.eraseIdx k) :
    queueIds w' = (queueIds w).eraseIdx k := by
  unfold queueIds
  rw [hqueue, List.eraseIdx_map]

/-- A buffer that comes back goes to the pool, or is freed when the pool is full. -/
theorem Lending.recycle (h : Lending w) (k : Nat) (entry : RxEntry)
    (hk : w.rxQueue[k]? = some entry) (hpool : w'.captureIoPool = w.captureIoPool)
    (hcount : w'.captureIoFreeCount = w.captureIoFreeCount)
    (hqueue : w'.rxQueue = w.rxQueue.eraseIdx k) (hnext : w'.nextIo = w.nextIo)
    (hfreed : freedIds w'.history = freedIds w.history)
    (hloans : loans w'.history = .giveBack entry.io.id :: loans w.history) :
    Lending (recycleCaptureIo entry.io w') := by
  obtain ⟨pooled, hstocked⟩ := h.stocked
  have hid := queueIds_getElem? hk
  have hids := queueIds_eraseIdx hqueue
  have hcovered := h.covered.reuse_returned hid
  rw [← hids, ← hloans] at hcovered
  unfold recycleCaptureIo
  split
  · refine ⟨⟨pooled ++ [entry.io], ?_⟩, hcovered⟩
    have hkept := hstocked.giveBack hid
    rw [← hids, ← hpool, ← hcount, ← hfreed, ← hnext] at hkept
    exact hkept
  · refine ⟨⟨pooled, ?_⟩, hcovered⟩
    have hkept := hstocked.giveUp hid
    rw [← hids, ← hpool, ← hcount, ← hfreed, ← hnext] at hkept
    exact hkept

theorem Lending.fail (h : Lending w) (k : Nat) (entry : RxEntry)
    (hk : w.rxQueue[k]? = some entry) :
    Lending (recycleCaptureIo entry.io (failCapture k entry w)) :=
  h.recycle k entry hk rfl rfl rfl rfl rfl rfl

theorem Lending.complete (h : Lending w) (k : Nat) (entry : RxEntry) (bytesRead : ULONG)
    (audio : Memory) (hk : w.rxQueue[k]? = some entry) :
    Lending (recycleCaptureIo entry.io
      (completeCapture entry bytesRead audio (takeRx k entry w))) := by
  obtain ⟨dropped, hdropped, hhistory⟩ :=
    completeCapture_history entry bytesRead audio (takeRx k entry w)
  have hquiet : ∀ e ∈ dropped, e.freedId = none ∧ e.loan = none := by
    intro e he
    obtain ⟨first, count, rfl⟩ := hdropped e he
    exact ⟨rfl, rfl⟩
  apply h.recycle k entry hk
  · rw [completeCapture_eq]
    rfl
  · rw [completeCapture_eq]
    rfl
  · rw [completeCapture_eq]
    rfl
  · rw [completeCapture_eq]
    rfl
  · unfold freedIds
    rw [hhistory, List.filterMap_append,
      List.filterMap_eq_nil_iff.mpr fun e he => (hquiet e he).1]
    rfl
  · unfold loans
    rw [hhistory, List.filterMap_append,
      List.filterMap_eq_nil_iff.mpr fun e he => (hquiet e he).2]
    rfl

theorem Lending.detach (h : Lending w) (hnone : NothingOut w) (k : Nat) (entry : RxEntry)
    (hk : w.rxQueue[k]? = some entry) : Lending (detachEntry k entry w) := by
  obtain ⟨pooled, hstocked⟩ := h.stocked
  have hids : queueIds (detachEntry k entry w) = (queueIds w).eraseIdx k := queueIds_eraseIdx rfl
  constructor
  · rw [hids]
    exact ⟨pooled, hstocked.giveUp (queueIds_getElem? hk)⟩
  · exact h.covered.reuse_of_none hnone _ _

theorem Lending.free (h : Lending w) (hcount : w.captureIoFreeCount ≠ 0) :
    Lending (freeCaptureIo w) ∧ ∃ io : PcmIo, loans (freeCaptureIo w).history =
      .reuse io.id :: loans w.history := by
  obtain ⟨pooled, hstocked⟩ := h.stocked
  obtain ⟨io, -, htop⟩ := hstocked.holds.filled (i := w.captureIoFreeCount - 1) (by omega)
  have hqueue : queueIds (freeCaptureIo w) = queueIds w := by
    rw [freeCaptureIo_eq]
    rfl
  have hhistory : (freeCaptureIo w).history = .freed io :: w.history := by
    rw [freeCaptureIo_eq, htop]
  refine ⟨⟨⟨pooled.dropLast, ?_⟩, ?_⟩, io, by rw [hhistory]; rfl⟩
  · rw [hqueue, hhistory, freeCaptureIo_eq]
    exact hstocked.drop hcount htop
  · rw [hqueue, hhistory]
    exact h.covered.reuse (h.top ⟨hcount, htop⟩)

theorem Lending.allocate (h : Lending w) : Lending (newCaptureIo w) := by
  obtain ⟨pooled, hstocked⟩ := h.stocked
  exact ⟨⟨_, hstocked.allocate rfl⟩, h.covered.reuse hstocked.next_not_lent⟩

private theorem getReadPacket_quiet (w : World) :
    freedIds (getReadPacket w).2.2.2.history = freedIds w.history ∧
      loans (getReadPacket w).2.2.2.history = loans w.history := by
  unfold getReadPacket
  split_ifs <;> exact ⟨rfl, rfl⟩

private theorem loans_command (c : PcmCommand) (accepted : Bool) (history : List Event) :
    loans (.command c accepted :: history) = loans history ∨
      loans (.command c accepted :: history) = .giveUpAll :: loans history := by
  cases c with
  | release =>
      cases accepted with
      | true => exact Or.inr rfl
      | false => exact Or.inl rfl
  | _ => exact Or.inl rfl

/-- No change breaks a loan, but for a detach while the device holds a buffer. -/
theorem Effect.lending {k : Kind} (hR : Effect k w w') (hk : k = .detach → NothingOut w)
    (h : Lending w) : Lending w' := by
  cases hR with
  | command c accepted =>
      rcases loans_command c accepted w.history with hsame | hall
      · exact h.congr rfl rfl rfl rfl rfl hsame
      · refine ⟨h.stocked, ?_⟩
        change Covered (queueIds w) (loans (.command c accepted :: w.history))
        rw [hall]
        exact h.covered.giveUpAll
  | read =>
      obtain ⟨hfreed, hloans⟩ := getReadPacket_quiet w
      refine h.congr ?_ ?_ ?_ ?_ hfreed hloans
      all_goals rw [getReadPacket_eq]
  | allocate => exact h.allocate
  | free _ hcount => exact (h.free hcount).1
  | refuse io _ htop => exact ⟨h.stocked, h.covered.reuse (h.top htop)⟩
  | submit entry _ htop => exact h.lend entry htop
  | fail k entry _ hentry => exact h.fail k entry hentry
  | complete k entry bytesRead audio _ hentry =>
      exact h.complete k entry bytesRead audio hentry
  | detach k entry _ hentry => exact h.detach (hk rfl) k entry hentry
  | _ => exact h.congr rfl rfl rfl rfl rfl rfl

theorem loans_recycled (io : PcmIo) (w : World) :
    loans (recycleCaptureIo io w).history = .reuse io.id :: loans w.history := by
  rw [recycleCaptureIo_eq]
  dsimp only
  split <;> rfl

theorem Effect.nothingOut {k : Kind} (hR : Effect k w w') (hk : k ≠ .submit) (h : Lending w)
    (hnone : NothingOut w) : NothingOut w' := by
  intro id hout
  cases hR with
  | submit => exact hk rfl
  | command c accepted =>
      rcases loans_command c accepted w.history with hsame | hall
      · exact hnone id (hsame ▸ hout)
      · exact out_giveUpAll id _ (hall ▸ hout)
  | read =>
      rw [(getReadPacket_quiet w).2] at hout
      exact hnone id hout
  | free _ hcount =>
      obtain ⟨-, io, hloans⟩ := h.free hcount
      rw [hloans] at hout
      exact hnone id hout
  | fail k entry =>
      rw [loans_recycled] at hout
      exact hnone id hout.2
  | complete k entry bytesRead audio =>
      obtain ⟨dropped, hdropped, hhistory⟩ :=
        completeCapture_history entry bytesRead audio (takeRx k entry w)
      have hquiet : ∀ e ∈ dropped, e.loan = none := by
        intro e he
        obtain ⟨first, count, rfl⟩ := hdropped e he
        rfl
      rw [loans_recycled] at hout
      unfold loans at hout
      rw [hhistory, List.filterMap_append, List.filterMap_eq_nil_iff.mpr hquiet] at hout
      exact hnone id hout.2
  | _ => exact hnone id hout

private theorem Effect.queue_nil {k : Kind} (hR : Effect k w w') (hk : k ≠ .submit)
    (hnil : w.rxQueue = []) : w'.rxQueue = [] := by
  cases hR with
  | submit => exact absurd rfl hk
  | read =>
      rw [getReadPacket_eq]
      exact hnil
  | free =>
      rw [freeCaptureIo_eq]
      exact hnil
  | fail k entry _ hentry =>
      rw [hnil] at hentry
      cases hentry
  | complete k entry bytesRead audio _ hentry =>
      rw [hnil] at hentry
      cases hentry
  | detach k entry _ hentry =>
      rw [hnil] at hentry
      cases hentry
  | _ => exact hnil

private theorem Effect.faulted {k : Kind} (hR : Effect k w w') (hfault : w.captureFaulted = true) :
    w'.captureFaulted = true := by
  cases hR with
  | latch captureFaulted _ hlatch => exact hlatch hfault
  | read =>
      rw [getReadPacket_eq]
      exact hfault
  | free =>
      rw [freeCaptureIo_eq]
      exact hfault
  | fail =>
      rw [recycleCaptureIo_eq]
      exact hfault
  | complete =>
      rw [recycleCaptureIo_eq, completeCapture_eq]
      exact hfault
  | _ => exact hfault

variable {K : Finset Kind}

theorem Does.lending (h : Does K w w') (hK : .detach ∉ K) (hw : Lending w) : Lending w' :=
  h.invariant (fun _ hk _ _ hR => hR.lending fun he => absurd (he ▸ hk) hK) hw

theorem Does.nothingOut (h : Does K w w') (hK : .submit ∉ K) (hw : Lending w)
    (hnone : NothingOut w) : Lending w' ∧ NothingOut w' := by
  refine h.invariant (P := fun w => Lending w ∧ NothingOut w) ?_ ⟨hw, hnone⟩
  intro k hk u v hR hu
  exact ⟨hR.lending (fun _ => hu.2) hu.1, hR.nothingOut (fun he => hK (he ▸ hk)) hu.1 hu.2⟩

private theorem Does.queue_nil (h : Does K w w') (hK : .submit ∉ K) (hnil : w.rxQueue = []) :
    w'.rxQueue = [] :=
  h.invariant (P := fun w => w.rxQueue = [])
    (fun _ hk _ _ hR => hR.queue_nil fun he => hK (he ▸ hk)) hnil

private theorem Does.faulted (h : Does K w w') (hfault : w.captureFaulted = true) :
    w'.captureFaulted = true :=
  h.invariant (P := fun w => w.captureFaulted = true) (fun _ _ _ _ hR => hR.faulted) hfault

end

/-! ## Where the loans are kept -/

/-- After an accepted RELEASE no submission that tested the state before comes in, unless all
buffers are detached already and the wait for the worker timed out. -/
def StopRespects (i : SetStateInput) (w : World) : Prop :=
  i.release = .success → (∀ s ∈ i.released, ¬ s.Late) ∧ (∀ s ∈ i.drained, ¬ s.Late) ∧
    ((∀ s ∈ i.detached, ¬ s.Late) ∨
      w.workerStarted = true ∧ w.threadObject = true ∧ i.exited = false)

/-- A thread that could not be referenced submits nothing. -/
def StartRespects (i : SetStateInput) : Prop :=
  (∀ s ∈ i.lost, ¬ s.Queues) ∧ ∀ s ∈ i.lostLate, ¬ s.Queues

def OwnershipGuard (w : World) : Action → Prop
  | .setState target i => (target = .run → w.state ≠ .run → StartRespects i) ∧
      (target ≠ .run → w.state = .run → StopRespects i w)
  | .worker s => s.Late → w.state = .run ∨ w.captureFaulted = true
  | .getReadPacket => True

/-- Outside KSSTATE_RUN a stream that may start has no buffer on the queue. -/
structure Owned (w : World) : Prop where
  lending : Lending w
  clear : w.state ≠ .run → w.captureFaulted = false → w.rxQueue = []

section

variable {w : World}

theorem workerStep_owned (s : WorkerStep) (hg : OwnershipGuard w (.worker s)) (hw : Owned w) :
    Owned (workerStep w s) := by
  have hdoes := workerStep_does w s
  refine ⟨hdoes.lending (by decide) hw.lending, ?_⟩
  intro hstate hfault
  rw [hdoes.state_eq (by decide)] at hstate
  have hopen : w.captureFaulted = false := by
    by_contra hfaulted
    rw [hdoes.faulted (by simpa using hfaulted)] at hfault
    cases hfault
  have hprompt : ¬ s.Late := by
    intro hlate
    rcases hg hlate with hrun | hfaulted
    · exact hstate hrun
    · rw [hopen] at hfaulted
      cases hfaulted
  exact (workerStep_prompt_does w s hstate hprompt).queue_nil (by decide) (hw.clear hstate hopen)

/-- A failed start of the worker leaves the queue empty when the lost thread submits nothing. -/
private theorem launchCapture_owned (oldState : KsState) (i : SetStateInput) (hi : StartRespects i)
    (hnil : w.rxQueue = []) (hok : (launchCapture oldState i w).1 ≠ .success) :
    (launchCapture oldState i w).2.rxQueue = [] := by
  have hstarted := startRenderWorker_does i.worker { w with state := .run }
  have hempty := hstarted.queue_nil (by decide) hnil
  unfold launchCapture at hok ⊢
  dsimp only at hok ⊢
  split_ifs at hok ⊢ with hsuccess
  · exact absurd ((NtStatus.isSuccess_iff _).mp hsuccess) hok
  · have hlost := (workerSteps_quiet_does i.lost _ hi.1).queue_nil (by decide) hempty
    have hstop := (viosndPcmCommand_does .stop i.stop _).queue_nil (by decide) hlost
    exact (workerSteps_quiet_does i.lostLate _ hi.2).queue_nil (by decide) hstop

private theorem startCapture_owned (i : SetStateInput) (hi : StartRespects i)
    (hstate : w.state ≠ .run) (hw : Owned w) : Owned (startCapture i w).2 := by
  refine ⟨(startCapture_does i w).lending (by decide) hw.lending, ?_⟩
  cases hfault : w.captureFaulted with
  | true =>
      rw [startCapture_faulted i w hfault]
      intro _ hopen
      rw [hfault] at hopen
      cases hopen
  | false =>
      intro hstopped _
      have hnil := hw.clear hstate hfault
      have hfail : (startCapture i w).1 ≠ .success := fun hok =>
        hstopped (startCapture_success_does i w hok).2
      have hbegun : (beginCapture w).rxQueue = [] := hnil
      have hprepared : (whenOk (viosndConfigureDefaultPcm i.configure (beginCapture w))
          (viosndPcmCommand .start i.start)).2.rxQueue = [] :=
        (whenOk_does (viosndConfigureDefaultPcm_does _ _) (viosndPcmCommand_does _ _ _)).queue_nil
          (by decide) hbegun
      rw [startCapture, if_neg (by simp [hfault])] at hfail ⊢
      dsimp only at hfail ⊢
      split_ifs at hfail ⊢ with hr
      · exact launchCapture_owned w.state i hi hprepared hfail
      · exact hprepared

private theorem drainCapture_owned (i : SetStateInput) (hstate : w.state ≠ .run)
    (hreleased : ∀ s ∈ i.released, ¬ s.Late) (hdrained : ∀ s ∈ i.drained, ¬ s.Late)
    (hw : Lending w) (hnone : NothingOut w) :
    Lending (drainCapture i w) ∧ NothingOut (drainCapture i w) ∧
      (drainCapture i w).rxQueue = [] := by
  have hfirst := workerSteps_prompt_does i.released w hstate hreleased
  have hreclaim := reclaimCapturePackets_does i.reclaims (run workerStep w i.released)
  have hstate' : (reclaimCapturePackets i.reclaims (run workerStep w i.released)).state ≠ .run := by
    rw [hreclaim.state_eq (by decide), hfirst.state_eq (by decide)]
    exact hstate
  have hlast := workerSteps_prompt_does i.drained _ hstate' hdrained
  obtain ⟨hlending, hquiet⟩ := hfirst.nothingOut (by decide) hw hnone
  obtain ⟨hlending, hquiet⟩ := hreclaim.nothingOut (by decide) hlending hquiet
  obtain ⟨hlending, hquiet⟩ := hlast.nothingOut (by decide) hlending hquiet
  obtain ⟨hlending, hquiet⟩ := (detachReads_does _ i.picks _).nothingOut (by decide) hlending hquiet
  exact ⟨hlending, hquiet, viosndDetachUnusedReadPcm_empty i.picks _⟩

/-- Once drained, the queue stays empty unless a late submission comes in. -/
private theorem releaseCapture_owned (i : SetStateInput) (hstate : w.state ≠ .run)
    (hreleased : ∀ s ∈ i.released, ¬ s.Late) (hdrained : ∀ s ∈ i.drained, ¬ s.Late)
    (hw : Lending w) (hnone : NothingOut w) :
    Lending (releaseCapture i w).2 ∧
      ((∀ s ∈ i.detached, ¬ s.Late) → (releaseCapture i w).2.rxQueue = []) := by
  obtain ⟨hlending, -, hnil⟩ := drainCapture_owned i hstate hreleased hdrained hw hnone
  have hsettled : ∀ v : World, Does {.settle, .free, .command} v
      (viosndConfigureDefaultPcm i.configure
        (freeCaptureIoPool { v with captureInFlight := 0, outstandingWrites := 0 })).2 := by
    intro v
    have hfirst : Does {.settle, .free, .command} v
        { v with captureInFlight := 0, outstandingWrites := 0 } :=
      Within.single (k := .settle) (by decide) (.settle v)
    exact hfirst.trans (((freeCaptureIoPool_does _).mono (by decide)).trans
      ((viosndConfigureDefaultPcm_does i.configure _).mono (by decide)))
  have hdetached := workerSteps_does i.detached (drainCapture i w)
  refine ⟨(hsettled _).lending (by decide) (hdetached.lending (by decide) hlending), ?_⟩
  intro hquiet
  have hstate' : (drainCapture i w).state ≠ .run := by
    rw [(drainCapture_does i w).state_eq (by decide)]
    exact hstate
  exact (hsettled _).queue_nil (by decide)
    ((workerSteps_prompt_does i.detached _ hstate' hquiet).queue_nil (by decide) hnil)

/-- A clean-up that leaves the stream open to a start leaves no buffer on the queue. -/
private theorem quiesceCapture_owned (stopped : Bool) (i : SetStateInput) (hstate : w.state ≠ .run)
    (hi : i.release = .success → (∀ s ∈ i.released, ¬ s.Late) ∧ (∀ s ∈ i.drained, ¬ s.Late) ∧
      ((∀ s ∈ i.detached, ¬ s.Late) ∨ stopped = false)) (hw : Lending w) :
    Lending (quiesceCapture stopped i w) ∧
      ((quiesceCapture stopped i w).captureFaulted = false →
        (quiesceCapture stopped i w).rxQueue = []) := by
  have hcommand := (viosndPcmCommand_does .release i.release w).lending (by decide) hw
  unfold quiesceCapture
  dsimp only
  split_ifs with haccepted
  · have hrelease : i.release = .success := (NtStatus.isSuccess_iff _).mp haccepted
    obtain ⟨hreleased, hdrained, hdetached⟩ := hi hrelease
    have hnone : NothingOut (viosndPcmCommand .release i.release w).2 := by
      rw [hrelease]
      exact fun id hout => out_giveUpAll id _ hout
    have hstate' : (viosndPcmCommand .release i.release w).2.state ≠ .run := hstate
    obtain ⟨hlending, hclear⟩ := releaseCapture_owned i hstate' hreleased hdrained hcommand hnone
    refine ⟨hlending.congr rfl rfl rfl rfl rfl rfl, ?_⟩
    intro hopen
    rcases hdetached with hquiet | htimedOut
    · exact hclear hquiet
    · rw [htimedOut] at hopen
      simp at hopen
  · refine ⟨hcommand.congr rfl rfl rfl rfl rfl rfl, ?_⟩
    intro hopen
    simp at hopen

private theorem stopRenderWorker_timedOut (exited : Bool) (w : World)
    (hthread : w.threadObject = true) (hexited : exited = false) :
    (stopRenderWorker exited w).1 = false := by
  unfold stopRenderWorker
  rw [if_neg (by simp [hthread]), if_pos hexited]

private theorem stopCapture_owned (target : KsState) (i : SetStateInput) (htarget : target ≠ .run)
    (hi : StopRespects i w) (hw : Lending w) :
    Lending (stopCapture target i w).2 ∧ ((stopCapture target i w).2.captureFaulted = false →
      (stopCapture target i w).2.rxQueue = []) := by
  have hentered := (Does.one (.enter target w)).lending (by decide) hw
  have hstopping := workerSteps_does i.stopping { w with state := target }
  have hthread : (run workerStep { w with state := target } i.stopping).threadObject =
      w.threadObject ∧ (run workerStep { w with state := target } i.stopping).workerStarted =
        w.workerStarted := hstopping.thread_eq (by decide)
  have hlending := hstopping.lending (by decide) hentered
  have hstate := hstopping.state_eq (by decide)
  unfold stopCapture
  dsimp only
  generalize run workerStep { w with state := target } i.stopping = stopping at *
  have hwaited := awaitCapture_does i.exited stopping
  have htimedOut : w.workerStarted = true ∧ w.threadObject = true ∧ i.exited = false →
      (if stopping.workerStarted then stopRenderWorker i.exited stopping
        else (true, stopping)).1 = false := by
    rintro ⟨hworker, hobject, hexited⟩
    rw [if_pos (by rw [hthread.2, hworker])]
    exact stopRenderWorker_timedOut i.exited stopping (by rw [hthread.1, hobject]) hexited
  generalize (if stopping.workerStarted then stopRenderWorker i.exited stopping
    else (true, stopping)) = waited at hwaited htimedOut ⊢
  have hlingering := workerSteps_does i.lingering waited.2
  have hbefore := hlingering.lending (by decide) (hwaited.lending (by decide) hlending)
  have hstopped : (run workerStep waited.2 i.lingering).state ≠ .run := by
    rw [hlingering.state_eq (by decide), hwaited.state_eq (by decide), hstate]
    exact htarget
  obtain ⟨hafter, hclear⟩ := quiesceCapture_owned waited.1 i hstopped (by
    intro hrelease
    obtain ⟨hreleased, hdrained, hdetached⟩ := hi hrelease
    exact ⟨hreleased, hdrained, hdetached.imp_right htimedOut⟩) hbefore
  split_ifs
  · exact ⟨hafter.congr rfl rfl rfl rfl rfl rfl, hclear⟩
  · exact ⟨hafter, hclear⟩

end

theorem step_owned (w : World) (a : Action) (hw : Owned w) (hg : OwnershipGuard w a) :
    Owned (step w a) := by
  cases a with
  | setState target i =>
      change Owned (setState target i w).2
      by_cases htarget : target = .run
      · subst htarget
        by_cases hstate : w.state = .run
        · rw [setState_other .run i w (iff_of_true rfl hstate)]
          exact ⟨(Does.one (.enter .run w)).lending (by decide) hw.lending,
            fun h => absurd rfl h⟩
        · rw [setState_start i w hstate]
          exact startCapture_owned i (hg.1 rfl hstate) hstate hw
      · by_cases hstate : w.state = .run
        · rw [setState_stop target i w htarget hstate]
          obtain ⟨hlending, hclear⟩ :=
            stopCapture_owned target i htarget (hg.2 htarget hstate) hw.lending
          exact ⟨hlending, fun _ => hclear⟩
        · rw [setState_other target i w (iff_of_false htarget hstate)]
          exact ⟨(Does.one (.enter target w)).lending (by decide) hw.lending,
            fun _ => hw.clear hstate⟩
  | worker s => exact workerStep_owned s hg hw
  | getReadPacket =>
      have hread := Does.one (.read w)
      refine ⟨hread.lending (by decide) hw.lending, ?_⟩
      change (getReadPacket w).2.2.2.state ≠ .run →
        (getReadPacket w).2.2.2.captureFaulted = false → (getReadPacket w).2.2.2.rxQueue = []
      rw [getReadPacket_eq]
      exact hw.clear

/-! ## The contract -/

/-- The buffer was submitted, and since then neither returned nor given up with an accepted
RELEASE. -/
def OnQueue (id : Nat) (history : List Event) : Prop := Out id (loans history)

instance onQueue_decidable (id : Nat) (history : List Event) : Decidable (OnQueue id history) :=
  inferInstanceAs (Decidable (Out id (loans history)))

/-- No buffer is freed while the device may use it. -/
def FreedSafely : List Event → Prop
  | [] => True
  | .freed io :: older => ¬ OnQueue io.id older ∧ FreedSafely older
  | _ :: older => FreedSafely older

instance freedSafely_decidable (history : List Event) : Decidable (FreedSafely history) :=
  match history with
  | [] => isTrue trivial
  | .freed io :: older =>
      have := freedSafely_decidable older
      inferInstanceAs (Decidable (¬ OnQueue io.id older ∧ FreedSafely older))
  | .command _ _ :: older => freedSafely_decidable older
  | .begun :: older => freedSafely_decidable older
  | .submitted _ :: older => freedSafely_decidable older
  | .returned _ :: older => freedSafely_decidable older
  | .detached _ :: older => freedSafely_decidable older
  | .pooled _ :: older => freedSafely_decidable older
  | .stored _ _ :: older => freedSafely_decidable older
  | .failed _ :: older => freedSafely_decidable older
  | .dropped _ _ :: older => freedSafely_decidable older
  | .handedOut _ :: older => freedSafely_decidable older

/-- Buffers are freed once and safely, and a start that is not refused finds an empty queue. -/
structure BufferOwnership (w : World) : Prop where
  freedOnce : (freedIds w.history).Nodup
  freedSafely : FreedSafely w.history
  startsEmpty : w.state ≠ .run → w.captureFaulted = false → w.rxQueue = []

private theorem freedSafely_of_respected (history : List Event) (h : Respected (loans history)) :
    FreedSafely history := by
  induction history with
  | nil => trivial
  | cons e older ih =>
      have hrest : Respected (loans older) → FreedSafely older := ih
      cases e with
      | freed io =>
          have hfreed : Respected (.reuse io.id :: loans older) := h
          rw [respected_reuse] at hfreed
          exact ⟨hfreed.1, hrest hfreed.2⟩
      | submitted entry => exact hrest h.2
      | returned entry => exact hrest h.2
      | pooled io => exact hrest h.2
      | command c accepted =>
          rcases loans_command c accepted older with hsame | hall
          · rw [hsame] at h
            exact hrest h
          · rw [hall] at h
            exact hrest h.2
      | _ => exact hrest h

private theorem Owned.bufferOwnership {w : World} (h : Owned w) : BufferOwnership w := by
  obtain ⟨pooled, hstocked⟩ := h.lending.stocked
  exact ⟨hstocked.gone_nodup, freedSafely_of_respected _ h.lending.covered.respected, h.clear⟩

theorem World.fresh_owned (allocated : Option ULONG) : Owned (World.fresh allocated) :=
  ⟨⟨⟨[], Stock.kept_nil PcmIo.id⟩, covered_nil _⟩, fun _ _ => rfl⟩

/-- Where nothing is submitted between RELEASE and the detach, and a stream that may start is left
alone, every buffer is freed once and not before the device is done with it. -/
theorem run_bufferOwnership (allocated : Option ULONG) (actions : List Action)
    (hg : Guarded step OwnershipGuard (World.fresh allocated) actions) :
    BufferOwnership (run step (World.fresh allocated) actions) :=
  (hg.invariant step_owned (World.fresh_owned allocated)).bufferOwnership

/-- The worker does not end in time and its submission comes in after RELEASE was rejected. -/
theorem run_bufferOwnership_faulted :
    BufferOwnership (run step (World.fresh (some 4096))
      [.setState .run .granted, .worker (.submit .queued), .setState .stop
        { SetStateInput.granted with exited := false, release := .ioDeviceError },
        .worker (.submitLate .queued), .setState .run .granted]) := by
  apply run_bufferOwnership
  refine ⟨⟨fun _ _ => ⟨by simp [SetStateInput.granted], by simp [SetStateInput.granted]⟩, ?_⟩, ?_,
    ⟨?_, fun _ _ hrelease => ?_⟩, ?_, ⟨fun _ _ => ⟨by simp [SetStateInput.granted],
      by simp [SetStateInput.granted]⟩, ?_⟩, trivial⟩
  · intro h
    exact absurd rfl h
  · intro h
    cases h
  · intro h
    cases h
  · cases hrelease
  · intro _
    exact Or.inr (by decide +kernel)
  · intro h
    exact absurd rfl h

/-- The wait for the worker times out and its submission comes in between RELEASE and the detach:
the buffer is freed while the device holds it. -/
theorem run_not_freedSafely :
    ¬ BufferOwnership (run step (World.fresh (some 4096))
      [.setState .run .granted, .setState .stop { SetStateInput.granted with
        exited := false, released := [.submitLate .queued] }]) :=
  fun h => absurd h.freedSafely (by decide +kernel)

end Viosnd.Capture
