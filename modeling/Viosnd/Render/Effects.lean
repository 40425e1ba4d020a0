import Viosnd.Lib.Effects
import Viosnd.Render.SetState

/-!
# What the routines do to the stream

Every routine is a sequence of small changes of a few kinds. Each kind is described once here, and
each routine is decomposed once; an invariant of the stream is checked kind by kind.
-/

namespace Viosnd.Render

open StepRun EffectSystem

/-- The pool's top buffer goes to the queue. -/
def lendRenderIo (entry : TxEntry) (w : World) : World :=
  { (popRenderIo w).2 with
    txQueue := w.txQueue ++ [entry]
    history := .submitted entry :: w.history
    outstandingWrites := w.outstandingWrites + 1 }

/-- A buffer the device returned is accounted for and recycled. -/
def completeEntry (k : Nat) (entry : TxEntry) (w : World) : World :=
  recycleRenderIo entry.io (accountCompletion entry { w with
    txQueue := w.txQueue.eraseIdx k
    history := .returned entry :: w.history
    outstandingWrites := w.outstandingWrites - 1 })

def detachEntry (k : Nat) (entry : TxEntry) (w : World) : World :=
  recycleRenderIo entry.io { w with
    txQueue := w.txQueue.eraseIdx k
    history := .detached entry :: w.history
    outstandingWrites := w.outstandingWrites - 1 }

def freeRenderIo (w : World) : World := viosndFreeWritePcmIo (popRenderIo w).1 (popRenderIo w).2

def newRenderIo (requestLength : Nat) (w : World) : World :=
  { pushRenderIo (some ⟨w.nextIo, requestLength⟩) w with nextIo := w.nextIo + 1 }

/-- The pool's top buffer is `io`. -/
def PoolTop (io : PcmIo) (w : World) : Prop :=
  w.renderIoFreeCount ≠ 0 ∧ w.renderIoPool (w.renderIoFreeCount - 1) = some io

inductive Kind where
  | command
  | rejected
  | reading
  | report
  | tune
  | thread
  | fallback
  | anchor
  | clear
  | enter
  | settle
  | reset
  | write
  | allocate
  | free
  | refuse
  | preroll
  | silence
  | packet
  | complete
  | detach
  deriving DecidableEq

inductive Effect : Kind → World → World → Prop where
  | command (c : PcmCommand) (accepted : Bool) (w : World) :
      Effect .command w (w.note (.command c accepted))
  | rejected (c : PcmCommand) (w : World) : Effect .rejected w (w.note (.command c false))
  | reading (qpc : LONGLONG) (w : World) : Effect .reading w (w.note (.counter qpc))
  | report (position : ULONGLONG) (w : World) : Effect .report w (w.note (.reported position))
  /-- Fields the buffers, the packet numbers and the clock do not depend on. -/
  | tune (w : World) (buffer : Option Memory) (renderPrerollPackets : Nat)
      (renderFallbackPhase : ULONG) (renderFallbackBuffer : Option ULONG)
      (fallbackMonitorStartPosition : ULONGLONG) (fallbackMonitorStartQpc : LONGLONG)
      (renderFallbackAttempted : Bool) (targetOutstanding : Nat)
      (htarget : targetOutstanding = w.targetOutstanding ∨
        targetOutstanding ≤ renderTargetOutstandingPackets) :
      Effect .tune w { w with
        buffer, renderPrerollPackets, renderFallbackPhase, renderFallbackBuffer,
        fallbackMonitorStartPosition, fallbackMonitorStartQpc, renderFallbackAttempted,
        targetOutstanding }
  | thread (threadObject workerStarted : Bool) (w : World) :
      Effect .thread w { w with threadObject, workerStarted }
  | fallback (active : Bool) (w : World) :
      Effect .fallback w { w with renderFallbackActive := active }
  | anchor (qpc frequency : LONGLONG) (w : World) :
      Effect .anchor w (anchorClock qpc frequency w)
  | clear (w : World) : Effect .clear w (clearAnchor w)
  | enter (s : KsState) (w : World) : Effect .enter w { w with state := s }
  | settle (qpc : LONGLONG) (w : World) : Effect .settle w (settlePosition qpc w)
  | reset (w : World) : Effect .reset w (resetSession w)
  | write (packetNumber : ULONG) (endOfStream : Bool) (eosPacketLength : ULONG) (w : World) :
      Effect .write w (setWritePacket packetNumber endOfStream eosPacketLength w).2
  | allocate (requestLength : Nat) (w : World) : Effect .allocate w (newRenderIo requestLength w)
  | free (w : World) (hfree : w.renderIoFreeCount ≠ 0) : Effect .free w (freeRenderIo w)
  /-- The queue refused the pool's top buffer, which went back to its place. -/
  | refuse (io : PcmIo) (w : World) (htop : PoolTop io w) : Effect .refuse w (w.note (.pooled io))
  | preroll (entry : TxEntry) (w : World) (htop : PoolTop entry.io w)
      (hnumber : entry.packetNumber = maxULONG)
      (hroom : w.outstandingWrites < renderStartPrerollPackets) :
      Effect .preroll w (lendRenderIo entry w)
  | silence (entry : TxEntry) (w : World) (htop : PoolTop entry.io w)
      (hnumber : entry.packetNumber = w.nextSubmitPacket)
      (hroom : w.outstandingWrites < w.targetOutstanding)
      (hcyclic : w.lastOsWritePacket = maxULONG) :
      Effect .silence w { lendRenderIo entry w with
        nextSubmitPacket := if w.nextSubmitPacket ≠ maxULONG then w.nextSubmitPacket + 1
          else w.nextSubmitPacket }
  | packet (entry : TxEntry) (n : Nat) (w : World) (htop : PoolTop entry.io w)
      (hnumber : entry.packetNumber = w.nextSubmitPacket)
      (hroom : w.outstandingWrites < w.targetOutstanding)
      (hwritten : w.lastOsWritePacket ≠ maxULONG → ∀ p ∈ packetsFrom w.nextSubmitPacket n,
        viosndPacketNumberLessOrEqual p w.lastOsWritePacket = true) :
      Effect .packet w { lendRenderIo entry w with
        nextSubmitPacket := w.nextSubmitPacket + BitVec.ofNat 32 n
        history := .consumed (packetsFrom w.nextSubmitPacket n) ::
          .submitted entry :: w.history }
  | complete (k : Nat) (entry : TxEntry) (w : World) (hk : w.txQueue[k]? = some entry) :
      Effect .complete w (completeEntry k entry w)
  | detach (k : Nat) (entry : TxEntry) (w : World) (hk : w.txQueue[k]? = some entry) :
      Effect .detach w (detachEntry k entry w)

/-- `w'` is reached from `w` by changes of the kinds `K`. -/
abbrev Does (K : Finset Kind) (w w' : World) : Prop := Within Effect K w w'

theorem Does.one {k : Kind} {w w' : World} (h : Effect k w w') : Does {k} w w' :=
  Within.single (Finset.mem_singleton_self k) h

/-! ## Frames -/

theorem recycleRenderIo_eq (io : PcmIo) (w : World) :
    recycleRenderIo io w = { w with
      renderIoPool := (recycleRenderIo io w).renderIoPool
      renderIoFreeCount := (recycleRenderIo io w).renderIoFreeCount
      history := (recycleRenderIo io w).history } := by
  unfold recycleRenderIo
  split <;> rfl

theorem accountCompletion_eq (entry : TxEntry) (w : World) :
    accountCompletion entry w = { w with
      position := (accountCompletion entry w).position
      packetNumber := (accountCompletion entry w).packetNumber
      history := (accountCompletion entry w).history } := by
  unfold accountCompletion
  split <;> rfl

theorem recycleRenderIo_history (io : PcmIo) (w : World) :
    (recycleRenderIo io w).history =
      (if w.renderIoFreeCount < renderIoPoolSize then .pooled io else .freed io) ::
        w.history := by
  unfold recycleRenderIo
  split <;> rfl

private theorem addPosition_history (bytes : ULONG) (w : World) :
    ∃ carried : List Event, (∀ e ∈ carried, e = .carried) ∧
      (addPosition bytes w).history = carried ++ w.history := by
  unfold addPosition
  dsimp only
  split
  · exact ⟨[], by simp, rfl⟩
  · exact ⟨[.carried], by simp, rfl⟩

theorem accountCompletion_history (entry : TxEntry) (w : World) :
    ∃ carried : List Event, (∀ e ∈ carried, e = .carried) ∧
      (accountCompletion entry w).history = carried ++ w.history := by
  unfold accountCompletion
  split
  · exact ⟨[], by simp, rfl⟩
  · exact addPosition_history _ w

/-- A completion is noted, then a carry of the position, then where the buffer went. -/
theorem completeEntry_history (k : Nat) (entry : TxEntry) (w : World) :
    ∃ carried : List Event, (∀ e ∈ carried, e = .carried) ∧
      (completeEntry k entry w).history =
        (if w.renderIoFreeCount < renderIoPoolSize then .pooled entry.io else .freed entry.io) ::
          (carried ++ .returned entry :: w.history) := by
  obtain ⟨carried, hcarried, hhistory⟩ := accountCompletion_history entry { w with
    txQueue := w.txQueue.eraseIdx k
    history := .returned entry :: w.history
    outstandingWrites := w.outstandingWrites - 1 }
  refine ⟨carried, hcarried, ?_⟩
  unfold completeEntry
  rw [recycleRenderIo_history, hhistory, accountCompletion_eq]

theorem detachEntry_history (k : Nat) (entry : TxEntry) (w : World) :
    (detachEntry k entry w).history =
      (if w.renderIoFreeCount < renderIoPoolSize then .pooled entry.io else .freed entry.io) ::
        .detached entry :: w.history := by
  unfold detachEntry
  rw [recycleRenderIo_history]

theorem completeEntry_eq (k : Nat) (entry : TxEntry) (w : World) :
    completeEntry k entry w = { w with
      renderIoPool := (completeEntry k entry w).renderIoPool
      renderIoFreeCount := (completeEntry k entry w).renderIoFreeCount
      outstandingWrites := w.outstandingWrites - 1
      txQueue := w.txQueue.eraseIdx k
      position := (completeEntry k entry w).position
      packetNumber := (completeEntry k entry w).packetNumber
      history := (completeEntry k entry w).history } := by
  unfold completeEntry
  rw [recycleRenderIo_eq, accountCompletion_eq]

theorem detachEntry_eq (k : Nat) (entry : TxEntry) (w : World) :
    detachEntry k entry w = { w with
      renderIoPool := (detachEntry k entry w).renderIoPool
      renderIoFreeCount := (detachEntry k entry w).renderIoFreeCount
      outstandingWrites := w.outstandingWrites - 1
      txQueue := w.txQueue.eraseIdx k
      history := (detachEntry k entry w).history } := by
  unfold detachEntry
  rw [recycleRenderIo_eq]

theorem freeRenderIo_eq (w : World) :
    freeRenderIo w = { w with
      renderIoPool := Function.update w.renderIoPool (w.renderIoFreeCount - 1) none
      renderIoFreeCount := w.renderIoFreeCount - 1
      history := (freeRenderIo w).history } := by
  unfold freeRenderIo viosndFreeWritePcmIo
  split <;> rfl

theorem setWritePacket_eq (packetNumber : ULONG) (endOfStream : Bool) (eosPacketLength : ULONG)
    (w : World) :
    (setWritePacket packetNumber endOfStream eosPacketLength w).2 = { w with
      nextSubmitPacket :=
        (setWritePacket packetNumber endOfStream eosPacketLength w).2.nextSubmitPacket
      lastOsWritePacket :=
        (setWritePacket packetNumber endOfStream eosPacketLength w).2.lastOsWritePacket
      eosPacketNumber :=
        (setWritePacket packetNumber endOfStream eosPacketLength w).2.eosPacketNumber
      eosPacketLength :=
        (setWritePacket packetNumber endOfStream eosPacketLength w).2.eosPacketLength
      history := (setWritePacket packetNumber endOfStream eosPacketLength w).2.history } := by
  unfold setWritePacket
  split
  · rfl
  · dsimp only
    split
    · rfl
    · split <;> rfl

theorem setWritePacket_history (packetNumber : ULONG) (endOfStream : Bool)
    (eosPacketLength : ULONG) (w : World) :
    (setWritePacket packetNumber endOfStream eosPacketLength w).2.history =
      if w.buffer.isNone ∨ w.packetSize = 0 then w.history
      else .wrote packetNumber :: w.history := by
  unfold setWritePacket
  split
  · rfl
  · dsimp only
    split
    · rfl
    · split <;> rfl

namespace Effect

variable {k : Kind} {w w' : World}

theorem sizes_eq (h : Effect k w w') :
    (w'.bufferSize, w'.notificationCount, w'.packetSize) =
      (w.bufferSize, w.notificationCount, w.packetSize) := by
  cases h with
  | write => rw [setWritePacket_eq]
  | free => rw [freeRenderIo_eq]
  | complete => rw [completeEntry_eq]
  | detach => rw [detachEntry_eq]
  | _ => rfl

theorem state_eq (h : Effect k w w') (hk : k ≠ .enter) : w'.state = w.state := by
  cases h with
  | enter => exact absurd rfl hk
  | write => rw [setWritePacket_eq]
  | free => rw [freeRenderIo_eq]
  | complete => rw [completeEntry_eq]
  | detach => rw [detachEntry_eq]
  | _ => rfl

theorem lastOsWritePacket_eq (h : Effect k w w') (hwrite : k ≠ .write) (hreset : k ≠ .reset) :
    w'.lastOsWritePacket = w.lastOsWritePacket := by
  cases h with
  | write => exact absurd rfl hwrite
  | reset => exact absurd rfl hreset
  | free => rw [freeRenderIo_eq]
  | complete => rw [completeEntry_eq]
  | detach => rw [detachEntry_eq]
  | _ => rfl

theorem thread_eq (h : Effect k w w') (hk : k ≠ .thread) :
    w'.threadObject = w.threadObject ∧ w'.workerStarted = w.workerStarted := by
  cases h with
  | thread => exact absurd rfl hk
  | write => rw [setWritePacket_eq]; exact ⟨rfl, rfl⟩
  | free => rw [freeRenderIo_eq]; exact ⟨rfl, rfl⟩
  | complete => rw [completeEntry_eq]; exact ⟨rfl, rfl⟩
  | detach => rw [detachEntry_eq]; exact ⟨rfl, rfl⟩
  | _ => exact ⟨rfl, rfl⟩

theorem nextSubmitPacket_eq (h : Effect k w w') (hwrite : k ≠ .write) (hreset : k ≠ .reset)
    (hsilence : k ≠ .silence) (hpacket : k ≠ .packet) :
    w'.nextSubmitPacket = w.nextSubmitPacket := by
  cases h with
  | write => exact absurd rfl hwrite
  | reset => exact absurd rfl hreset
  | silence => exact absurd rfl hsilence
  | packet => exact absurd rfl hpacket
  | free => rw [freeRenderIo_eq]
  | complete => rw [completeEntry_eq]
  | detach => rw [detachEntry_eq]
  | _ => rfl

end Effect

/-- The kinds of change that note the event. -/
def Event.notedBy : Event → Finset Kind
  | .command _ true => {.command}
  | .command _ false => {.command, .rejected}
  | .submitted _ => {.preroll, .silence, .packet}
  | .returned _ => {.complete}
  | .detached _ => {.detach}
  | .pooled _ => {.allocate, .refuse, .complete, .detach}
  | .freed _ => {.free, .complete, .detach}
  | .consumed _ => {.packet}
  | .wrote _ => {.write}
  | .counter _ => {.reading, .anchor, .settle}
  | .reported _ => {.report}
  | .carried => {.complete}

private theorem recycled_notedBy {k : Kind} (hk : k ∈ ({.complete, .detach} : Finset Kind))
    (w : World) (io : PcmIo) : k ∈ (if w.renderIoFreeCount < renderIoPoolSize then Event.pooled io
      else Event.freed io).notedBy := by
  simp only [Finset.mem_insert, Finset.mem_singleton] at hk
  have hpooled : k ∈ (Event.pooled io).notedBy := by
    rcases hk with rfl | rfl <;> simp [Event.notedBy]
  have hfreed : k ∈ (Event.freed io).notedBy := by
    rcases hk with rfl | rfl <;> simp [Event.notedBy]
  split
  · exact hpooled
  · exact hfreed

/-- Every change extends the history, by events of its own. -/
theorem Effect.history_extends {k : Kind} {w w' : World} (h : Effect k w w') :
    ∃ noted, w'.history = noted ++ w.history ∧ ∀ e ∈ noted, k ∈ e.notedBy := by
  cases h with
  | command c accepted =>
      refine ⟨[.command c accepted], rfl, ?_⟩
      cases accepted <;> simp [Event.notedBy]
  | rejected c => exact ⟨[.command c false], rfl, by simp [Event.notedBy]⟩
  | reading qpc => exact ⟨[.counter qpc], rfl, by simp [Event.notedBy]⟩
  | anchor qpc => exact ⟨[.counter qpc], rfl, by simp [Event.notedBy]⟩
  | report position => exact ⟨[.reported position], rfl, by simp [Event.notedBy]⟩
  | settle qpc =>
      unfold settlePosition clearAnchor
      dsimp only
      split
      · exact ⟨[], rfl, by simp⟩
      · exact ⟨[.counter qpc], rfl, by simp [Event.notedBy]⟩
  | write packetNumber =>
      rw [setWritePacket_history]
      split
      · exact ⟨[], rfl, by simp⟩
      · exact ⟨[.wrote packetNumber], rfl, by simp [Event.notedBy]⟩
  | allocate requestLength =>
      exact ⟨[.pooled ⟨w.nextIo, requestLength⟩], rfl, by simp [Event.notedBy]⟩
  | free =>
      unfold freeRenderIo viosndFreeWritePcmIo
      split
      · exact ⟨[], rfl, by simp⟩
      · rename_i io _
        exact ⟨[.freed io], rfl, by simp [Event.notedBy]⟩
  | refuse io => exact ⟨[.pooled io], rfl, by simp [Event.notedBy]⟩
  | preroll entry => exact ⟨[.submitted entry], rfl, by simp [Event.notedBy]⟩
  | silence entry => exact ⟨[.submitted entry], rfl, by simp [Event.notedBy]⟩
  | packet entry n =>
      exact ⟨[.consumed (packetsFrom w.nextSubmitPacket n), .submitted entry], rfl, by
        simp [Event.notedBy]⟩
  | complete n entry =>
      obtain ⟨carried, hcarried, hhistory⟩ := completeEntry_history n entry w
      refine ⟨(if w.renderIoFreeCount < renderIoPoolSize then .pooled entry.io
        else .freed entry.io) :: (carried ++ [.returned entry]), ?_, ?_⟩
      · rw [hhistory, List.cons_append, List.append_assoc]
        rfl
      intro e he
      rcases List.mem_cons.mp he with rfl | he
      · exact recycled_notedBy (by decide) w entry.io
      · rcases List.mem_append.mp he with he | he
        · rw [hcarried e he]
          decide
        · rw [List.mem_singleton.mp he]
          exact Finset.mem_singleton_self _
  | detach n entry =>
      refine ⟨[_, .detached entry], detachEntry_history n entry w, ?_⟩
      intro e he
      rcases List.mem_cons.mp he with rfl | he
      · exact recycled_notedBy (by decide) w entry.io
      · rw [List.mem_singleton.mp he]
        exact Finset.mem_singleton_self _
  | _ => exact ⟨[], rfl, by simp⟩

theorem Does.state_eq {K : Finset Kind} {w w' : World} (h : Does K w w') (hK : .enter ∉ K) :
    w'.state = w.state :=
  h.keeps World.state fun _ hk _ _ hR => hR.state_eq fun he => hK (he ▸ hk)

theorem Does.thread_eq {K : Finset Kind} {w w' : World} (h : Does K w w') (hK : .thread ∉ K) :
    w'.threadObject = w.threadObject ∧ w'.workerStarted = w.workerStarted := by
  have hpair := h.keeps (fun w => (w.threadObject, w.workerStarted)) fun _ hk _ _ hR =>
    Prod.ext_iff.mpr (hR.thread_eq fun he => hK (he ▸ hk))
  exact Prod.ext_iff.mp hpair

theorem Does.lastOsWritePacket_eq {K : Finset Kind} {w w' : World} (h : Does K w w')
    (hK : .write ∉ K ∧ .reset ∉ K) : w'.lastOsWritePacket = w.lastOsWritePacket :=
  h.keeps World.lastOsWritePacket fun _ hk _ _ hR =>
    hR.lastOsWritePacket_eq (fun he => hK.1 (he ▸ hk)) (fun he => hK.2 (he ▸ hk))

theorem Does.nextSubmitPacket_eq {K : Finset Kind} {w w' : World} (h : Does K w w')
    (hK : .write ∉ K ∧ .reset ∉ K ∧ .silence ∉ K ∧ .packet ∉ K) :
    w'.nextSubmitPacket = w.nextSubmitPacket :=
  h.keeps World.nextSubmitPacket fun _ hk _ _ hR =>
    hR.nextSubmitPacket_eq (fun he => hK.1 (he ▸ hk)) (fun he => hK.2.1 (he ▸ hk))
      (fun he => hK.2.2.1 (he ▸ hk)) (fun he => hK.2.2.2 (he ▸ hk))

/-! ## Commands -/

theorem viosndPcmCommand_does (c : PcmCommand) (answer : NtStatus) (w : World) :
    Does {.command} w (viosndPcmCommand c answer w).2 :=
  Does.one (.command c _ w)

theorem viosndPcmCommand_rejected (c : PcmCommand) (answer : NtStatus) (w : World)
    (hanswer : answer ≠ .success) : Does {.rejected} w (viosndPcmCommand c answer w).2 := by
  have hfalse : answer.isSuccess = false := by simpa using hanswer
  unfold viosndPcmCommand
  rw [hfalse]
  exact Does.one (.rejected c w)

theorem whenOk_does {K : Finset Kind} {w : World} {r : NtStatus × World}
    {next : World → NtStatus × World} (hr : Does K w r.2)
    (hnext : Does K r.2 (next r.2).2) : Does K w (whenOk r next).2 := by
  unfold whenOk
  split
  · exact hr.trans hnext
  · exact hr

theorem viosndConfigurePcmFormat_does (i : ConfigureInput) (w : World) :
    Does {.command} w (viosndConfigurePcmFormat i w).2 :=
  whenOk_does (viosndPcmCommand_does _ _ _) (viosndPcmCommand_does _ _ _)

/-! ## Submission -/

private theorem pushRenderIo_popRenderIo (w : World) (hfree : w.renderIoFreeCount ≠ 0) :
    pushRenderIo (popRenderIo w).1 (popRenderIo w).2 =
      { w with history := match w.renderIoPool (w.renderIoFreeCount - 1) with
        | none => w.history
        | some io => .pooled io :: w.history } := by
  have hcount : w.renderIoFreeCount - 1 + 1 = w.renderIoFreeCount := by omega
  cases hio : w.renderIoPool (w.renderIoFreeCount - 1) with
  | none =>
      simp only [pushRenderIo, popRenderIo, hio, hcount, Function.update_idem]
      rw [← hio, Function.update_eq_self]
  | some io =>
      simp only [pushRenderIo, popRenderIo, hio, hcount, Function.update_idem]
      rw [← hio, Function.update_eq_self]

/-- The entry was filled in from the arguments of the submission. -/
structure TxEntry.Sends (entry : TxEntry) (audio : List Byte)
    (length sourceLength packetNumber : ULONG) : Prop where
  audio : entry.audio = audio
  audioLength : entry.audioLength = length
  sourceLength : entry.sourceLength = if sourceLength ≠ 0 then sourceLength else length
  packetNumber : entry.packetNumber = packetNumber

/-- The queue takes the pool's top buffer with that many bytes of audio. -/
def QueueTakes (o : TxSubmit) (length : ULONG) (w : World) : Prop :=
  o = .queued ∧ ∃ io, PoolTop io w ∧ sizeofPcmXfer + length.toNat ≤ io.requestLength

theorem submitPooled_cases (audio : List Byte) (length sourceLength packetNumber : ULONG)
    (o : TxSubmit) (onSuccess : World → World) (w : World) (hfree : w.renderIoFreeCount ≠ 0) :
    (∃ entry : TxEntry, entry.Sends audio length sourceLength packetNumber ∧
      PoolTop entry.io w ∧
      submitPooled audio length sourceLength packetNumber o onSuccess w =
        (.success,
          let next := onSuccess { (popRenderIo w).2 with
            txQueue := w.txQueue ++ [entry], history := .submitted entry :: w.history }
          { next with outstandingWrites := next.outstandingWrites + 1 })) ∨
    ∃ status, status ≠ .success ∧ ¬ QueueTakes o length w ∧ ∃ w', Does {.refuse} w w' ∧
      submitPooled audio length sourceLength packetNumber o onSuccess w = (status, w') := by
  have hback : Does {.refuse} w (pushRenderIo (popRenderIo w).1 (popRenderIo w).2) := by
    rw [pushRenderIo_popRenderIo w hfree]
    cases htop : w.renderIoPool (w.renderIoFreeCount - 1) with
    | none => exact Within.refl w
    | some io => exact Does.one (.refuse io w ⟨hfree, htop⟩)
  by_cases hq : o = .noQueue
  · refine Or.inr ⟨.deviceNotReady, by decide, ?_, _, hback, ?_⟩
    · rintro ⟨rfl, -⟩
      cases hq
    · simp [submitPooled, viosndSubmitPreparedWritePcm, hq]
  cases htop : w.renderIoPool (w.renderIoFreeCount - 1) with
  | none =>
      refine Or.inr ⟨.invalidParameter, by decide, ?_, _, hback, ?_⟩
      · rintro ⟨-, io, ⟨-, hio⟩, -⟩
        rw [htop] at hio
        cases hio
      · simp [submitPooled, viosndSubmitPreparedWritePcm, hq, popRenderIo, htop]
  | some io =>
      by_cases hfit : io.requestLength < sizeofPcmXfer + length.toNat
      · refine Or.inr ⟨.invalidParameter, by decide, ?_, _, hback, ?_⟩
        · rintro ⟨-, io', ⟨-, hio⟩, hlong⟩
          rw [htop] at hio
          cases hio
          omega
        · simp [submitPooled, viosndSubmitPreparedWritePcm, hq, popRenderIo, htop, hfit]
      cases o with
      | noQueue => exact absurd rfl hq
      | queued =>
          refine Or.inl ⟨⟨io, length, if sourceLength ≠ 0 then sourceLength else length,
            packetNumber, audio⟩, ⟨rfl, rfl, rfl, rfl⟩, ⟨hfree, htop⟩, ?_⟩
          simp [submitPooled, viosndSubmitPreparedWritePcm, popRenderIo, htop, hfit,
            NtStatus.isSuccess]
      | ringFull =>
          refine Or.inr ⟨.deviceBusy, by decide, ?_, _, hback, ?_⟩
          · rintro ⟨hqueued, -⟩
            cases hqueued
          simp [submitPooled, viosndSubmitPreparedWritePcm, popRenderIo, htop, hfit,
            NtStatus.isSuccess]
      | mutexTimeout =>
          refine Or.inr ⟨.ioTimeout, by decide, ?_, _, hback, ?_⟩
          · rintro ⟨hqueued, -⟩
            cases hqueued
          simp [submitPooled, viosndSubmitPreparedWritePcm, popRenderIo, htop, hfit,
            NtStatus.isSuccess]

theorem submitRenderSilencePacket_cases (packetNumber : ULONG) (o : TxSubmit) (w : World) :
    (∃ entry : TxEntry, entry.packetNumber = packetNumber ∧ PoolTop entry.io w ∧
      submitRenderSilencePacket packetNumber o w = (.success, { lendRenderIo entry w with
        nextSubmitPacket :=
          if packetNumber ≠ maxULONG then packetNumber + 1 else w.nextSubmitPacket })) ∨
    ∃ status, status ≠ .success ∧ ∃ w', Does {.refuse} w w' ∧
      submitRenderSilencePacket packetNumber o w = (status, w') := by
  unfold submitRenderSilencePacket
  cases hbuffer : w.buffer with
  | none => exact Or.inr ⟨.invalidDeviceRequest, by decide, w, Within.refl w, rfl⟩
  | some memory =>
      by_cases hsize : w.packetSize = 0
      · exact Or.inr ⟨.invalidDeviceRequest, by decide, w, Within.refl w, if_pos hsize⟩
      by_cases hfree : w.renderIoFreeCount = 0
      · exact Or.inr ⟨.deviceBusy, by decide, w, Within.refl w,
          (if_neg hsize).trans (if_pos hfree)⟩
      simp only [hsize, hfree, if_false]
      generalize (if w.renderFallbackActive = true then fallbackPeriodBytes else w.packetSize) =
        silenceLength
      by_cases hlong : defaultPeriodBytes < silenceLength
      · exact Or.inr ⟨.invalidBufferSize, by decide, w, Within.refl w, if_pos hlong⟩
      · rw [if_neg hlong]
        rcases submitPooled_cases _ silenceLength silenceLength packetNumber o _ w hfree with
          ⟨entry, hsends, htop, heq⟩ | ⟨status, hstatus, -, hrefused⟩
        · exact Or.inl ⟨entry, hsends.packetNumber, htop, heq⟩
        · exact Or.inr ⟨status, hstatus, hrefused⟩

/-- A fallback block is made of consecutive packets, none beyond the last one written. -/
theorem fallbackBlock_sources (w : World) (memory : Memory) (packetNumber : ULONG) (n m : Nat)
    (block : FallbackBlock) (hsources : block.sources = packetsFrom packetNumber m)
    (hwritten : w.lastOsWritePacket ≠ maxULONG → ∀ p ∈ block.sources,
      viosndPacketNumberLessOrEqual p w.lastOsWritePacket = true) :
    ∃ m', (fallbackBlock w memory packetNumber n (BitVec.ofNat 32 m) block).sources =
        packetsFrom packetNumber m' ∧
      (w.lastOsWritePacket ≠ maxULONG → ∀ p ∈ packetsFrom packetNumber m',
        viosndPacketNumberLessOrEqual p w.lastOsWritePacket = true) := by
  induction n generalizing m block with
  | zero => exact ⟨m, hsources, hsources ▸ hwritten⟩
  | succ n ih =>
      unfold fallbackBlock
      dsimp only
      split
      · exact ⟨m, hsources, hsources ▸ hwritten⟩
      split
      · exact ⟨m, hsources, hsources ▸ hwritten⟩
      · rename_i _ hnext
        have hcons : block.sources ++ [packetNumber + BitVec.ofNat 32 m] =
            packetsFrom packetNumber (m + 1) := by
          rw [hsources, packetsFrom_succ]
        have hall : w.lastOsWritePacket ≠ maxULONG → ∀ p ∈ block.sources ++
            [packetNumber + BitVec.ofNat 32 m],
            viosndPacketNumberLessOrEqual p w.lastOsWritePacket = true := by
          intro hlast p hp
          rcases List.mem_append.mp hp with hp | hp
          · exact hwritten hlast p hp
          · rw [List.mem_singleton.mp hp]
            by_contra hbeyond
            exact hnext ⟨hlast, hbeyond⟩
        split
        · exact ⟨m + 1, hcons, hcons ▸ hall⟩
        · have hone : BitVec.ofNat 32 m + 1 = BitVec.ofNat 32 (m + 1) := by
            rw [BitVec.ofNat_add]
            rfl
          rw [hone]
          exact ih (m + 1) _ hcons hall

private theorem renderBlock_sources (w : World) (memory : Memory) (packetNumber : ULONG)
    (block : FallbackBlock) (hblock : renderBlock w memory packetNumber = .ok block)
    (hfirst : w.lastOsWritePacket ≠ maxULONG →
      viosndPacketNumberLessOrEqual packetNumber w.lastOsWritePacket = true) :
    ∃ n, block.sources = packetsFrom packetNumber n ∧
      (w.lastOsWritePacket ≠ maxULONG → ∀ p ∈ packetsFrom packetNumber n,
        viosndPacketNumberLessOrEqual p w.lastOsWritePacket = true) := by
  unfold renderBlock at hblock
  split at hblock
  · split at hblock
    · cases hblock
    · dsimp only at hblock
      split at hblock
      · cases hblock
      · cases hblock
        exact fallbackBlock_sources w memory packetNumber 3 0 _ rfl (by simp)
  · cases hblock
    have hone : packetsFrom packetNumber 1 = [packetNumber] := by
      simp [packetsFrom]
    refine ⟨1, hone.symm, ?_⟩
    intro hlast p hp
    rw [hone, List.mem_singleton] at hp
    rw [hp]
    exact hfirst hlast

def padded (memory : Memory) (packetNumber packetLength : ULONG) (w : World) : World :=
  { w with buffer := some (padSlot memory w packetNumber packetLength) }

def blockLength (w : World) (block : FallbackBlock) : ULONG :=
  if w.renderFallbackActive then BitVec.ofNat 32 block.audio.length else w.packetSize

def sendBlock (block : FallbackBlock) (entry : TxEntry) (w : World) : World :=
  { lendRenderIo entry w with
    nextSubmitPacket := entry.packetNumber + BitVec.ofNat 32 block.sources.length
    history := .consumed block.sources :: .submitted entry :: w.history }

def MakesBlock (packetNumber packetLength : ULONG) (w : World) (memory : Memory)
    (block : FallbackBlock) : Prop :=
  w.buffer = some memory ∧ w.packetSize ≠ 0 ∧ w.renderIoFreeCount ≠ 0 ∧
    renderBlock (padded memory packetNumber packetLength w)
      (padSlot memory w packetNumber packetLength) packetNumber = .ok block

/-- A submission sends the block it made, or changes nothing but the slot and, when it made a
block, the phase. -/
theorem submitRenderPacket_sends (packetNumber packetLength : ULONG) (o : TxSubmit) (w : World) :
    (∃ memory block entry, ∃ w₀, w₀ = { padded memory packetNumber packetLength w with
        renderFallbackPhase := block.phase } ∧
      MakesBlock packetNumber packetLength w memory block ∧
      entry.Sends block.audio (blockLength w block) block.sourceLength packetNumber ∧
      PoolTop entry.io w₀ ∧
      submitRenderPacket packetNumber packetLength o w = (.success, sendBlock block entry w₀)) ∨
    ∃ buffer phase, (phase = w.renderFallbackPhase ∨
        ∃ memory block, MakesBlock packetNumber packetLength w memory block ∧
          phase = block.phase ∧ ¬ QueueTakes o (blockLength w block) w) ∧
      ∃ status, status ≠ .success ∧ ∃ w',
        Does {.refuse} { w with buffer := buffer, renderFallbackPhase := phase } w' ∧
        submitRenderPacket packetNumber packetLength o w = (status, w') := by
  unfold submitRenderPacket
  cases hbuffer : w.buffer with
  | none => exact Or.inr ⟨_, _, Or.inl rfl, .invalidDeviceRequest, by decide, w, Within.refl w, rfl⟩
  | some memory =>
      by_cases hsize : w.packetSize = 0
      · exact Or.inr ⟨_, _, Or.inl rfl, .invalidDeviceRequest, by decide, w, Within.refl w,
          if_pos hsize⟩
      by_cases hfree : w.renderIoFreeCount = 0
      · exact Or.inr ⟨_, _, Or.inl rfl, .deviceBusy, by decide, w, Within.refl w,
          (if_neg hsize).trans (if_pos hfree)⟩
      simp only [hsize, hfree, if_false]
      cases hblock : renderBlock (padded memory packetNumber packetLength w)
        (padSlot memory w packetNumber packetLength) packetNumber with
      | error status =>
          refine Or.inr ⟨_, w.renderFallbackPhase, Or.inl rfl, status, ?_,
            padded memory packetNumber packetLength w, Within.refl _, ?_⟩
          · intro hsuccess
            subst hsuccess
            unfold renderBlock at hblock
            dsimp only at hblock
            split_ifs at hblock <;> simp at hblock
          · unfold padded at hblock
            rw [hblock]
            rfl
      | ok block =>
          have hmakes : MakesBlock packetNumber packetLength w memory block :=
            ⟨hbuffer, hsize, hfree, hblock⟩
          have hpooled := submitPooled_cases block.audio (blockLength w block) block.sourceLength
            packetNumber o (fun next => { next with
              nextSubmitPacket := packetNumber + BitVec.ofNat 32 block.sources.length
              history := .consumed block.sources :: next.history })
            { padded memory packetNumber packetLength w with renderFallbackPhase := block.phase }
            hfree
          unfold padded at hblock
          rw [hblock]
          rcases hpooled with ⟨entry, hsends, htop, heq⟩ |
            ⟨status, hstatus, hnot, w', hrefuse, heq⟩
          · refine Or.inl ⟨memory, block, entry, _, rfl, hmakes, hsends, htop, heq.trans ?_⟩
            unfold sendBlock
            rw [hsends.packetNumber]
            rfl
          · exact Or.inr ⟨_, block.phase, Or.inr ⟨memory, block, hmakes, rfl, hnot⟩, status,
              hstatus, w', hrefuse, heq⟩

theorem submitRenderPacket_cases (packetNumber packetLength : ULONG) (o : TxSubmit) (w : World)
    (hfirst : w.lastOsWritePacket ≠ maxULONG →
      viosndPacketNumberLessOrEqual packetNumber w.lastOsWritePacket = true) :
    ∃ buffer phase, ∃ w₀, w₀ = { w with buffer := buffer, renderFallbackPhase := phase } ∧
    ((∃ (entry : TxEntry) (n : Nat), entry.packetNumber = packetNumber ∧ PoolTop entry.io w₀ ∧
      (w.lastOsWritePacket ≠ maxULONG → ∀ p ∈ packetsFrom packetNumber n,
        viosndPacketNumberLessOrEqual p w.lastOsWritePacket = true) ∧
      submitRenderPacket packetNumber packetLength o w = (.success, { lendRenderIo entry w₀ with
        nextSubmitPacket := packetNumber + BitVec.ofNat 32 n
        history := .consumed (packetsFrom packetNumber n) ::
          .submitted entry :: w₀.history })) ∨
    ∃ status, status ≠ .success ∧ ∃ w', Does {.refuse} w₀ w' ∧
      submitRenderPacket packetNumber packetLength o w = (status, w')) := by
  rcases submitRenderPacket_sends packetNumber packetLength o w with
    ⟨memory, block, entry, w₀, hw₀, ⟨-, -, -, hblock⟩, hsends, htop, heq⟩ |
    ⟨buffer, phase, -, status, hstatus, w', hrefuse, heq⟩
  · obtain ⟨n, hsources, hwritten⟩ := renderBlock_sources _ _ packetNumber block hblock hfirst
    refine ⟨_, block.phase, w₀, hw₀, Or.inl ⟨entry, n, hsends.packetNumber, htop, hwritten, ?_⟩⟩
    rw [heq]
    unfold sendBlock
    rw [hsources, packetsFrom_length, hsends.packetNumber]
  · exact ⟨buffer, phase, _, rfl, Or.inr ⟨status, hstatus, w', hrefuse, heq⟩⟩

theorem prerollRender_does (n : Nat) (answers : List TxSubmit) (w : World) :
    Does {.preroll, .refuse} w (prerollRender n answers w).2 := by
  induction n generalizing answers w with
  | zero => exact Within.refl w
  | succ n ih =>
      unfold prerollRender
      split
      · rename_i hroom
        have hone : Does {.preroll, .refuse} w
            (submitRenderSilencePacket maxULONG (answers.headD .mutexTimeout) w).2 := by
          rcases submitRenderSilencePacket_cases maxULONG (answers.headD .mutexTimeout) w with
            ⟨entry, hnumber, htop, heq⟩ | ⟨status, -, w', hrefuse, heq⟩
          · rw [heq]
            exact Within.single (by decide) (Effect.preroll entry w htop hnumber hroom)
          · rw [heq]
            exact hrefuse.mono (by decide)
        exact whenOk_does hone (ih _ _)
      · exact Within.refl w

/-- What one pass of the submission loop is made of. -/
def submitKinds : Finset Kind := {.tune, .silence, .packet, .refuse}

theorem submitNext_does (o : TxSubmit) (w : World)
    (hroom : w.outstandingWrites < w.targetOutstanding) :
    Does submitKinds w (submitNext o w).2 := by
  have hpacket : ∀ packetLength, (w.lastOsWritePacket ≠ maxULONG →
      viosndPacketNumberLessOrEqual w.nextSubmitPacket w.lastOsWritePacket = true) →
      Does submitKinds w (submitRenderPacket w.nextSubmitPacket packetLength o w).2 := by
    intro packetLength hfirst
    obtain ⟨buffer, phase, w₀, hw₀, hcases⟩ :=
      submitRenderPacket_cases w.nextSubmitPacket packetLength o w hfirst
    have htune : Does submitKinds w w₀ := by
      rw [hw₀]
      exact Within.single (k := .tune) (by decide) (.tune w _ _ _ _ _ _ _ _ (Or.inl rfl))
    rcases hcases with ⟨entry, n, hnumber, htop, hwritten, heq⟩ | ⟨status, -, w', hrefuse, heq⟩
    · rw [heq]
      refine htune.trans (Within.single (k := .packet) (by decide) ?_)
      subst hw₀
      exact Effect.packet entry n _ htop hnumber hroom hwritten
    · rw [heq]
      exact htune.trans (hrefuse.mono (by decide))
  unfold submitNext
  split
  · rename_i hwritable
    simp only [viosndHasWritableRenderPacket, Bool.and_eq_true] at hwritable
    exact hpacket _ fun _ => hwritable.2
  split
  · rename_i hcyclic
    split
    · rcases submitRenderSilencePacket_cases w.nextSubmitPacket o w with
        ⟨entry, hnumber, htop, heq⟩ | ⟨status, hstatus, w', hrefuse, heq⟩
      · rw [heq]
        have hsilence := Effect.silence entry w htop hnumber hroom hcyclic
        refine (Within.single (K := submitKinds) (by decide) hsilence).trans
          (Within.single (k := .tune) (by decide) ?_)
        exact Effect.tune _ _ _ _ _ _ _ _ _ (Or.inl rfl)
      · rw [heq]
        have hfail : status.isSuccess = false := by simpa using hstatus
        simp only [hfail]
        exact hrefuse.mono (by decide)
    · exact hpacket _ fun hlast => absurd hcyclic hlast
  · exact Within.refl w

theorem submitPass_does (o : TxSubmit) (w : World) : Does submitKinds w (submitPass o w).2 := by
  unfold submitPass
  split
  · rename_i hpass
    exact submitNext_does o w hpass.2
  · exact Within.refl w

theorem submitLate_does (o : TxSubmit) (w : World) : Does submitKinds w (submitLate o w) := by
  unfold submitLate
  split
  · rename_i hroom
    exact submitNext_does o w hroom
  · exact Within.refl w

/-! ## Reclaim and cancel -/

theorem reclaimRenderPacket_does (o : TxReclaim) (w : World) :
    Does {.complete} w (reclaimRenderPacket o w).2 := by
  cases o with
  | used k =>
      cases hk : w.txQueue[k]? with
      | none =>
          simp only [reclaimRenderPacket, viosndReclaimPreparedWritePcm, hk]
          exact Within.refl w
      | some entry =>
          simp only [reclaimRenderPacket, viosndReclaimPreparedWritePcm, hk]
          exact Does.one (.complete k entry w hk)
  | noQueue => exact Within.refl w
  | mutexTimeout => exact Within.refl w
  | empty => exact Within.refl w

theorem reclaimRenderPackets_does (answers : List TxReclaim) (w : World) :
    Does {.complete} w (reclaimRenderPackets answers w) := by
  induction answers generalizing w with
  | nil => exact Within.refl w
  | cons o answers ih =>
      unfold reclaimRenderPackets
      have hfirst := reclaimRenderPacket_does o w
      dsimp only
      split
      · exact hfirst.trans (ih _)
      · exact hfirst

theorem detachRenderWrites_does (answers : List TxDetach) (w : World) :
    Does {.detach} w (detachRenderWrites answers w) := by
  induction answers generalizing w with
  | nil => exact Within.refl w
  | cons o answers ih =>
      unfold detachRenderWrites
      split
      · exact Within.refl w
      · cases o with
        | found k =>
            cases hk : w.txQueue[k]? with
            | none =>
                simp only [viosndDetachUnusedWritePcm, hk]
                exact Within.refl w
            | some entry =>
                simp only [viosndDetachUnusedWritePcm, hk]
                exact (Does.one (.detach k entry w hk)).trans (ih _)
        | noQueue => exact Within.refl w
        | mutexTimeout => exact Within.refl w
        | empty => exact Within.refl w

theorem cancelRenderWrites_does (i : CancelInput) (w : World) :
    Does {.complete, .detach} w (cancelRenderWrites i w) := by
  have hreclaim := (reclaimRenderPackets_does i.reclaims w).mono (L := {.complete, .detach})
    (by decide)
  have hdetach := (detachRenderWrites_does i.detaches (reclaimRenderPackets i.reclaims w)).mono
    (L := {.complete, .detach}) (by decide)
  exact hreclaim.trans hdetach

/-! ## The pool -/

theorem freeRenderIos_does (n : Nat) (w : World) (hn : n ≤ w.renderIoFreeCount) :
    Does {.free} w (freeRenderIos n w) := by
  induction n generalizing w with
  | zero => exact Within.refl w
  | succ n ih =>
      unfold freeRenderIos
      have hfirst : Does {.free} w (freeRenderIo w) := Does.one (.free w (by omega))
      refine hfirst.trans (ih _ ?_)
      have hcount : (freeRenderIo w).renderIoFreeCount = w.renderIoFreeCount - 1 := by
        unfold freeRenderIo viosndFreeWritePcmIo
        split <;> rfl
      change n ≤ (freeRenderIo w).renderIoFreeCount
      omega

theorem freeRenderIoPool_does (w : World) : Does {.free, .tune} w (freeRenderIoPool w) := by
  unfold freeRenderIoPool
  split
  · exact Within.refl w
  · refine ((freeRenderIos_does _ w le_rfl).mono (by decide)).trans
      (Within.single (k := .tune) (by decide) ?_)
    exact Effect.tune _ _ _ _ _ _ _ _ _ (Or.inl rfl)

def poolKinds : Finset Kind := {.tune, .allocate, .free}

private theorem allocateRenderIos_does (requestLength n : Nat) (ios : List Bool) (w : World) :
    Does poolKinds w (allocateRenderIos requestLength n ios w).2 := by
  induction n generalizing ios w with
  | zero => exact Within.refl w
  | succ n ih =>
      have hfail : Does poolKinds w (freeRenderIoPool w) :=
        (freeRenderIoPool_does w).mono (by decide)
      cases ios with
      | nil => exact hfail
      | cons allocated ios =>
          cases allocated with
          | false => exact hfail
          | true =>
              have hnew : Does poolKinds w (newRenderIo requestLength w) :=
                Within.single (k := .allocate) (by decide) (.allocate requestLength w)
              exact hnew.trans (ih ios _)

theorem allocateRenderIoPool_does (i : PoolInput) (w : World) :
    Does poolKinds w (allocateRenderIoPool i w).2 := by
  unfold allocateRenderIoPool
  split_ifs
  · exact Within.refl w
  · exact Within.refl w
  · exact Within.refl w
  all_goals
    refine Within.trans (Within.single (k := .tune) (by decide) ?_)
      (allocateRenderIos_does _ _ _ _)
    exact Effect.tune w _ _ _ _ _ _ _ _ (Or.inl rfl)

/-! ## The worker -/

/-- What the second half of a fallback switch is made of. -/
def startFallbackKinds : Finset Kind :=
  {.command, .tune, .fallback, .anchor, .preroll, .refuse}

theorem prepareFallback_does (i : SwitchInput) (w : World) :
    Does {.command, .tune, .fallback, .preroll, .refuse} w (prepareFallback i w).2 := by
  have hactive : Does {.command, .tune, .fallback, .preroll, .refuse} w { w with
      renderFallbackActive := true, renderFallbackPhase := viosndFallbackInitialPhase } :=
    (Within.single (k := .fallback) (by decide) (.fallback true w)).trans
      (Within.single (k := .tune) (by decide) (.tune _ _ _ _ _ _ _ _ _ (Or.inl rfl)))
  have hconfigure := (viosndConfigurePcmFormat_does i.configure { w with
    renderFallbackActive := true, renderFallbackPhase := viosndFallbackInitialPhase }).mono
    (L := {.command, .tune, .fallback, .preroll, .refuse}) (by decide)
  exact hactive.trans (whenOk_does hconfigure ((prerollRender_does _ _ _).mono (by decide)))

theorem startFallback_does (i : SwitchInput) (w : World) :
    Does startFallbackKinds w (startFallback i w).2 := by
  have hcommands : Does startFallbackKinds w
      (whenOk (prepareFallback i w) (viosndStartPcm i.start)).2 :=
    whenOk_does ((prepareFallback_does i w).mono (by decide))
      ((viosndPcmCommand_does _ _ _).mono (by decide))
  unfold startFallback
  dsimp only
  split
  · refine hcommands.trans ?_
    refine (Within.single (k := .anchor) (by decide) (.anchor i.qpc i.frequency _)).trans
      (Within.single (k := .tune) (by decide) ?_)
    exact .tune _ _ _ _ _ _ _ _ _ (Or.inl rfl)
  · exact hcommands.trans (Within.single (k := .fallback) (by decide) (.fallback false _))

def switchKinds : Finset Kind :=
  {.command, .tune, .fallback, .anchor, .preroll, .refuse, .complete, .detach}

theorem haltForFallback_does (i : SwitchInput) (w : World) :
    Does {.command, .tune, .complete, .detach} w (haltForFallback i w) := by
  have hattempt : Does {.command, .tune, .complete, .detach} w
      { w with renderFallbackAttempted := true } :=
    Within.single (k := .tune) (by decide) (.tune w _ _ _ _ _ _ _ _ (Or.inl rfl))
  have hstop := viosndPcmCommand_does .stop i.stop { w with renderFallbackAttempted := true }
  have hrelease := viosndPcmCommand_does .release i.release
    (viosndStopPcm i.stop { w with renderFallbackAttempted := true }).2
  have hcancel := cancelRenderWrites_does i.cancel (viosndReleasePcm i.release
    (viosndStopPcm i.stop { w with renderFallbackAttempted := true }).2).2
  exact hattempt.trans ((hstop.trans hrelease).mono (by decide) |>.trans
    (hcancel.mono (by decide)))

theorem switchRenderToFallback_does (i : SwitchInput) (w : World) :
    Does switchKinds w (switchRenderToFallback i w).2 := by
  have hhalt := (haltForFallback_does i w).mono (L := switchKinds) (by decide)
  unfold switchRenderToFallback
  split
  · exact hhalt.trans ((startFallback_does i _).mono (by decide))
  · exact hhalt

def workerKinds : Finset Kind :=
  {.command, .reading, .tune, .fallback, .anchor, .preroll, .refuse, .complete, .detach,
    .silence, .packet}

theorem maybeSwitchRenderFallback_notes (qpc : LONGLONG) (i : SwitchInput) (w : World)
    (hdue : ¬ SwitchDue qpc w) : maybeSwitchRenderFallback qpc i w = w ∨
      ∃ monitorPosition monitorQpc attempted, maybeSwitchRenderFallback qpc i w =
        { w.note (.counter qpc) with
          fallbackMonitorStartPosition := monitorPosition, fallbackMonitorStartQpc := monitorQpc,
          renderFallbackAttempted := attempted } := by
  unfold maybeSwitchRenderFallback
  split
  · exact Or.inl rfl
  rename_i hgo
  right
  dsimp only
  split
  · exact ⟨_, _, _, rfl⟩
  rename_i hmonitor
  split
  · exact ⟨_, _, _, rfl⟩
  · split
    · exact ⟨_, _, _, rfl⟩
    · exact ⟨_, _, _, rfl⟩
  · rename_i hslow
    refine absurd ⟨?_, ?_, ?_, hmonitor, hslow⟩ hdue
    · by_contra hattempted
      exact hgo (Or.inl (by simpa using hattempted))
    · by_contra hstate
      exact hgo (Or.inr (Or.inl hstate))
    · by_contra hfrequency
      exact hgo (Or.inr (Or.inr (by omega)))

theorem maybeSwitchRenderFallback_notDue (qpc : LONGLONG) (i : SwitchInput) (w : World)
    (hdue : ¬ SwitchDue qpc w) : Does {.reading, .tune} w (maybeSwitchRenderFallback qpc i w) := by
  rcases maybeSwitchRenderFallback_notes qpc i w hdue with
    hsame | ⟨monitorPosition, monitorQpc, attempted, hnotes⟩
  · rw [hsame]
    exact Within.refl w
  · have hread : Does {.reading, .tune} w (w.note (.counter qpc)) :=
      Within.single (k := .reading) (by decide) (.reading qpc w)
    rw [hnotes]
    apply hread.trans
    exact Within.single (k := .tune) (by decide) (.tune _ _ _ _ _ _ _ _ _ (Or.inl rfl))

theorem maybeSwitchRenderFallback_does (qpc : LONGLONG) (i : SwitchInput) (w : World) :
    Does (insert .reading switchKinds) w (maybeSwitchRenderFallback qpc i w) := by
  by_cases hdue : SwitchDue qpc w
  · have hread : Does (insert .reading switchKinds) w (w.note (.counter qpc)) :=
      Within.single (k := .reading) (by decide) (.reading qpc w)
    rw [maybeSwitchRenderFallback_due qpc i w hdue]
    exact hread.trans ((switchRenderToFallback_does i _).mono (by decide))
  · exact (maybeSwitchRenderFallback_notDue qpc i w hdue).mono (by decide)

theorem chooseTarget_does (w : World) : Does {.tune} w (chooseTarget w) := by
  have htarget : ∀ n, n ≤ renderTargetOutstandingPackets →
      Does {.tune} w { w with targetOutstanding := n } := fun n hn =>
    Does.one (.tune w _ _ _ _ _ _ _ n (Or.inr hn))
  unfold chooseTarget
  split
  · exact htarget 0 (Nat.zero_le _)
  · apply htarget
    have hcyclic := outstandingTarget_le renderCyclicOutstandingPackets (by decide)
      w.notificationCount
    have hfallback := outstandingTarget_le renderFallbackOutstandingPackets (by decide)
      w.notificationCount
    have hpacket := outstandingTarget_le renderTargetOutstandingPackets (by decide)
      w.notificationCount
    simp only [viosndFallbackTargetOutstandingPackets, viosndCyclicTargetOutstandingPackets,
      viosndTargetOutstandingPackets]
    simp only [renderCyclicOutstandingPackets, renderFallbackOutstandingPackets,
      renderTargetOutstandingPackets] at hcyclic hfallback hpacket ⊢
    split_ifs <;> omega

theorem workerStep_does (w : World) (s : WorkerStep) : Does workerKinds w (workerStep w s) := by
  cases s with
  | reclaim o => exact (reclaimRenderPacket_does o w).mono (by decide)
  | maybeSwitch qpc i => exact (maybeSwitchRenderFallback_does qpc i w).mono (by decide)
  | chooseTarget => exact (chooseTarget_does w).mono (by decide)
  | submit o => exact (submitPass_does o w).mono (by decide)
  | submitLate o => exact (submitLate_does o w).mono (by decide)

theorem workerSteps_does (steps : List WorkerStep) (w : World) :
    Does workerKinds w (run workerStep w steps) :=
  Within.run (fun s _ w => workerStep_does w s) w

/-- What a step of the worker is made of while `m_State` is not RUN. -/
def idleKinds : Finset Kind := {.tune, .complete, .silence, .packet, .refuse}

private theorem maybeSwitchRenderFallback_idle (qpc : LONGLONG) (i : SwitchInput) (w : World)
    (hstate : w.state ≠ .run) : maybeSwitchRenderFallback qpc i w = w := by
  unfold maybeSwitchRenderFallback
  rw [if_pos (Or.inr (Or.inl hstate))]

theorem workerStep_idle_does (w : World) (s : WorkerStep) (hstate : w.state ≠ .run) :
    Does idleKinds w (workerStep w s) := by
  cases s with
  | reclaim o => exact (reclaimRenderPacket_does o w).mono (by decide)
  | maybeSwitch qpc i =>
      simp only [workerStep, maybeSwitchRenderFallback_idle qpc i w hstate]
      exact Within.refl w
  | chooseTarget => exact (chooseTarget_does w).mono (by decide)
  | submit o => exact (submitPass_does o w).mono (by decide)
  | submitLate o => exact (submitLate_does o w).mono (by decide)

private theorem workerSteps_idle_does (steps : List WorkerStep) (w : World)
    (hstate : w.state ≠ .run) :
    Does idleKinds w (run workerStep w steps) := by
  induction steps generalizing w with
  | nil => exact Within.refl w
  | cons s steps ih =>
      have hfirst := workerStep_idle_does w s hstate
      have hstill : (workerStep w s).state ≠ .run := by
        rw [hfirst.state_eq (by decide)]
        exact hstate
      exact hfirst.trans (ih _ hstill)

/-- A pass that tests `m_State` itself submits nothing outside RUN. -/
theorem workerStep_prompt_does (w : World) (s : WorkerStep) (hstate : w.state ≠ .run)
    (hprompt : ∀ o, s ≠ .submitLate o) : Does {.tune, .complete} w (workerStep w s) := by
  cases s with
  | reclaim o => exact (reclaimRenderPacket_does o w).mono (by decide)
  | maybeSwitch qpc i =>
      simp only [workerStep, maybeSwitchRenderFallback_idle qpc i w hstate]
      exact Within.refl w
  | chooseTarget => exact (chooseTarget_does w).mono (by decide)
  | submit o =>
      have hidle : submitPass o w = (false, w) := by
        unfold submitPass
        rw [if_neg fun h => hstate h.1]
      simp only [workerStep, hidle]
      exact Within.refl w
  | submitLate o => exact absurd rfl (hprompt o)

theorem workerSteps_prompt_does (steps : List WorkerStep) (w : World) (hstate : w.state ≠ .run)
    (hprompt : ∀ s ∈ steps, ∀ o, s ≠ .submitLate o) :
    Does {.tune, .complete} w (run workerStep w steps) := by
  induction steps generalizing w with
  | nil => exact Within.refl w
  | cons s steps ih =>
      have hfirst := workerStep_prompt_does w s hstate (hprompt s List.mem_cons_self)
      have hstill : (workerStep w s).state ≠ .run := by
        rw [hfirst.state_eq (by decide)]
        exact hstate
      exact hfirst.trans (ih _ hstill fun t ht => hprompt t (List.mem_cons_of_mem s ht))

/-! ## The worker thread -/

def threadKinds : Finset Kind := insert .thread poolKinds

theorem stopRenderWorker_does (exited : Bool) (w : World) :
    Does {.free, .tune, .thread} w (stopRenderWorker exited w).2 := by
  unfold stopRenderWorker
  split
  · exact Within.single (k := .thread) (by decide) (.thread w.threadObject false w)
  split
  · exact Within.refl w
  · exact (Within.single (k := .thread) (by decide) (.thread false false w)).trans
      ((freeRenderIoPool_does _).mono (by decide))

theorem startRenderWorker_does (i : StartWorkerInput) (w : World) :
    Does threadKinds w (startRenderWorker i w).2 := by
  unfold startRenderWorker
  split
  · exact Within.refl w
  · refine whenOk_does ((allocateRenderIoPool_does i.pool w).mono (by decide)) ?_
    generalize (allocateRenderIoPool i.pool w).2 = w₁
    split
    · split
      · exact (stopRenderWorker_does i.exited w₁).mono (by decide)
      · exact Within.refl w₁
    split
    · exact Within.refl w₁
    · exact Within.single (k := .thread) (by decide) (.thread true true w₁)

/-! ## SetState -/

private theorem beginRender_does (w : World) :
    Does {.tune, .fallback, .clear} w (beginRender w) := by
  have htune := Effect.tune { w with renderFallbackActive := false } w.buffer
    (if w.state = .stop then renderCyclicPrerollPackets else 0) 0 w.renderFallbackBuffer 0 0
    false w.targetOutstanding (Or.inl rfl)
  exact (Within.single (k := .fallback) (by decide) (.fallback false w)).trans
    ((Within.single (k := .tune) (by decide) htune).trans
      (Within.single (k := .clear) (by decide) (.clear _)))

/-- What the start path up to START is made of. -/
def prepareKinds : Finset Kind :=
  {.command, .tune, .fallback, .clear, .allocate, .free, .preroll, .refuse}

theorem prepareRender_does (i : SetStateInput) (w : World) :
    Does prepareKinds w (prepareRender i w).2 := by
  have hbegin : Does prepareKinds w (beginRender w) := (beginRender_does w).mono (by decide)
  have hconfigure := (viosndConfigurePcmFormat_does i.configure (beginRender w)).mono
    (L := prepareKinds) (by decide)
  refine hbegin.trans (whenOk_does (whenOk_does hconfigure
    ((allocateRenderIoPool_does i.pool _).mono (by decide))) ?_)
  refine whenOk_does ((prerollRender_does _ _ _).mono (by decide)) ?_
  exact Within.single (k := .tune) (by decide)
    (.tune _ _ _ _ _ _ _ _ _ (Or.inl rfl))

def launchKinds : Finset Kind := insert .anchor (insert .enter threadKinds)

theorem launchWorker_does (i : SetStateInput) (w : World) :
    Does launchKinds w (launchWorker i w).2 ∧ (launchWorker i w).2.state = .run := by
  have hstarted := startRenderWorker_does i.worker
    { anchorClock i.qpc i.frequency w with state := .run }
  refine ⟨?_, hstarted.state_eq (by decide)⟩
  exact (Within.single (k := .anchor) (by decide) (.anchor i.qpc i.frequency w)).trans
    ((Within.single (k := .enter) (by decide) (.enter .run _)).trans
      (hstarted.mono (by decide)))

private theorem launchRender_success {oldState : KsState} {i : SetStateInput} {w : World}
    (hok : (launchRender oldState i w).1.isSuccess = true) :
    launchRender oldState i w = launchWorker i w := by
  by_cases h : (launchWorker i w).1.isSuccess = true
  · exact launchRender_of_success h
  · rw [launchRender_of_failure h] at hok
    exact absurd hok h

def startKinds : Finset Kind :=
  {.command, .tune, .thread, .fallback, .clear, .allocate, .free, .preroll, .refuse, .anchor,
    .enter}

theorem whenOk_success {r : NtStatus × World} {next : World → NtStatus × World}
    (h : (whenOk r next).1.isSuccess = true) :
    r.1.isSuccess = true ∧ whenOk r next = next r.2 := by
  by_cases hr : r.1.isSuccess = true
  · exact ⟨hr, whenOk_of_success hr⟩
  · rw [whenOk_of_failure hr] at h
    exact absurd h hr

theorem startRender_success {i : SetStateInput} {w : World}
    (hok : (startRender i w).1 = .success) :
    (prepareRender i w).1 = .success ∧ i.start = .success ∧
      (startRender i w).2 =
        (launchWorker i (viosndStartPcm i.start (prepareRender i w).2).2).2 := by
  unfold startRender at hok ⊢
  dsimp only at hok ⊢
  split at hok
  · rename_i hr
    rw [if_pos hr]
    obtain ⟨hstarted, hlaunch⟩ := whenOk_success hr
    obtain ⟨hprepared, hstart⟩ := whenOk_success hstarted
    rw [hlaunch, hstart] at hr ⊢
    rw [hstart] at hstarted
    rw [launchRender_success hr]
    exact ⟨(NtStatus.isSuccess_iff _).mp hprepared, (NtStatus.isSuccess_iff _).mp hstarted, rfl⟩
  · rename_i hr
    exact absurd ((NtStatus.isSuccess_iff _).mpr hok) hr

theorem startRender_success_does (i : SetStateInput) (w : World)
    (hok : (startRender i w).1 = .success) :
    Does startKinds w (startRender i w).2 ∧ (startRender i w).2.state = .run := by
  obtain ⟨-, -, heq⟩ := startRender_success hok
  obtain ⟨hdoes, hrun⟩ := launchWorker_does i (viosndStartPcm i.start (prepareRender i w).2).2
  rw [heq]
  refine ⟨?_, hrun⟩
  exact ((prepareRender_does i w).mono (by decide)).trans
    (((viosndPcmCommand_does .start i.start _).mono (by decide)).trans
      (hdoes.mono (by decide)))

/-- What a start is made of, whatever comes of it. -/
def attemptKinds : Finset Kind :=
  {.command, .reading, .tune, .thread, .fallback, .clear, .allocate, .free, .preroll, .refuse,
    .anchor, .enter, .complete, .detach, .silence, .packet}

/-- What a start or a stop is made of, whatever comes of it, short of a reset. -/
def transitionKinds : Finset Kind := insert .settle attemptKinds

private theorem launchRender_does (oldState : KsState) (i : SetStateInput) (w : World) :
    Does attemptKinds w (launchRender oldState i w).2 := by
  have hstarted := (launchWorker_does i w).1.mono (L := attemptKinds) (by decide)
  by_cases h : (launchWorker i w).1.isSuccess = true
  · rw [launchRender_of_success h]
    exact hstarted
  · rw [launchRender_of_failure h]
    have hlost := (workerSteps_does i.lost (launchWorker i w).2).mono (L := attemptKinds)
      (by decide)
    refine hstarted.trans (hlost.trans ?_)
    generalize run workerStep (launchWorker i w).2 i.lost = w₂
    have hcommands : Does attemptKinds w₂
        (viosndReleasePcm i.release (viosndStopPcm i.stop w₂).2).2 :=
      ((viosndPcmCommand_does .stop i.stop w₂).mono (by decide)).trans
        ((viosndPcmCommand_does .release i.release _).mono (by decide))
    exact hcommands.trans (((workerSteps_does i.lostLate _).mono (by decide)).trans
      (Within.single (k := .enter) (by decide) (.enter oldState _)))

theorem abortRender_does (oldState : KsState) (i : SetStateInput) (w : World) :
    Does {.complete, .detach, .free, .tune, .clear, .enter} w (abortRender oldState i w) := by
  have hcancel := (cancelRenderWrites_does i.cancel w).mono
    (L := {.complete, .detach, .free, .tune, .clear, .enter}) (by decide)
  exact hcancel.trans (((freeRenderIoPool_does _).mono (by decide)).trans
    ((Within.single (k := .clear) (by decide) (.clear _)).trans
      (Within.single (k := .enter) (by decide) (.enter oldState _))))

theorem startRender_does (i : SetStateInput) (w : World) :
    Does attemptKinds w (startRender i w).2 := by
  have hlaunched : Does attemptKinds w (whenOk (whenOk (prepareRender i w)
      (viosndStartPcm i.start)) (launchRender w.state i)).2 :=
    whenOk_does (whenOk_does ((prepareRender_does i w).mono (by decide))
      ((viosndPcmCommand_does _ _ _).mono (by decide))) (launchRender_does _ _ _)
  unfold startRender
  dsimp only
  split
  · exact hlaunched
  · exact hlaunched.trans ((abortRender_does _ _ _).mono (by decide))

def awaitKinds : Finset Kind :=
  {.tune, .thread, .free, .complete, .silence, .packet, .refuse}

theorem awaitWorker_does (target : KsState) (i : SetStateInput) (w : World)
    (htarget : target ≠ .run) :
    Does awaitKinds { w with state := target } (awaitWorker target i w).2 := by
  have hstopping : Does awaitKinds { w with state := target }
      (run workerStep { w with state := target } i.stopping) :=
    (workerSteps_idle_does i.stopping _ htarget).mono (by decide)
  unfold awaitWorker
  dsimp only
  split
  · exact hstopping.trans ((stopRenderWorker_does i.exited _).mono (by decide))
  · exact hstopping

theorem awaitWorkerAgain_does_of {K : Finset Kind} (hK : {.free, .tune, .thread} ⊆ K)
    (stopped : Bool) (i : SetStateInput) (w : World)
    (hsteps : Does K w (run workerStep w i.lingering)) :
    Does K w (awaitWorkerAgain stopped i w).2 := by
  have hlingering : Does K w (if stopped then w else run workerStep w i.lingering) := by
    split
    · exact Within.refl w
    · exact hsteps
  unfold awaitWorkerAgain
  dsimp only
  generalize (if stopped = true then w else run workerStep w i.lingering) = w₁ at hlingering ⊢
  split
  · exact hlingering.trans ((stopRenderWorker_does i.exitedLate _).mono hK)
  · exact hlingering

theorem awaitWorkerAgain_does (stopped : Bool) (i : SetStateInput) (w : World)
    (hstate : w.state ≠ .run) : Does awaitKinds w (awaitWorkerAgain stopped i w).2 :=
  awaitWorkerAgain_does_of (by decide) stopped i w
    ((workerSteps_idle_does i.lingering w hstate).mono (by decide))

theorem quiesceRender_does_of {K : Finset Kind} (hK : insert .detach awaitKinds ⊆ K)
    (target : KsState) (i : SetStateInput) (w : World) (htarget : target ≠ .run)
    (hcommands : ∀ w, Does K w (viosndReleasePcm i.release (viosndStopPcm i.stop w).2).2) :
    Does K { w with state := target } (quiesceRender target i w).2 := by
  unfold quiesceRender
  dsimp only
  have hfirst := awaitWorker_does target i w htarget
  generalize awaitWorker target i w = first at hfirst ⊢
  have hstate : (viosndReleasePcm i.release (viosndStopPcm i.stop first.2).2).2.state ≠ .run := by
    have hsame : first.2.state = target := Does.state_eq hfirst (by decide)
    change first.2.state ≠ .run
    rw [hsame]
    exact htarget
  have hbefore := (hfirst.mono ((Finset.subset_insert _ _).trans hK)).trans (hcommands first.2)
  generalize (viosndReleasePcm i.release (viosndStopPcm i.stop first.2).2).2 = w₂
    at hbefore hstate ⊢
  have hsecond := (awaitWorkerAgain_does first.1 i w₂ hstate).mono
    ((Finset.subset_insert .detach _).trans hK)
  have hcancel := (cancelRenderWrites_does i.cancel (awaitWorkerAgain first.1 i w₂).2).mono
    (L := insert .detach awaitKinds) (by decide)
  have hfree := (freeRenderIoPool_does (cancelRenderWrites i.cancel
    (awaitWorkerAgain first.1 i w₂).2)).mono (L := insert .detach awaitKinds) (by decide)
  exact hbefore.trans (hsecond.trans ((hcancel.trans hfree).mono hK))

/-- What a stop is made of up to its last clean-up. -/
def quiesceKinds : Finset Kind := insert .command (insert .detach awaitKinds)

theorem quiesceRender_does (target : KsState) (i : SetStateInput) (w : World)
    (htarget : target ≠ .run) :
    Does quiesceKinds { w with state := target } (quiesceRender target i w).2 := by
  refine quiesceRender_does_of (by decide) target i w htarget fun w => ?_
  have hstop := viosndPcmCommand_does .stop i.stop w
  have hrelease := viosndPcmCommand_does .release i.release (viosndStopPcm i.stop w).2
  exact (hstop.trans hrelease).mono (by decide)

private theorem stopRenderWorker_stopped (exited : Bool) (w : World)
    (h : exited = true ∨ w.threadObject = false) : (stopRenderWorker exited w).1 = true := by
  unfold stopRenderWorker
  split
  · rfl
  · rename_i hobject
    rw [if_neg]
    rcases h with h | h
    · simp [h]
    · exact absurd h hobject

private theorem stopRenderWorker_busy (exited : Bool) (w : World)
    (h : (stopRenderWorker exited w).1 = false) : (stopRenderWorker exited w).2 = w := by
  unfold stopRenderWorker at h ⊢
  split at h
  · cases h
  · rename_i hobject
    split at h
    · rename_i hexited
      rw [if_neg hobject, if_pos hexited]
    · cases h

/-- The first wait times out only for a worker that has an object and stays as it is. -/
private theorem awaitWorker_busy (target : KsState) (i : SetStateInput) (w : World)
    (htarget : target ≠ .run) (hbusy : (awaitWorker target i w).1 = false) :
    i.exited = false ∧ w.workerStarted = true ∧ w.threadObject = true ∧
      (awaitWorker target i w).2.workerStarted = true ∧
      (awaitWorker target i w).2.state = target := by
  have hidle := workerSteps_idle_does i.stopping { w with state := target } htarget
  have hthread := Does.thread_eq hidle (by decide)
  have hstate := Does.state_eq hidle (by decide)
  have hexit : ∀ exited w', (stopRenderWorker exited w').1 = false →
      exited = false ∧ w'.threadObject = true := by
    intro exited w' h
    constructor
    · by_contra hexited
      rw [stopRenderWorker_stopped _ _ (Or.inl (by simpa using hexited))] at h
      cases h
    · by_contra hobject
      rw [stopRenderWorker_stopped _ _ (Or.inr (by simpa using hobject))] at h
      cases h
  unfold awaitWorker at hbusy ⊢
  dsimp only at hbusy ⊢
  split at hbusy
  · rename_i hstarted
    obtain ⟨hexited, hobject⟩ := hexit _ _ hbusy
    rw [if_pos hstarted, stopRenderWorker_busy _ _ hbusy]
    refine ⟨hexited, ?_, ?_, hstarted, hstate⟩
    · rw [← hstarted, hthread.2]
    · rw [← hobject, hthread.1]
  · cases hbusy

theorem quiesceRender_stopped (target : KsState) (i : SetStateInput) (w : World)
    (htarget : target ≠ .run)
    (hexit : i.exited = true ∨ i.exitedLate = true ∨ w.workerStarted = false ∨
      w.threadObject = false) : (quiesceRender target i w).1 = true := by
  have hfirst := awaitWorker_busy target i w htarget
  unfold quiesceRender
  dsimp only
  generalize awaitWorker target i w = first at hfirst ⊢
  cases hone : first.1 with
  | true =>
      unfold awaitWorkerAgain
      simp
  | false =>
      obtain ⟨hexited, hstarted, hobject, hstarted', hstate⟩ := hfirst hone
      have hlate : i.exitedLate = true := by
        rcases hexit with h | h | h | h
        · rw [hexited] at h
          cases h
        · exact h
        · rw [hstarted] at h
          cases h
        · rw [hobject] at h
          cases h
      have hlingering := workerSteps_idle_does i.lingering
        (viosndReleasePcm i.release (viosndStopPcm i.stop first.2).2).2 (by
          change first.2.state ≠ .run
          rw [hstate]
          exact htarget)
      have hstill := (Does.thread_eq hlingering (by decide)).2.trans hstarted'
      unfold awaitWorkerAgain
      dsimp only
      simp only [Bool.false_eq_true, if_false, true_and]
      rw [if_pos hstill]
      exact stopRenderWorker_stopped _ _ (Or.inl hlate)

private theorem stopRender_does (target : KsState) (i : SetStateInput) (w : World)
    (htarget : target ≠ .run) {K : Finset Kind} (hK : transitionKinds ⊆ K)
    (hreset : target = .stop → .reset ∈ K) : Does K w (stopRender target i w).2 := by
  have hquiet : Does transitionKinds w (quiesceRender target i w).2 :=
    (Within.single (k := .enter) (by decide) (.enter target w)).trans
      ((quiesceRender_does target i w htarget).mono (by decide))
  unfold stopRender
  dsimp only
  split
  · have hsettle := hquiet.trans (Within.single (K := transitionKinds) (by decide)
      (.settle i.qpc (quiesceRender target i w).2))
    dsimp only
    split
    · rename_i hstop
      exact (hsettle.mono hK).trans (Within.single (hreset hstop) (.reset _))
    · exact hsettle.mono hK
  · exact (hquiet.trans (Within.single (k := .enter) (by decide) (.enter .run _))).mono hK

theorem setState_does (target : KsState) (i : SetStateInput) (w : World) {K : Finset Kind}
    (hK : transitionKinds ⊆ K) (hreset : target = .stop → .reset ∈ K) :
    Does K w (setState target i w).2 := by
  unfold setState
  split
  · exact (startRender_does i w).mono ((Finset.subset_insert _ _).trans hK)
  split
  · rename_i hstop
    exact stopRender_does target i w hstop.1 hK hreset
  · exact Within.single (hK (by decide)) (.enter target w)

/-! ## Position queries -/

theorem queryClock_does (qpc : LONGLONG) (w : World) :
    Does {.reading, .report} w (queryClock qpc w) := by
  unfold queryClock
  dsimp only
  split
  · exact Within.single (k := .report) (by decide) (.report _ w)
  · exact (Within.single (k := .reading) (by decide) (.reading qpc w)).trans
      (Within.single (k := .report) (by decide) (.report _ _))

/-- What any worker step, and any call but `SetWritePacket` and a stop, is made of. -/
def callKinds : Finset Kind := insert .report transitionKinds

theorem getPosition_does (qpc : LONGLONG) (w : World) :
    Does {.reading, .report} w (getPosition qpc w).2 := by
  unfold getPosition
  split
  · exact Within.refl w
  · exact queryClock_does qpc w

/-! ## Steps -/

def Action.IsWrite : Action → Prop
  | .setWritePacket _ _ _ => True
  | _ => False

def Action.IsStop : Action → Prop
  | .setState .stop _ => True
  | _ => False

theorem step_does_of (w : World) (a : Action) (ha : ¬ a.IsWrite) {K : Finset Kind}
    (hK : callKinds ⊆ K) (hreset : a.IsStop → .reset ∈ K) : Does K w (step w a) := by
  cases a with
  | setState target i =>
      refine setState_does target i w ((Finset.subset_insert _ _).trans hK) ?_
      rintro rfl
      exact hreset trivial
  | setWritePacket packetNumber endOfStream eosPacketLength => exact absurd trivial ha
  | worker s => exact (workerStep_does w s).mono (Finset.Subset.trans (by decide) hK)
  | getPosition qpc => exact (getPosition_does qpc w).mono (Finset.Subset.trans (by decide) hK)
  | getPresentationPosition qpc =>
      exact (queryClock_does qpc w).mono (Finset.Subset.trans (by decide) hK)

theorem step_does (w : World) (a : Action) (ha : ¬ a.IsWrite) :
    Does (insert .reset callKinds) w (step w a) :=
  step_does_of w a ha (Finset.subset_insert _ _) fun _ => Finset.mem_insert_self _ _

end Viosnd.Render
