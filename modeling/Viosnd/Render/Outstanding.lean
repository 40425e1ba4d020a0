import Viosnd.Render.Effects

/-!
# The count of outstanding writes

`m_OutstandingWrites` counts the stream's buffers on the TX queue. `SetState(KSSTATE_STOP)` and
`FreeAudioBuffer` set it to zero whatever is still there. The queue is its list of tokens here, as
it is while the device holds no chain that was detached before.
-/

namespace Viosnd.Render

open StepRun EffectSystem

/-! ## The audio buffer -/

/-- The fields `FreeAudioBuffer` resets. -/
def forgetBuffer (w : World) : World := { w with
  buffer := none
  bufferSize := 0
  notificationCount := 0
  packetSize := 0
  packetNumber := 0
  lastOsWritePacket := maxULONG
  nextSubmitPacket := 0
  eosPacketNumber := maxULONG
  eosPacketLength := 0
  outstandingWrites := 0
  renderPrerollPackets := 0
  renderFallbackPhase := 0
  renderFallbackActive := false
  renderFallbackAttempted := false
  fallbackMonitorStartPosition := 0
  fallbackMonitorStartQpc := 0
  position := 0 }

/-- `FreeAudioBuffer`; `current` when the MDL it gets is `m_Mdl`. -/
def freeAudioBuffer (current : Bool) (w : World) : World :=
  if current then forgetBuffer (freeRenderIoPool w) else w

def viosndNotificationCountFromBufferSize (bufferSize : ULONG) : ULONG :=
  if bufferSize = 0 then 0
  else if bufferSize / defaultPeriodBytes < 1 then 1 else bufferSize / defaultPeriodBytes

def viosndPacketSizeFromNotificationCount (bufferSize _notificationCount : ULONG) : ULONG :=
  if bufferSize < defaultPeriodBytes then bufferSize else defaultPeriodBytes

def viosndUsableBufferSizeFromAllocatedSize (allocatedSize : ULONG) : ULONG :=
  if allocatedSize < defaultPeriodBytes then allocatedSize
  else viosndNotificationCountFromBufferSize allocatedSize * defaultPeriodBytes

/-- What the allocation of the pages comes to; `unmapped` is an MDL without an address. -/
inductive PagesInput where
  | none
  | unmapped
  | mapped (allocatedSize : ULONG)

/-- `AllocateAudioBuffer`. -/
def allocateAudioBuffer (pages : PagesInput) (w : World) : NtStatus × World :=
  match pages with
  | .none => (.insufficientResources, w)
  | .unmapped => (.insufficientResources, freeAudioBuffer true { w with
      buffer := none })
  | .mapped allocatedSize =>
      let bufferSize := viosndUsableBufferSizeFromAllocatedSize allocatedSize
      let notificationCount := viosndNotificationCountFromBufferSize bufferSize
      (.success, { w with
        buffer := some fun _ => 0
        bufferSize := bufferSize
        notificationCount := notificationCount
        packetSize := viosndPacketSizeFromNotificationCount bufferSize notificationCount })

/-- The calls of a stream whose buffer is allocated and freed. -/
inductive Call where
  | act (a : Action)
  | allocateAudioBuffer (pages : PagesInput)
  | freeAudioBuffer (current : Bool)

def callStep (w : World) : Call → World
  | .act a => step w a
  | .allocateAudioBuffer pages => (allocateAudioBuffer pages w).2
  | .freeAudioBuffer current => freeAudioBuffer current w

/-! ## The count -/

/-- `m_OutstandingWrites` is the number of the stream's buffers on the TX queue. -/
def CountExact (w : World) : Prop := w.outstandingWrites = w.txQueue.length

instance (w : World) : Decidable (CountExact w) := inferInstanceAs (Decidable (_ = _))

/-- How many of `n` buffers the reclaims of a cancel leave: it ends with the first reclaim that
finds the mutex busy or nothing used. -/
def leftByReclaims : List TxReclaim → ℕ → ℕ
  | .used k :: reclaims, n => if k < n then leftByReclaims reclaims (n - 1) else n
  | _, n => n

/-- How many of `n` buffers the detaches leave. -/
def leftByDetaches : List TxDetach → ℕ → ℕ
  | .found k :: detaches, n => if k < n then leftByDetaches detaches (n - 1) else n
  | _, n => n

def leftByCancel (i : CancelInput) (n : ℕ) : ℕ :=
  leftByDetaches i.detaches (leftByReclaims i.reclaims n)

/-- Whether the worker has stopped when `SetState` calls `CancelRenderWrites`, and the state
then. -/
def atCancel (target : KsState) (i : SetStateInput) (w : World) : Bool × World :=
  let first := awaitWorker target i w
  awaitWorkerAgain first.1 i (viosndReleasePcm i.release (viosndStopPcm i.stop first.2).2).2

/-- A call that resets the count finds no buffer on the queue: a stop from RUN cancels them all,
and the audio buffer is freed when there is none. -/
def ResetFindsNone (w : World) : Call → Prop
  | .act (.setState .stop i) => w.state = .run → (atCancel .stop i w).1 = true →
      leftByCancel i.cancel (atCancel .stop i w).2.txQueue.length = 0
  | .allocateAudioBuffer .unmapped => w.txQueue = []
  | .freeAudioBuffer true => w.txQueue = []
  | _ => True

section

variable {w w' : World}

private theorem completeEntry_counts (k : ℕ) (entry : TxEntry) (w : World) :
    (completeEntry k entry w).outstandingWrites = w.outstandingWrites - 1 ∧
      (completeEntry k entry w).txQueue = w.txQueue.eraseIdx k := by
  rw [completeEntry_eq]
  exact ⟨rfl, rfl⟩

private theorem detachEntry_counts (k : ℕ) (entry : TxEntry) (w : World) :
    (detachEntry k entry w).outstandingWrites = w.outstandingWrites - 1 ∧
      (detachEntry k entry w).txQueue = w.txQueue.eraseIdx k := by
  rw [detachEntry_eq]
  exact ⟨rfl, rfl⟩

theorem CountExact.lend (h : CountExact w) (entry : TxEntry)
    (hcount : w'.outstandingWrites = w.outstandingWrites + 1)
    (hqueue : w'.txQueue = w.txQueue ++ [entry]) : CountExact w' := by
  unfold CountExact at h ⊢
  rw [hcount, hqueue, h, List.length_append]
  rfl

theorem CountExact.erase (h : CountExact w) {k : ℕ} {entry : TxEntry}
    (hk : w.txQueue[k]? = some entry) (hcount : w'.outstandingWrites = w.outstandingWrites - 1)
    (hqueue : w'.txQueue = w.txQueue.eraseIdx k) : CountExact w' := by
  obtain ⟨hlt, -⟩ := List.getElem?_eq_some_iff.mp hk
  unfold CountExact at h ⊢
  rw [hcount, hqueue, h, List.length_eraseIdx_of_lt hlt]

/-- Every change but a reset keeps the count exact. -/
private theorem Effect.countExact {k : Kind} (heffect : Effect k w w') (hk : k ≠ .reset)
    (h : CountExact w) : CountExact w' := by
  cases heffect with
  | reset => exact absurd rfl hk
  | write packetNumber endOfStream eosPacketLength =>
      unfold CountExact at h ⊢
      rw [setWritePacket_eq]
      exact h
  | free _ _ =>
      unfold CountExact at h ⊢
      rw [freeRenderIo_eq]
      exact h
  | preroll entry => exact h.lend entry rfl rfl
  | silence entry => exact h.lend entry rfl rfl
  | packet entry => exact h.lend entry rfl rfl
  | complete k entry _ hentry =>
      obtain ⟨hcount, hqueue⟩ := completeEntry_counts k entry w
      exact h.erase hentry hcount hqueue
  | detach k entry _ hentry =>
      obtain ⟨hcount, hqueue⟩ := detachEntry_counts k entry w
      exact h.erase hentry hcount hqueue
  | _ => exact h

private theorem Does.countExact {K : Finset Kind} (h : Does K w w') (hK : .reset ∉ K)
    (hw : CountExact w) : CountExact w' :=
  h.invariant (fun _ hk _ _ heffect => heffect.countExact fun heq => hK (heq ▸ hk)) hw

end

/-! ## What a cancel leaves -/

private theorem reclaimRenderPackets_length (reclaims : List TxReclaim) (w : World) :
    (reclaimRenderPackets reclaims w).txQueue.length =
      leftByReclaims reclaims w.txQueue.length := by
  induction reclaims generalizing w with
  | nil => rfl
  | cons o reclaims ih =>
      cases o with
      | used k =>
          cases hk : w.txQueue[k]? with
          | none =>
              have hge := List.getElem?_eq_none_iff.mp hk
              simp only [reclaimRenderPackets, reclaimRenderPacket, viosndReclaimPreparedWritePcm,
                hk]
              exact (if_neg (by omega)).symm
          | some entry =>
              obtain ⟨hlt, -⟩ := List.getElem?_eq_some_iff.mp hk
              have hqueue := (completeEntry_counts k entry w).2
              simp only [reclaimRenderPackets, reclaimRenderPacket, viosndReclaimPreparedWritePcm,
                hk]
              refine (ih (completeEntry k entry w)).trans ?_
              rw [hqueue, List.length_eraseIdx_of_lt hlt]
              exact (if_pos hlt).symm
      | _ => rfl

private theorem leftByDetaches_zero (detaches : List TxDetach) : leftByDetaches detaches 0 = 0 := by
  cases detaches with
  | nil => rfl
  | cons o detaches =>
      cases o with
      | found k => exact if_neg (Nat.not_lt_zero k)
      | _ => rfl

/-- The loop ends when the count is zero, and then there is no buffer left. -/
private theorem detachRenderWrites_length (detaches : List TxDetach) (w : World)
    (hexact : CountExact w) :
    (detachRenderWrites detaches w).txQueue.length =
      leftByDetaches detaches w.txQueue.length := by
  induction detaches generalizing w with
  | nil => rfl
  | cons o detaches ih =>
      unfold detachRenderWrites
      split
      · rename_i hzero
        have hnone : w.txQueue.length = 0 := hexact.symm.trans hzero
        rw [hnone, leftByDetaches_zero]
      · cases o with
        | found k =>
            cases hk : w.txQueue[k]? with
            | none =>
                have hge := List.getElem?_eq_none_iff.mp hk
                simp only [viosndDetachUnusedWritePcm, hk]
                exact (if_neg (by omega)).symm
            | some entry =>
                obtain ⟨hlt, -⟩ := List.getElem?_eq_some_iff.mp hk
                obtain ⟨hcount, hqueue⟩ := detachEntry_counts k entry w
                simp only [viosndDetachUnusedWritePcm, hk]
                refine (ih (detachEntry k entry w) (hexact.erase hk hcount hqueue)).trans ?_
                rw [hqueue, List.length_eraseIdx_of_lt hlt]
                exact (if_pos hlt).symm
        | _ => rfl

private theorem cancelRenderWrites_length (i : CancelInput) (w : World) (hexact : CountExact w) :
    (cancelRenderWrites i w).txQueue.length = leftByCancel i w.txQueue.length := by
  have hreclaimed := (reclaimRenderPackets_does i.reclaims w).countExact (by decide) hexact
  unfold cancelRenderWrites leftByCancel
  rw [detachRenderWrites_length i.detaches _ hreclaimed, reclaimRenderPackets_length]

/-! ## Calls -/

private theorem freeRenderIoPool_counts (w : World) :
    (freeRenderIoPool w).txQueue = w.txQueue ∧
      (freeRenderIoPool w).outstandingWrites = w.outstandingWrites := by
  have hkeeps : ∀ k ∈ ({.free, .tune} : Finset Kind), ∀ a b, Effect k a b →
      (b.txQueue, b.outstandingWrites) = (a.txQueue, a.outstandingWrites) := by
    intro k hk a b heffect
    cases heffect with
    | tune => rfl
    | free =>
        rw [freeRenderIo_eq]
    | _ => exact absurd hk (by decide)
  have hsame := (freeRenderIoPool_does w).keeps (fun w => (w.txQueue, w.outstandingWrites)) hkeeps
  exact Prod.mk.inj hsame

private theorem freeAudioBuffer_countExact (w : World) :
    CountExact (freeAudioBuffer true w) ↔ w.txQueue = [] := by
  have hqueue : (freeAudioBuffer true w).txQueue = w.txQueue := (freeRenderIoPool_counts w).1
  have hcount : (freeAudioBuffer true w).outstandingWrites = 0 := rfl
  unfold CountExact
  rw [hcount, hqueue, eq_comm]
  exact List.length_eq_zero_iff

private theorem atCancel_countExact (target : KsState) (i : SetStateInput) (w : World)
    (htarget : target ≠ .run) (h : CountExact w) : CountExact (atCancel target i w).2 := by
  have hfirst := awaitWorker_does target i w htarget
  have hstate : (awaitWorker target i w).2.state = target := Does.state_eq hfirst (by decide)
  have hentered : CountExact { w with
      state := target } := h
  have hwaited := hfirst.countExact (by decide) hentered
  have hcommands : CountExact (viosndReleasePcm i.release
      (viosndStopPcm i.stop (awaitWorker target i w).2).2).2 := hwaited
  have hagain := awaitWorkerAgain_does (awaitWorker target i w).1 i
    (viosndReleasePcm i.release (viosndStopPcm i.stop (awaitWorker target i w).2).2).2 (by
      change (awaitWorker target i w).2.state ≠ .run
      rw [hstate]
      exact htarget)
  exact hagain.countExact (by decide) hcommands

private theorem quiesceRender_eq (target : KsState) (i : SetStateInput) (w : World) :
    quiesceRender target i w = ((atCancel target i w).1,
      freeRenderIoPool (cancelRenderWrites i.cancel (atCancel target i w).2)) :=
  rfl

/-- A stop from RUN whose worker has stopped leaves the count exact when the cancel leaves no
buffer. -/
private theorem stopRender_countExact (i : SetStateInput) (w : World) (h : CountExact w) :
    CountExact (stopRender .stop i w).2 ↔ ((atCancel .stop i w).1 = true →
      leftByCancel i.cancel (atCancel .stop i w).2.txQueue.length = 0) := by
  have hcancel := atCancel_countExact .stop i w (by decide) h
  have hlength := cancelRenderWrites_length i.cancel (atCancel .stop i w).2 hcancel
  have hcancelled := (cancelRenderWrites_does i.cancel (atCancel .stop i w).2).countExact
    (by decide) hcancel
  obtain ⟨hqueue, hcount⟩ := freeRenderIoPool_counts
    (cancelRenderWrites i.cancel (atCancel .stop i w).2)
  unfold stopRender
  rw [quiesceRender_eq]
  dsimp only
  split
  · rename_i hstopped
    rw [if_pos rfl]
    rw [imp_iff_right hstopped, ← hlength]
    change 0 = (freeRenderIoPool (cancelRenderWrites i.cancel
      (atCancel .stop i w).2)).txQueue.length ↔ _
    rw [hqueue, eq_comm]
  · rename_i hbusy
    refine iff_of_true ?_ (fun hstopped => absurd hstopped hbusy)
    unfold CountExact at hcancelled ⊢
    exact hcount.trans (hcancelled.trans (congrArg List.length hqueue.symm))

private theorem act_countExact (a : Action) (w : World) (h : CountExact w)
    (ha : ∀ i, a = .setState .stop i → w.state ≠ .run) : CountExact (step w a) := by
  cases a with
  | setState target i =>
      by_cases hstop : target = .stop
      · subst hstop
        have hother : (KsState.stop = .run ↔ w.state = .run) :=
          iff_of_false (by decide) (ha i rfl)
        rw [step_setState, setState_other .stop i w hother]
        exact h
      · exact (setState_does target i w (K := transitionKinds) (Finset.Subset.refl _)
          (fun heq => absurd heq hstop)).countExact (by decide) h
  | setWritePacket packetNumber endOfStream eosPacketLength =>
      exact (Effect.write packetNumber endOfStream eosPacketLength w).countExact (by decide) h
  | worker s => exact (workerStep_does w s).countExact (by decide) h
  | getPosition qpc => exact (getPosition_does qpc w).countExact (by decide) h
  | getPresentationPosition qpc => exact (queryClock_does qpc w).countExact (by decide) h

private theorem callStep_countExact (w : World) (c : Call) (h : CountExact w) :
    CountExact (callStep w c) ↔ ResetFindsNone w c := by
  cases c with
  | act a =>
      by_cases ha : ∃ i, a = .setState .stop i ∧ w.state = .run
      · obtain ⟨i, rfl, hstate⟩ := ha
        have hstop := setState_stop .stop i w (by decide) hstate
        change CountExact (setState .stop i w).2 ↔ (w.state = .run → _)
        rw [hstop, imp_iff_right hstate]
        exact stopRender_countExact i w h
      · have hexact : CountExact (callStep w (.act a)) :=
          act_countExact a w h fun i heq hstate => ha ⟨i, heq, hstate⟩
        refine iff_of_true hexact ?_
        cases a with
        | setState target i =>
            cases target with
            | stop => exact fun hstate => absurd ⟨i, rfl, hstate⟩ ha
            | _ => trivial
        | _ => trivial
  | allocateAudioBuffer pages =>
      cases pages with
      | unmapped => exact freeAudioBuffer_countExact { w with
          buffer := none }
      | _ => exact iff_of_true h trivial
  | freeAudioBuffer current =>
      cases current with
      | true => exact freeAudioBuffer_countExact w
      | false => exact iff_of_true h trivial

/-- From any state with an exact count, the count stays exact in exactly those runs in which every
call that resets it finds no buffer of the stream on the TX queue. -/
theorem run_countExact_iff (w : World) (h : CountExact w) (calls : List Call) :
    (∀ first, first <+: calls → CountExact (run callStep w first)) ↔
      Guarded callStep ResetFindsNone w calls :=
  forall_prefix_iff_guarded (fun _ hw => hw)
    (fun w c hw hguard => (callStep_countExact w c hw).mpr hguard)
    (fun w c hw hnot hexact => hnot ((callStep_countExact w c hw).mp hexact)) h calls

/-- A stream with two buffers on the queue that is stopped with `cancel`. -/
def stoppedWith (cancel : CancelInput) : List Call :=
  [.act (.setState .run (.granted 1)), .act (.setState .stop { SetStateInput.granted 2 with
    cancel := cancel })]

/-- Both buffers are detached, then the audio buffer is freed. -/
theorem run_countExact_iff_detached :
    CountExact (run callStep (World.fresh (some fun _ => 0) 4096 2 2048)
      (stoppedWith ⟨[.empty], [.found 0, .found 0]⟩ ++ [.freeAudioBuffer true])) := by
  apply (run_countExact_iff (World.fresh (some fun _ => 0) 4096 2 2048) rfl _).mpr _ _
    List.prefix_rfl
  refine ⟨trivial, fun _ _ => by decide +kernel, ?_, trivial⟩
  exact List.length_eq_zero_iff.mp (by decide +kernel)

/-- The TX mutex is busy at the cancel. -/
theorem run_countExact_mutexTimeout :
    ¬ CountExact (run callStep (World.fresh (some fun _ => 0) 4096 2 2048)
      (stoppedWith ⟨[.mutexTimeout], [.mutexTimeout]⟩)) := by
  decide +kernel

end Viosnd.Render
