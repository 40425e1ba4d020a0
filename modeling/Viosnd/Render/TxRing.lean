import Viosnd.Render.Conservation
import Viosnd.VirtIO.RingTokens

/-!
# The render buffers on the TX ring

The pool operations on the virtqueue of `VirtIORing.c` itself, which this stream uses alone, with
the device taking and returning chains between any two passes. A chain that is detached while the
device holds it is freed under the device, which returns it all the same.
-/

namespace Viosnd.Render

open StepRun VirtIO

/-- The stream and its TX ring. `world.txQueue` says how the driver filled in the buffers it
submitted; which of them are on the queue only the ring knows. -/
structure RingWorld where
  world : World
  ring : LiveQueue Nat

def RingWorld.fresh (buffer : Option Memory) (bufferSize notificationCount packetSize : ULONG)
    (num : Nat) : RingWorld where
  world := .fresh buffer bufferSize notificationCount packetSize
  ring := .new Nat num

inductive TxAccess where
  | noQueue
  | mutexTimeout
  | granted
  deriving DecidableEq, Repr

inductive Submitter where
  | preroll
  | worker
  /-- `worker` with the test of `m_State` made earlier. -/
  | late

def Submitter.op (who : Submitter) (o : TxSubmit) : PoolOp :=
  match who with
  | .preroll => .preroll o
  | .worker => .submit o
  | .late => .submitLate o

inductive RingOp where
  | allocate (i : PoolInput)
  | free
  | reclaim (access : TxAccess)
  | detach (access : TxAccess)
  /-- The device reads the buffer at `request` and writes its status to `status`. -/
  | submit (who : Submitter) (access : TxAccess) (request status : Scatter)
  | chooseTarget
  | elsewhere (w' : World)
  | forcedReset
  /-- The device takes an entry from the available ring. -/
  | take
  /-- The device returns the `k`-th chain it holds. -/
  | giveBack (k : Nat) (len : BitVec 32)

/-- Where the driver finds what it filled the buffer in with. -/
def World.entryOf (w : World) (io : Nat) : Nat := w.txQueue.findIdx fun entry => entry.io.id = io

/-- What `ViosndReclaimPreparedWritePcm` finds. -/
def RingWorld.reclaimAnswer (w : RingWorld) (access : TxAccess) : TxReclaim :=
  match access with
  | .noQueue => .noQueue
  | .mutexTimeout => .mutexTimeout
  | .granted =>
      if w.ring.hung then .mutexTimeout
      else match virtqueueGetBufSplit w.ring.ring with
        | some (some (some io, _), _) => .used (w.world.entryOf io)
        | _ => .empty

/-- What `ViosndDetachUnusedWritePcm` finds. -/
def RingWorld.detachAnswer (w : RingWorld) (access : TxAccess) : TxDetach :=
  match access with
  | .noQueue => .noQueue
  | .mutexTimeout => .mutexTimeout
  | .granted =>
      if w.ring.hung then .mutexTimeout
      else match virtqueueDetachUnusedBufSplit w.ring.ring with
        | some (some io, _) => .found (w.world.entryOf io)
        | _ => .empty

/-- The buffer a pass asks the queue to take, if it comes that far: a queue that takes every buffer
would have it. -/
def offered (who : Submitter) (w : World) : Option Nat :=
  ((poolStep w (who.op .queued)).txQueue.drop w.txQueue.length).head?.map fun entry => entry.io.id

/-- What `ViosndSubmitPreparedWritePcm` comes to for the buffer. -/
def RingWorld.submitAnswer (w : RingWorld) (access : TxAccess) (request status : Scatter)
    (io : Nat) : TxSubmit :=
  match access with
  | .noQueue => .noQueue
  | .mutexTimeout => .mutexTimeout
  | .granted =>
      if w.ring.hung then .mutexTimeout
      else match virtqueueAddBufSplit request [status] 1 io none w.ring.ring with
        | some _ => .queued
        | none => .ringFull

def submitOnRing (w : RingWorld) (who : Submitter) (access : TxAccess)
    (request status : Scatter) : RingWorld :=
  match offered who w.world with
  | none => { w with world := poolStep w.world (who.op .ringFull) }
  | some io =>
      let answer := w.submitAnswer access request status io
      { world := poolStep w.world (who.op answer)
        ring := if answer = .queued then w.ring.step (.submit request status io) else w.ring }

def ringStep (w : RingWorld) : RingOp → RingWorld
  | .allocate i => { w with world := poolStep w.world (.allocate i) }
  | .free => { w with world := poolStep w.world .free }
  | .reclaim access =>
      { world := poolStep w.world (.reclaim (w.reclaimAnswer access))
        ring := if access = .granted then w.ring.step .reclaim else w.ring }
  | .detach access =>
      { world := poolStep w.world (.detach (w.detachAnswer access))
        ring := if w.world.outstandingWrites ≠ 0 ∧ access = .granted then w.ring.step .detach
          else w.ring }
  | .submit who access request status => submitOnRing w who access request status
  | .chooseTarget => { w with world := poolStep w.world .chooseTarget }
  | .elsewhere w' => { w with world := poolStep w.world (.elsewhere w') }
  | .forcedReset => { w with world := poolStep w.world .forcedReset }
  | .take => { w with ring := w.ring.step .take }
  | .giveBack k len => { w with ring := w.ring.step (.giveBack k len) }

/-- Only chains the device has not taken are detached; until all others are taken or detached as
well, the device takes no entry of a chain that was; and a forced reset finds no buffer on the
ring. -/
def DetachGuard (w : RingWorld) : RingOp → Prop
  | .detach access =>
      w.world.outstandingWrites ≠ 0 → access = .granted → WithdrawGuard w.ring .detach
  | .take => WithdrawGuard w.ring .take
  | .forcedReset => w.ring.ring.tokens = []
  | _ => True

instance (w : RingWorld) (op : RingOp) : Decidable (DetachGuard w op) :=
  match op with
  | .detach access => inferInstanceAs (Decidable
      (w.world.outstandingWrites ≠ 0 → access = .granted → WithdrawGuard w.ring .detach))
  | .take => inferInstanceAs (Decidable (WithdrawGuard w.ring .take))
  | .forcedReset => decidable_of_iff (w.ring.ring.tokens.isEmpty = true) List.isEmpty_iff
  | .allocate _ | .free | .reclaim _ | .submit _ _ _ _ => isTrue trivial
  | .chooseTarget | .elsewhere _ | .giveBack _ _ => isTrue trivial

/-- What the pool, the counters and the ring agree on. -/
structure RingConserved (w : RingWorld) : Prop where
  filled : ∀ i < w.world.renderIoFreeCount, ∃ io, w.world.renderIoPool i = some io ∧
    io.id ∉ w.ring.ring.tokens
  distinct : ∀ i < w.world.renderIoFreeCount, ∀ j < w.world.renderIoFreeCount, ∀ a b,
    w.world.renderIoPool i = some a → w.world.renderIoPool j = some b → a.id = b.id → i = j
  vacant : ∀ i, w.world.renderIoFreeCount ≤ i → w.world.renderIoPool i = none
  outstanding : w.world.outstandingWrites = w.ring.ring.tokens.length
  total : w.world.renderIoFreeCount + w.world.outstandingWrites = 0 ∨
    w.world.renderIoFreeCount + w.world.outstandingWrites = renderIoPoolSize
  bounded : w.world.outstandingWrites ≤ renderTargetOutstandingPackets
  freedOnce : (freedIds w.world.history).Nodup
  /-- No buffer is freed before it was taken off, and none comes back afterwards. -/
  freedOff : ∀ id ∈ freedIds w.world.history, id ∉ w.ring.ring.tokens
  freedOffQueue : ∀ newer io older, w.world.history = newer ++ .freed io :: older →
    ¬ Loans.Out io.id (loans .queue older)

/-! ## What a pass does to the queue -/

private theorem Effect.txQueue_eq {k : Kind} {w w' : World} (h : Effect k w w')
    (hk : k ∉ ({.preroll, .silence, .packet, .complete, .detach} : Finset Kind)) :
    w'.txQueue = w.txQueue := by
  cases h with
  | preroll | silence | packet | complete | detach => exact absurd (by decide) hk
  | write => rw [setWritePacket_eq]
  | free => rw [freeRenderIo_eq]
  | _ => rfl

private theorem Does.txQueue_eq {K : Finset Kind} {w w' : World} (h : Does K w w')
    (hK : Disjoint K {.preroll, .silence, .packet, .complete, .detach}) :
    w'.txQueue = w.txQueue :=
  h.keeps World.txQueue fun _ hk _ _ hR =>
    Effect.txQueue_eq hR (Finset.disjoint_left.mp hK hk)

/-- The pass put one buffer on the queue, and then the queue took it, or none. -/
def Asked (o : TxSubmit) (w w' : World) : Prop :=
  w'.txQueue = w.txQueue ∨ o = .queued ∧ ∃ entry, w'.txQueue = w.txQueue ++ [entry]

private theorem viosndSubmitPreparedWritePcm_asked (audio : List Byte)
    (length sourceLength packetNumber : ULONG) (io : Option PcmIo) (o : TxSubmit) (w : World) :
    Asked o w
      (viosndSubmitPreparedWritePcm audio length sourceLength packetNumber io o w).2 := by
  unfold viosndSubmitPreparedWritePcm
  split
  · exact Or.inl rfl
  cases io with
  | none => exact Or.inl rfl
  | some io =>
      dsimp only
      split
      · exact Or.inl rfl
      · cases o with
        | queued => exact Or.inr ⟨rfl, _, rfl⟩
        | _ => exact Or.inl rfl

private theorem submitPooled_asked (audio : List Byte) (length sourceLength packetNumber : ULONG)
    (o : TxSubmit) (onSuccess : World → World) (w : World)
    (hkeeps : ∀ next, (onSuccess next).txQueue = next.txQueue) :
    Asked o w (submitPooled audio length sourceLength packetNumber o onSuccess w).2 := by
  have hasked := viosndSubmitPreparedWritePcm_asked audio length sourceLength packetNumber
    (popRenderIo w).1 o (popRenderIo w).2
  unfold submitPooled
  dsimp only
  split
  · unfold Asked at hasked ⊢
    dsimp only
    rw [hkeeps]
    exact hasked
  · exact hasked

private theorem submitRenderPacket_asked (packetNumber packetLength : ULONG) (o : TxSubmit)
    (w : World) : Asked o w (submitRenderPacket packetNumber packetLength o w).2 := by
  unfold submitRenderPacket
  split
  · exact Or.inl rfl
  split
  · exact Or.inl rfl
  split
  · exact Or.inl rfl
  dsimp only
  split
  · exact Or.inl rfl
  · exact submitPooled_asked _ _ _ _ _ _ { w with
      buffer := _, renderFallbackPhase := _ } fun _ => rfl

private theorem submitRenderSilencePacket_asked (packetNumber : ULONG) (o : TxSubmit) (w : World) :
    Asked o w (submitRenderSilencePacket packetNumber o w).2 := by
  unfold submitRenderSilencePacket
  split
  · exact Or.inl rfl
  split
  · exact Or.inl rfl
  split
  · exact Or.inl rfl
  dsimp only
  generalize (if w.renderFallbackActive then fallbackPeriodBytes else w.packetSize) = silenceLength
  split
  · exact Or.inl rfl
  · exact submitPooled_asked _ _ _ _ _ _ w fun _ => rfl

private theorem submitNext_asked (o : TxSubmit) (w : World) : Asked o w (submitNext o w).2 := by
  unfold submitNext
  split
  · exact submitRenderPacket_asked _ _ o w
  split
  · split
    · have hasked := submitRenderSilencePacket_asked w.nextSubmitPacket o w
      dsimp only
      split <;> exact hasked
    · exact submitRenderPacket_asked _ _ o w
  · exact Or.inl rfl

/-- A pass asks the queue to take a buffer once at most. -/
private theorem Submitter.asked (who : Submitter) (o : TxSubmit) (w : World) :
    Asked o w (poolStep w (who.op o)) := by
  cases who with
  | preroll =>
      show Asked o w (prerollRender 1 [o] w).2
      have hasked := submitRenderSilencePacket_asked maxULONG o w
      unfold prerollRender
      split
      · unfold whenOk
        split <;> exact hasked
      · exact Or.inl rfl
  | worker =>
      show Asked o w (submitPass o w).2
      unfold submitPass
      split
      · exact submitNext_asked o w
      · exact Or.inl rfl
  | late =>
      show Asked o w (submitLate o w)
      unfold submitLate
      split
      · exact submitNext_asked o w
      · exact Or.inl rfl

private theorem Submitter.refused (who : Submitter) {o : TxSubmit} (ho : o ≠ .queued) (w : World) :
    (poolStep w (who.op o)).txQueue = w.txQueue :=
  (who.asked o w).resolve_right fun h => ho h.1

private theorem offered_some {who : Submitter} {w : World} {io : Nat}
    (h : offered who w = some io) :
    queueIds (poolStep w (who.op .queued)) = queueIds w ++ [io] := by
  unfold offered at h
  rcases who.asked .queued w with hsame | ⟨-, entry, hentry⟩
  · rw [hsame, List.drop_length] at h
    cases h
  · rw [hentry, List.drop_left] at h
    obtain rfl := Option.some.inj h
    unfold queueIds
    rw [hentry, List.map_append]
    rfl

private theorem World.entryOf_spec {w : World} {io : Nat} (h : io ∈ queueIds w) :
    ∃ entry, w.txQueue[w.entryOf io]? = some entry ∧ entry.io.id = io := by
  obtain ⟨entry, hmem, hid⟩ := List.mem_map.mp h
  have hlt : w.entryOf io < w.txQueue.length :=
    List.findIdx_lt_length_of_exists ⟨entry, hmem, by simpa using hid⟩
  refine ⟨w.txQueue[w.entryOf io], List.getElem?_eq_getElem hlt, ?_⟩
  exact of_decide_eq_true (List.findIdx_getElem (w := hlt))

private theorem tokens_erase {w : World} {tokens rest : List Nat} {io : Nat}
    (htokens : tokens.Perm (queueIds w)) (hrest : tokens.Perm (io :: rest)) :
    ∃ entry, w.txQueue[w.entryOf io]? = some entry ∧
      rest.Perm ((queueIds w).eraseIdx (w.entryOf io)) := by
  have hmem : io ∈ queueIds w := htokens.mem_iff.mp (hrest.mem_iff.mpr List.mem_cons_self)
  obtain ⟨entry, hentry, rfl⟩ := World.entryOf_spec hmem
  obtain ⟨hlt, hget⟩ := List.getElem?_eq_some_iff.mp (queueIds_getElem? hentry)
  have hsplit := List.getElem_cons_eraseIdx_perm hlt
  rw [hget] at hsplit
  refine ⟨entry, hentry, List.Perm.cons_inv (a := entry.io.id) ?_⟩
  exact hrest.symm.trans (htokens.trans hsplit.symm)

/-! ## Every step -/

/-- The ring holds what the driver thinks is on the queue. -/
structure RingKept (w : RingWorld) : Prop where
  balanced : Balanced w.world
  accounted : w.ring.Accounted
  tokens : w.ring.ring.tokens.Perm (queueIds w.world)

section

variable {w : RingWorld}

private theorem RingKept.aside (h : RingKept w) (op : PoolOp) (hreset : ResetExact w.world op)
    (hqueue : (poolStep w.world op).txQueue = w.world.txQueue) :
    RingKept { w with world := poolStep w.world op } := by
  refine ⟨poolStep_balanced _ _ h.balanced hreset, h.accounted, ?_⟩
  unfold queueIds
  dsimp only
  rw [hqueue]
  exact h.tokens

private theorem RingKept.reclaim (h : RingKept w) (access : TxAccess) :
    RingKept (ringStep w (.reclaim access)) := by
  have haside : ∀ o, (∀ k, o ≠ .used k) → RingKept { w with
      world := poolStep w.world (.reclaim o) } := by
    intro o ho
    apply h.aside (.reclaim o) trivial
    cases o with
    | used k => exact absurd rfl (ho k)
    | _ => rfl
  cases access with
  | noQueue => exact haside .noQueue (by simp)
  | mutexTimeout => exact haside .mutexTimeout (by simp)
  | granted =>
      have hanswer : ∀ o, w.reclaimAnswer .granted = o → ringStep w (.reclaim .granted) =
          ⟨poolStep w.world (.reclaim o), w.ring.step .reclaim⟩ := by
        rintro o rfl
        simp [ringStep]
      have haccounted := w.ring.step_accounted .reclaim h.accounted trivial
      rcases reclaim_tokens h.accounted with ⟨hnone, hsame⟩ | ⟨io, len, next, hget, hperm⟩
      · rw [hanswer .empty (by simp [RingWorld.reclaimAnswer, h.accounted.hung, hnone]), hsame]
        exact haside .empty (by simp)
      · rw [hanswer (.used (w.world.entryOf io))
          (by simp [RingWorld.reclaimAnswer, h.accounted.hung, hget])]
        obtain ⟨entry, hentry, hrest⟩ := tokens_erase h.tokens hperm
        refine ⟨poolStep_balanced _ (.reclaim _) h.balanced trivial, haccounted, ?_⟩
        rw [queueIds_eraseIdx (w := w.world) (k := w.world.entryOf io)]
        · exact hrest
        · simp only [poolStep, reclaimRenderPacket, viosndReclaimPreparedWritePcm, hentry]
          exact congrArg World.txQueue (completeEntry_eq _ entry w.world)

private theorem RingKept.detach (h : RingKept w) (access : TxAccess)
    (hg : DetachGuard w (.detach access)) : RingKept (ringStep w (.detach access)) := by
  have haside : ∀ o, (∀ k, o ≠ .found k) → RingKept { w with
      world := poolStep w.world (.detach o) } := by
    intro o ho
    apply h.aside (.detach o) trivial
    simp only [poolStep, detachRenderWrites]
    split
    · rfl
    · cases o with
      | found k => exact absurd rfl (ho k)
      | _ => rfl
  by_cases hzero : w.world.outstandingWrites = 0
  · have hstep : ringStep w (.detach access) = w := by
      simp [ringStep, poolStep, detachRenderWrites, hzero]
    rw [hstep]
    exact h
  cases access with
  | noQueue =>
      have hstep : ringStep w (.detach .noQueue) =
          { w with world := poolStep w.world (.detach .noQueue) } := by
        simp [ringStep, RingWorld.detachAnswer]
      rw [hstep]
      exact haside .noQueue (by simp)
  | mutexTimeout =>
      have hstep : ringStep w (.detach .mutexTimeout) =
          { w with world := poolStep w.world (.detach .mutexTimeout) } := by
        simp [ringStep, RingWorld.detachAnswer]
      rw [hstep]
      exact haside .mutexTimeout (by simp)
  | granted =>
      have hanswer : ∀ o, w.detachAnswer .granted = o → ringStep w (.detach .granted) =
          ⟨poolStep w.world (.detach o), w.ring.step .detach⟩ := by
        rintro o rfl
        simp [ringStep, hzero]
      have hwithdraw := hg hzero rfl
      have haccounted := w.ring.step_accounted .detach h.accounted hwithdraw
      rcases detach_tokens h.accounted hwithdraw with ⟨hnone, hsame⟩ | ⟨io, next, hget, hperm⟩
      · rw [hanswer .empty (by simp [RingWorld.detachAnswer, h.accounted.hung, hnone]), hsame]
        exact haside .empty (by simp)
      · rw [hanswer (.found (w.world.entryOf io))
          (by simp [RingWorld.detachAnswer, h.accounted.hung, hget])]
        obtain ⟨entry, hentry, hrest⟩ := tokens_erase h.tokens hperm
        refine ⟨poolStep_balanced _ (.detach _) h.balanced trivial, haccounted, ?_⟩
        rw [queueIds_eraseIdx (w := w.world) (k := w.world.entryOf io)]
        · exact hrest
        · simp only [poolStep, detachRenderWrites, if_neg hzero, viosndDetachUnusedWritePcm,
            hentry]
          exact congrArg World.txQueue (detachEntry_eq _ entry w.world)

private theorem RingKept.submit (h : RingKept w) (who : Submitter) (access : TxAccess)
    (request status : Scatter) : RingKept (submitOnRing w who access request status) := by
  unfold submitOnRing
  cases hoffered : offered who w.world with
  | none => exact h.aside _ (by cases who <;> trivial) (who.refused (by simp) w.world)
  | some io =>
      dsimp only
      by_cases hqueued : w.submitAnswer access request status io = .queued
      · rw [hqueued, if_pos rfl]
        have hadd : ∃ ring, virtqueueAddBufSplit request [status] 1 io none w.ring.ring =
            some ring := by
          unfold RingWorld.submitAnswer at hqueued
          cases access with
          | granted =>
              cases hadd : virtqueueAddBufSplit request [status] 1 io none w.ring.ring with
              | none => simp [h.accounted.hung, hadd] at hqueued
              | some ring => exact ⟨ring, rfl⟩
          | _ => cases hqueued
        obtain ⟨ring, hadd⟩ := hadd
        refine ⟨poolStep_balanced _ _ h.balanced (by cases who <;> trivial),
          w.ring.step_accounted (.submit request status io) h.accounted trivial, ?_⟩
        rw [offered_some hoffered]
        refine (submit_tokens h.accounted hadd).trans ?_
        exact (h.tokens.cons io).trans (List.perm_append_singleton io _).symm
      · rw [if_neg hqueued]
        exact h.aside _ (by cases who <;> trivial) (who.refused hqueued w.world)

private theorem RingKept.step (h : RingKept w) (op : RingOp) (hg : DetachGuard w op) :
    RingKept (ringStep w op) := by
  cases op with
  | allocate i =>
      exact h.aside (.allocate i) trivial
        ((allocateRenderIoPool_does i w.world).txQueue_eq (by decide))
  | free => exact h.aside .free trivial ((freeRenderIoPool_does w.world).txQueue_eq (by decide))
  | reclaim access => exact h.reclaim access
  | detach access => exact h.detach access hg
  | submit who access request status => exact h.submit who access request status
  | chooseTarget =>
      exact h.aside .chooseTarget trivial
        ((chooseTarget_does w.world).txQueue_eq (by decide))
  | elsewhere w' => exact h.aside (.elsewhere w') trivial rfl
  | forcedReset =>
      have hempty : queueIds w.world = [] := by
        have htokens := h.tokens
        rw [show w.ring.ring.tokens = [] from hg] at htokens
        exact htokens.nil_eq.symm
      exact h.aside .forcedReset (List.map_eq_nil_iff.mp hempty) rfl
  | take =>
      refine ⟨h.balanced, w.ring.step_accounted .take h.accounted hg, ?_⟩
      exact (take_tokens w.ring).symm ▸ h.tokens
  | giveBack k len =>
      refine ⟨h.balanced, w.ring.step_accounted (.giveBack k len) h.accounted trivial, ?_⟩
      exact (giveBack_tokens w.ring k len).symm ▸ h.tokens

private theorem RingKept.conserved (h : RingKept w) : RingConserved w := by
  have hconserved : Conserved w.world := by
    rcases h.balanced with hcounted | hcounted
    · exact hcounted.conserved (Or.inl rfl)
    · exact hcounted.conserved (Or.inr rfl)
  refine ⟨fun i hi => ?_, hconserved.distinct, hconserved.vacant, ?_, hconserved.total,
    hconserved.bounded, hconserved.freedOnce, fun id hid => ?_, hconserved.freedOffQueue⟩
  · obtain ⟨io, hio, hoff⟩ := hconserved.filled i hi
    exact ⟨io, hio, fun hmem => hoff (h.tokens.mem_iff.mp hmem)⟩
  · rw [hconserved.outstanding, h.tokens.length_eq]
    exact (List.length_map _).symm
  · exact fun hmem => hconserved.freedOff id hid (h.tokens.mem_iff.mp hmem)

end

private theorem RingWorld.fresh_kept (buffer : Option Memory)
    (bufferSize notificationCount packetSize : ULONG) (num : Nat) (hnum : num ∣ 2 ^ 15) :
    RingKept (RingWorld.fresh buffer bufferSize notificationCount packetSize num) := by
  refine ⟨Or.inl (World.fresh_counted _ _ _ _), LiveQueue.new_accounted num hnum, ?_⟩
  have htokens : (LiveQueue.new Nat num).ring.tokens = [] := by
    unfold SplitRing.tokens
    exact List.filterMap_eq_nil_iff.mpr fun _ _ => rfl
  exact List.Perm.of_eq htokens

/-- The buffers are conserved in every run that detaches no chain the device has taken and whose
forced resets find the ring empty. -/
theorem run_ringConserved (buffer : Option Memory)
    (bufferSize notificationCount packetSize : ULONG) (num : Nat) (hnum : num ∣ 2 ^ 15)
    (ops : List RingOp)
    (hops : Guarded ringStep DetachGuard
      (RingWorld.fresh buffer bufferSize notificationCount packetSize num) ops) :
    RingConserved (run ringStep
      (RingWorld.fresh buffer bufferSize notificationCount packetSize num) ops) := by
  have hfresh := RingWorld.fresh_kept buffer bufferSize notificationCount packetSize num hnum
  exact (hops.invariant (P := RingKept) (fun _ op h hg => h.step op hg) hfresh).conserved

/-- Allocation, preroll, a full ring, a completion, a detach of what the device has not taken and a
reset that finds the ring empty. -/
theorem run_ringConserved_cycle :
    let submit : RingOp := .submit .preroll .granted ⟨0x1000, 2052⟩ ⟨0x2000, 8⟩
    RingConserved (run ringStep (RingWorld.fresh (some fun _ => 0) 4096 2 2048 4)
      [.allocate ⟨true, List.replicate 12 true⟩, submit, submit, .take, .giveBack 0 8,
        .reclaim .granted, .submit .preroll .mutexTimeout ⟨0x1000, 2052⟩ ⟨0x2000, 8⟩, submit,
        .detach .granted, .detach .granted, .forcedReset, .free]) := by
  intro submit
  apply run_ringConserved
  · decide
  · decide +kernel

/-- A buffer the device holds is detached and returned nevertheless. Its descriptors are freed
twice, the free list runs in a circle, and the fifth submission takes the descriptors of the
first: five buffers are counted, four are on the ring. -/
theorem run_not_ringConserved :
    let submit : RingOp := .submit .worker .granted ⟨0x1000, 2052⟩ ⟨0x2000, 8⟩
    let ready : World := { World.fresh (some fun _ => 0) 16384 8 2048 with
      state := .run, lastOsWritePacket := 9 }
    let w := run ringStep (RingWorld.fresh (some fun _ => 0) 16384 8 2048 8)
      [.allocate ⟨true, List.replicate 12 true⟩, .elsewhere ready, .chooseTarget, submit, .take,
        .reclaim .granted, .detach .granted, .giveBack 0 8, .reclaim .granted, submit, submit,
        submit, submit, submit]
    w.world.outstandingWrites = 5 ∧ w.ring.ring.tokens.length = 4 ∧ ¬ RingConserved w := by
  intro submit ready w
  have hcount : w.world.outstandingWrites = 5 := by decide +kernel
  have htokens : w.ring.ring.tokens.length = 4 := by decide +kernel
  refine ⟨hcount, htokens, fun h => ?_⟩
  have houtstanding := h.outstanding
  rw [hcount, htokens] at houtstanding
  exact absurd houtstanding (by decide)

end Viosnd.Render
