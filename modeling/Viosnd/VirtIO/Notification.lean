import Viosnd.Lib.EventIndex
import Viosnd.Lib.Runs
import Viosnd.VirtIO.Layout

/-!
# Notifications of the split virtqueue

With event suppression each side names the index it waits for, `vring_avail_event` for the device
and `vring_used_event` for the driver, and the other side notifies when its own index passes it.
The driver counts what it adds and asks `virtqueue_kick_prepare` whether the device must be told.
-/

namespace Viosnd.VirtIO

open EventIndex StepRun

variable {β : Type}

/-- `vring_need_event`. -/
def vringNeedEvent (eventIdx newIdx old : U16) : Bool :=
  decide (newIdx - eventIdx - 1 < newIdx - old)

theorem vringNeedEvent_eq (eventIdx newIdx old : U16) :
    vringNeedEvent eventIdx newIdx old = crosses eventIdx newIdx old := rfl

structure KickNotice where
  /-- `vring_avail_event`. -/
  availEvent : U16
  /-- `vring.used->flags & VIRTQ_USED_F_NO_NOTIFY`. -/
  noNotify : Bool

/-- `virtqueue_kick_prepare_split`. -/
def virtqueueKickPrepareSplit (notice : KickNotice) (q : SplitRing β) : Bool × SplitRing β :=
  let wrapAround := decide (2 ^ 16 ≤ q.numAddedSinceKick.toNat)
  let old := (q.masterIdx.setWidth 32 - q.numAddedSinceKick).setWidth 16
  let new := q.masterIdx
  (if q.eventSuppression then wrapAround || vringNeedEvent notice.availEvent new old
    else !notice.noNotify,
   { q with numAddedSinceKick := 0 })

/-- `virtqueue_kick_always_split`; the notification itself leaves the ring alone. -/
def virtqueueKickAlwaysSplit (q : SplitRing β) : SplitRing β := { q with numAddedSinceKick := 0 }

/-- `virtqueue_enable_cb_delayed_split`. The operands of the last comparison are promoted to
`int`. -/
def virtqueueEnableCbDelayedSplit (q : SplitRing β) : Bool × SplitRing β :=
  let bufs : U16 := BitVec.ofNat 16 ((q.masterIdx - q.lastUsed).toNat * 3 / 4)
  (decide ((q.usedIdx.toNat : ℤ) - q.lastUsed.toNat ≤ bufs.toNat),
   { q with
    noInterrupt := false
    usedEvent := q.lastUsed + bufs })

/-! ## What the operations do to the indices -/

/-- `q'` has published `n` more buffers than `q`. -/
structure Published (n : ℕ) (q q' : SplitRing β) : Prop where
  availIdx : q'.availIdx = if n = 0 then q.availIdx else q.masterIdx + BitVec.ofNat 16 n
  masterIdx : q'.masterIdx = q.masterIdx + BitVec.ofNat 16 n
  numAdded : q'.numAddedSinceKick = q.numAddedSinceKick + BitVec.ofNat 32 n
  eventSuppression : q'.eventSuppression = q.eventSuppression

private theorem published_zero {q q' : SplitRing β} (havail : q'.availIdx = q.availIdx)
    (hmaster : q'.masterIdx = q.masterIdx) (hnum : q'.numAddedSinceKick = q.numAddedSinceKick)
    (hevent : q'.eventSuppression = q.eventSuppression) : Published 0 q q' := by
  constructor
  · rw [if_pos rfl, havail]
  · rw [hmaster, BitVec.add_zero]
  · rw [hnum, BitVec.add_zero]
  · exact hevent

private theorem virtqueueAddBufSplit_published {sg : Scatter} {rest : List Scatter} {out : ℕ}
    {io : β} {page : Option IndirectPage} {q q' : SplitRing β}
    (h : virtqueueAddBufSplit sg rest out io page q = some q') : Published 1 q q' := by
  have hdirect : virtqueueAddBufSplit.addDirect sg rest out io q = some q' → Published 1 q q' := by
    intro h
    unfold virtqueueAddBufSplit.addDirect at h
    split_ifs at h with hroom
    obtain rfl := Option.some.inj h
    have hframe := fillDescs_frame out 1 rest (fillDesc sg (decide (out = 0)) q).1
      { (fillDesc sg (decide (out = 0)) q).2 with
        data := Function.update (fillDesc sg (decide (out = 0)) q).2.data
          (fillDesc sg (decide (out = 0)) q).1 (some io) }
    dsimp only
    rw [hframe]
    exact ⟨rfl, rfl, rfl, rfl⟩
  unfold virtqueueAddBufSplit at h
  split at h
  · split_ifs at h with hone
    · obtain rfl := Option.some.inj h
      exact ⟨rfl, rfl, rfl, rfl⟩
    · exact hdirect h
  · exact hdirect h

private theorem virtqueueGetBufSplit_published {q : SplitRing β}
    {r : Option (Option β × BitVec 32) × SplitRing β} (h : virtqueueGetBufSplit q = some r) :
    Published 0 q r.2 := by
  unfold virtqueueGetBufSplit at h
  split_ifs at h with hnone
  · obtain rfl := Option.some.inj h
    exact published_zero rfl rfl rfl rfl
  · obtain ⟨freed, hfreed, rfl⟩ := Option.map_eq_some_iff.mp h
    obtain ⟨walked, -, rfl⟩ := Option.map_eq_some_iff.mp hfreed
    dsimp only
    split_ifs <;> exact published_zero rfl rfl rfl rfl

/-! ## Runs -/

/-- A ring in use, what the device last wrote, and the indices published since the last kick. -/
structure KickState (β : Type) where
  ring : SplitRing β
  notice : KickNotice
  published : List U16

def KickState.new (β : Type) (num : ℕ) (notice : KickNotice) : KickState β where
  ring := vringNewVirtqueueSplit β num true
  notice := notice
  published := []

/-- A call of the driver, or a write of the device. -/
inductive KickInput (β : Type) where
  | add (sg : Scatter) (rest : List Scatter) (out : ℕ) (io : β) (page : Option IndirectPage)
  | get
  | kickPrepare
  | kickAlways
  | enableCbDelayed
  | complete (elem : UsedElem)
  | notify (notice : KickNotice)

/-- A call of `virtqueue_get_buf` that does not return changes nothing more. -/
def kickStep (s : KickState β) : KickInput β → KickState β
  | .add sg rest out io page =>
      match virtqueueAddBufSplit sg rest out io page s.ring with
      | none => s
      | some ring => { s with
          ring := ring
          published := s.published ++ [s.ring.availIdx] }
  | .get =>
      match virtqueueGetBufSplit s.ring with
      | none => s
      | some got => { s with ring := got.2 }
  | .kickPrepare => { s with
      ring := (virtqueueKickPrepareSplit s.notice s.ring).2
      published := [] }
  | .kickAlways => { s with
      ring := virtqueueKickAlwaysSplit s.ring
      published := [] }
  | .enableCbDelayed => { s with ring := (virtqueueEnableCbDelayedSplit s.ring).2 }
  | .complete elem => { s with
      ring := { s.ring with
        usedRing := Function.update s.ring.usedRing (descIndex s.ring.num s.ring.usedIdx) elem
        usedIdx := s.ring.usedIdx + 1 } }
  | .notify notice => { s with notice := notice }

/-- Fewer than 2³² buffers are added between two kicks. -/
def fewAdded (s : KickState β) (i : KickInput β) : Prop :=
  (kickStep s i).published.length < 2 ^ 32

instance (s : KickState β) (i : KickInput β) : Decidable (fewAdded s i) :=
  inferInstanceAs (Decidable (_ < _))

/-- The indices published since the last kick end where the driver stands, and are counted. -/
structure KickState.Counted (s : KickState β) : Prop where
  shared : s.ring.availIdx = s.ring.masterIdx
  published : ∃ old, s.published = batch old s.published.length ∧
    s.ring.masterIdx = old + BitVec.ofNat 16 s.published.length
  numAdded : s.ring.numAddedSinceKick = BitVec.ofNat 32 s.published.length
  few : s.published.length < 2 ^ 32
  eventSuppression : s.ring.eventSuppression = true

private theorem KickState.new_counted (num : ℕ) (notice : KickNotice) :
    (KickState.new β num notice).Counted :=
  ⟨rfl, ⟨0, rfl, rfl⟩, rfl, by simp [KickState.new], rfl⟩

theorem KickState.Counted.same {s : KickState β} (h : s.Counted) {ring : SplitRing β}
    (hring : Published 0 s.ring ring) : KickState.Counted { s with ring := ring } := by
  have hmaster : ring.masterIdx = s.ring.masterIdx := by simpa using hring.masterIdx
  have havail : ring.availIdx = s.ring.availIdx := by simpa using hring.availIdx
  have hnum : ring.numAddedSinceKick = s.ring.numAddedSinceKick := by simpa using hring.numAdded
  exact ⟨havail.trans (h.shared.trans hmaster.symm), hmaster.symm ▸ h.published,
    hnum.trans h.numAdded, h.few, hring.eventSuppression.trans h.eventSuppression⟩

theorem KickState.Counted.kick {s : KickState β} (h : s.Counted) :
    KickState.Counted { s with
      ring := { s.ring with numAddedSinceKick := 0 }
      published := [] } :=
  ⟨h.shared, ⟨s.ring.masterIdx, rfl, (BitVec.add_zero _).symm⟩, rfl, Nat.two_pow_pos 32,
    h.eventSuppression⟩

theorem KickState.Counted.add {s : KickState β} (h : s.Counted) {ring : SplitRing β}
    (hring : Published 1 s.ring ring)
    (hfew : (s.published ++ [s.ring.availIdx]).length < 2 ^ 32) :
    KickState.Counted { s with
      ring := ring
      published := s.published ++ [s.ring.availIdx] } := by
  obtain ⟨old, hbatch, hmaster⟩ := h.published
  have hlength : (s.published ++ [s.ring.availIdx]).length = s.published.length + 1 := by simp
  refine ⟨?_, ⟨old, ?_, ?_⟩, ?_, hfew, hring.eventSuppression.trans h.eventSuppression⟩
  · have havail := hring.availIdx
    rw [if_neg Nat.one_ne_zero] at havail
    exact havail.trans hring.masterIdx.symm
  · show s.published ++ [s.ring.availIdx] = _
    rw [hlength, batch_succ, ← hbatch, h.shared, hmaster]
  · show ring.masterIdx = _
    rw [hlength, hring.masterIdx, hmaster, BitVec.ofNat_add, BitVec.add_assoc]
  · show ring.numAddedSinceKick = _
    rw [hlength, hring.numAdded, h.numAdded, BitVec.ofNat_add]

private theorem kickStep_counted (s : KickState β) (i : KickInput β) (h : s.Counted)
    (hfew : fewAdded s i) : (kickStep s i).Counted := by
  cases i with
  | add sg rest out io page =>
      dsimp only [fewAdded, kickStep] at hfew ⊢
      cases hadd : virtqueueAddBufSplit sg rest out io page s.ring with
      | none => exact h
      | some ring =>
          rw [hadd] at hfew
          exact h.add (virtqueueAddBufSplit_published hadd) hfew
  | get =>
      unfold kickStep
      cases hget : virtqueueGetBufSplit s.ring with
      | none => exact h
      | some got => exact h.same (virtqueueGetBufSplit_published hget)
  | kickPrepare => exact h.kick
  | kickAlways => exact h.kick
  | enableCbDelayed => exact h.same (published_zero rfl rfl rfl rfl)
  | complete elem => exact h.same (published_zero rfl rfl rfl rfl)
  | notify notice =>
      exact ⟨h.shared, h.published, h.numAdded, h.few, h.eventSuppression⟩

/-- The 16-bit end of the batch is computed from a 32-bit count. -/
private theorem kickPrepare_old (new old : U16) (n : ℕ) (hnew : new = old + BitVec.ofNat 16 n) :
    (new.setWidth 32 - BitVec.ofNat 32 n).setWidth 16 = old := by
  subst hnew
  apply BitVec.eq_of_toNat_eq
  have hold := old.isLt
  simp only [BitVec.toNat_setWidth, BitVec.toNat_sub, BitVec.toNat_add, BitVec.toNat_ofNat]
  omega

private theorem KickState.Counted.kickPrepare_iff {s : KickState β} (h : s.Counted) :
    (virtqueueKickPrepareSplit s.notice s.ring).1 = true ↔
      s.notice.availEvent ∈ s.published ∨ 2 ^ 16 ≤ s.published.length := by
  obtain ⟨old, hbatch, hmaster⟩ := h.published
  have hcount : s.ring.numAddedSinceKick.toNat = s.published.length := by
    rw [h.numAdded, BitVec.toNat_ofNat, Nat.mod_eq_of_lt h.few]
  have hold : (s.ring.masterIdx.setWidth 32 - s.ring.numAddedSinceKick).setWidth 16 = old := by
    rw [h.numAdded]
    exact kickPrepare_old _ _ _ hmaster
  unfold virtqueueKickPrepareSplit
  dsimp only
  rw [if_pos h.eventSuppression, hold, hcount, Bool.or_eq_true, decide_eq_true_iff,
    vringNeedEvent_eq]
  rcases Nat.lt_or_ge s.published.length (2 ^ 16) with hshort | hlong
  · rw [hmaster, crosses_batch_iff _ _ hshort, ← hbatch, or_comm]
  · simp only [hlong, true_or, or_true]

/-- In every state of a run `virtqueue_kick_prepare` asks for a notification exactly when the
device waits for an index published since the last kick, or the indices were gone all round. -/
theorem virtqueueKickPrepareSplit_iff_published (num : ℕ) (notice : KickNotice)
    (inputs : List (KickInput β))
    (hfew : Guarded kickStep fewAdded (KickState.new β num notice) inputs) :
    let s := run kickStep (KickState.new β num notice) inputs
    (virtqueueKickPrepareSplit s.notice s.ring).1 = true ↔
      s.notice.availEvent ∈ s.published ∨ 2 ^ 16 ≤ s.published.length :=
  (hfew.invariant kickStep_counted (KickState.new_counted num notice)).kickPrepare_iff

theorem virtqueueKickPrepareSplit_iff_published_added :
    let s := run kickStep (KickState.new Unit 4 ⟨0, false⟩) [.add ⟨0, 1⟩ [] 1 () none]
    (virtqueueKickPrepareSplit s.notice s.ring).1 = true ↔
      s.notice.availEvent ∈ s.published ∨ 2 ^ 16 ≤ s.published.length :=
  virtqueueKickPrepareSplit_iff_published 4 ⟨0, false⟩ [.add ⟨0, 1⟩ [] 1 () none]
    ⟨by decide, trivial⟩

/-! ## The delayed callback -/

/-- Three quarters of the buffers not got yet. -/
def SplitRing.delay (q : SplitRing β) : ℕ := 3 * (q.masterIdx - q.lastUsed).toNat / 4

/-- The completions behind `last_used`. -/
def SplitRing.completed (q : SplitRing β) : ℕ := (q.usedIdx - q.lastUsed).toNat

/-- Every move of the device's index over the completion behind the `bufs`-th passes the event. -/
def StillCrosses (q : SplitRing β) (bufs : ℕ) (event : U16) : Prop :=
  ∀ m, q.completed ≤ m → bufs < m → m < q.completed + 2 ^ 16 →
    vringNeedEvent event (q.lastUsed + BitVec.ofNat 16 m) q.usedIdx = true

/-- What `virtqueue_enable_cb_delayed` is for, with the threshold it takes. -/
structure DelaysCallback (q : SplitRing β) (r : Bool × SplitRing β) : Prop where
  answer : r.1 = false ↔ q.delay < q.completed
  event : r.2.usedEvent = q.lastUsed + BitVec.ofNat 16 q.delay
  crosses : r.1 = true → StillCrosses q q.delay r.2.usedEvent

private theorem SplitRing.delay_lt (q : SplitRing β) : q.delay < 2 ^ 16 := by
  have hopen := (q.masterIdx - q.lastUsed).isLt
  unfold SplitRing.delay
  omega

private theorem stillCrosses (q : SplitRing β) (hnear : q.completed ≤ q.delay) :
    StillCrosses q q.delay (q.lastUsed + BitVec.ofNat 16 q.delay) := by
  intro m hm hpast hlap
  have hused : q.usedIdx = q.lastUsed + BitVec.ofNat 16 q.completed := by
    unfold SplitRing.completed
    rw [BitVec.ofNat_toNat, BitVec.setWidth_eq, add_sub_cancel]
  have hdelay := q.delay_lt
  have hfar : q.lastUsed + BitVec.ofNat 16 m =
      q.usedIdx + BitVec.ofNat 16 (m - q.completed) := by
    rw [hused, add_assoc, ← BitVec.ofNat_add, Nat.add_sub_cancel' hm]
  have hevent : q.lastUsed + BitVec.ofNat 16 q.delay - q.usedIdx =
      BitVec.ofNat 16 (q.delay - q.completed) := by
    rw [hused, add_sub_add_left_eq_sub, sub_eq_iff_eq_add, ← BitVec.ofNat_add,
      Nat.sub_add_cancel hnear]
  rw [vringNeedEvent_eq, hfar, crosses_batch_iff _ _ (by omega), mem_batch, hevent,
    BitVec.toNat_ofNat, Nat.mod_eq_of_lt (by omega)]
  omega

/-- A used index behind `last_used` as a number makes the difference negative. -/
private theorem enableCbDelayed_answer (q : SplitRing β) :
    (virtqueueEnableCbDelayedSplit q).1 = true ↔
      q.usedIdx.toNat < q.lastUsed.toNat ∨ q.completed ≤ q.delay := by
  have hdelay := q.delay_lt
  have hbufs : (BitVec.ofNat 16 ((q.masterIdx - q.lastUsed).toNat * 3 / 4)).toNat = q.delay := by
    rw [Nat.mul_comm, BitVec.toNat_ofNat]
    exact Nat.mod_eq_of_lt hdelay
  have hcompleted : q.completed =
      (2 ^ 16 - q.lastUsed.toNat + q.usedIdx.toNat) % 2 ^ 16 := BitVec.toNat_sub _ _
  have hused := q.usedIdx.isLt
  have hlast := q.lastUsed.isLt
  unfold virtqueueEnableCbDelayedSplit
  dsimp only
  rw [decide_eq_true_iff, hbufs]
  omega

private theorem enableCbDelayed_event (q : SplitRing β) :
    (virtqueueEnableCbDelayedSplit q).2.usedEvent = q.lastUsed + BitVec.ofNat 16 q.delay := by
  unfold virtqueueEnableCbDelayedSplit SplitRing.delay
  rw [Nat.mul_comm]

/-- The comparison is right unless the used index wrapped, and then while not too many buffers are
completed. -/
theorem virtqueueEnableCbDelayedSplit_correct_iff (q : SplitRing β) :
    DelaysCallback q (virtqueueEnableCbDelayedSplit q) ↔
      q.lastUsed.toNat ≤ q.usedIdx.toNat ∨ q.completed ≤ q.delay := by
  have hanswer := enableCbDelayed_answer q
  constructor
  · intro h
    by_contra hnot
    rw [not_or, Nat.not_le, Nat.not_le] at hnot
    have hfalse := h.answer.mpr hnot.2
    rw [hanswer.mpr (Or.inl hnot.1)] at hfalse
    exact Bool.noConfusion hfalse
  · intro h
    refine ⟨?_, enableCbDelayed_event q, fun htrue => ?_⟩
    · rw [← Bool.not_eq_true, hanswer]
      omega
    · rw [enableCbDelayed_event]
      exact stillCrosses q (by have hor := hanswer.mp htrue; omega)

/-- Eleven buffers are not got yet and ten are completed, past the wrap of the used index. -/
def wrappedRing : SplitRing Unit :=
  { vringNewVirtqueueSplit Unit 16 true with
    masterIdx := 5
    availIdx := 5
    lastUsed := 65530
    usedIdx := 4 }

theorem wrappedRing_not_delaysCallback :
    ¬ DelaysCallback wrappedRing (virtqueueEnableCbDelayedSplit wrappedRing) := by
  intro h
  have hfalse := h.answer.mpr (by decide)
  exact absurd hfalse (by decide)

end Viosnd.VirtIO
