import Viosnd.VirtIO.Notification
import Viosnd.VirtIO.PackedNotification

/-!
# Enabling and disabling callbacks

Whether the driver wants interrupts is a flag of the split ring and one of three event modes of the
packed ring. The calls that switch it and the call that reads it back are the same for both, through
the function pointers of `struct virtqueue`. Abstractly it is one bit, the last thing asked for.
-/

namespace Viosnd.VirtIO

open StepRun

variable {β : Type}

/-! ## The split ring -/

structure SplitVirtqueue (β : Type) where
  ring : SplitRing β
  /-- `vring.avail->flags & VIRTQ_AVAIL_F_NO_INTERRUPT`. -/
  availNoInterrupt : Bool

def virtqueueIsInterruptEnabledSplit (vq : SplitVirtqueue β) : Bool := !vq.ring.noInterrupt

/-- `master_vring_avail.flags` and, unless events are suppressed, the copy the device reads. -/
def SplitVirtqueue.setNoInterrupt (noInterrupt : Bool) (vq : SplitVirtqueue β) :
    SplitVirtqueue β where
  ring := { vq.ring with noInterrupt := noInterrupt }
  availNoInterrupt := if vq.ring.eventSuppression then vq.availNoInterrupt else noInterrupt

/-- The first statement of both ways to enable. -/
def SplitVirtqueue.clearNoInterrupt (vq : SplitVirtqueue β) : SplitVirtqueue β :=
  if virtqueueIsInterruptEnabledSplit vq then vq else vq.setNoInterrupt false

/-- `virtqueue_enable_cb_split`. -/
def virtqueueEnableCbSplit (vq : SplitVirtqueue β) : Bool × SplitVirtqueue β :=
  let enabled := vq.clearNoInterrupt
  (decide (enabled.ring.lastUsed = enabled.ring.usedIdx),
    { enabled with ring := { enabled.ring with usedEvent := enabled.ring.lastUsed } })

/-- `virtqueue_enable_cb_delayed_split` with the flags it shows. -/
def enableCbDelayedSplit (vq : SplitVirtqueue β) : Bool × SplitVirtqueue β :=
  let enabled := vq.clearNoInterrupt
  let delayed := virtqueueEnableCbDelayedSplit enabled.ring
  (delayed.1, { enabled with ring := delayed.2 })

/-- `virtqueue_disable_cb_split`. -/
def virtqueueDisableCbSplit (vq : SplitVirtqueue β) : SplitVirtqueue β :=
  if virtqueueIsInterruptEnabledSplit vq then vq.setNoInterrupt true else vq

/-! ## The packed ring -/

/-- `VRING_PACKED_EVENT_FLAG_ENABLE`. -/
def packedEventFlagEnable : U16 := 0

structure PackedVirtqueue (β : Type) where
  ring : PackedRing β
  /-- `vdev->event_suppression_enabled`. -/
  eventSuppression : Bool
  /-- `vring.driver->flags`. -/
  driverFlags : U16

/-- `virtqueue_is_interrupt_enabled_packed`. -/
def virtqueueIsInterruptEnabledPacked (vq : PackedVirtqueue β) : Bool :=
  vq.ring.eventFlagsShadow &&& packedEventFlagDisable != 0

/-- `event_flags_shadow` and the copy the device reads. -/
def PackedVirtqueue.setEventFlags (flags : U16) (vq : PackedVirtqueue β) : PackedVirtqueue β :=
  { vq with
    ring := { vq.ring with eventFlagsShadow := flags }
    driverFlags := flags }

/-- The mode that both ways to enable leave the mode `DISABLE` for. -/
def PackedVirtqueue.clearDisable (vq : PackedVirtqueue β) : PackedVirtqueue β :=
  if vq.ring.eventFlagsShadow = packedEventFlagDisable then
    vq.setEventFlags (if vq.eventSuppression then packedEventFlagDesc else packedEventFlagEnable)
  else vq

/-- An index and a wrap counter as one word. -/
def packOffWrap (idx wrapCounter : U16) : U16 := idx ||| wrapCounter <<< 15

def PackedVirtqueue.lastUsedWord (vq : PackedVirtqueue β) : U16 :=
  packOffWrap (BitVec.ofNat 16 vq.ring.lastUsedIdx)
    ((BitVec.ofBool vq.ring.usedWrapCounter).setWidth 16)

/-- With event suppression the device is told, before the mode changes, what the driver waits
for. -/
def PackedVirtqueue.await (word : U16) (vq : PackedVirtqueue β) : PackedVirtqueue β :=
  if vq.eventSuppression then
    PackedVirtqueue.clearDisable { vq with ring := { vq.ring with offWrap := word } }
  else vq.clearDisable

/-- `virtqueue_enable_cb_prepare_packed`. -/
def virtqueueEnableCbPreparePacked (vq : PackedVirtqueue β) : U16 × PackedVirtqueue β :=
  (vq.lastUsedWord, vq.await vq.lastUsedWord)

/-- `virtqueue_poll_packed`. -/
def virtqueuePollPacked (offWrap : U16) (vq : PackedVirtqueue β) : Bool :=
  isUsedDescPacked vq.ring (offWrap &&& ~~~((1 : U16) <<< 15)).toNat (offWrap >>> 15 != 0)

/-- `virtqueue_enable_cb_packed`. -/
def virtqueueEnableCbPacked (vq : PackedVirtqueue β) : Bool × PackedVirtqueue β :=
  let prepared := virtqueueEnableCbPreparePacked vq
  (!virtqueuePollPacked prepared.1 prepared.2, prepared.2)

/-- The word that asks for an interrupt after about 3/4 of the descriptors in use. -/
def PackedVirtqueue.delayedWord (vq : PackedVirtqueue β) : U16 :=
  let num := BitVec.ofNat 32 vq.ring.num
  let bufs := ((num - BitVec.ofNat 32 vq.ring.numFree) * 3 / 4).setWidth 16
  let wrapCounter := (BitVec.ofBool vq.ring.usedWrapCounter).setWidth 16
  let usedIdx := BitVec.ofNat 16 vq.ring.lastUsedIdx + bufs
  if vq.ring.num ≤ usedIdx.toNat then
    packOffWrap (usedIdx - BitVec.ofNat 16 vq.ring.num) (wrapCounter ^^^ 1)
  else packOffWrap usedIdx wrapCounter

/-- `virtqueue_enable_cb_delayed_packed`. -/
def virtqueueEnableCbDelayedPacked (vq : PackedVirtqueue β) : Bool × PackedVirtqueue β :=
  let enabled := vq.await vq.delayedWord
  (!isUsedDescPacked enabled.ring enabled.ring.lastUsedIdx enabled.ring.usedWrapCounter, enabled)

/-- `virtqueue_disable_cb_packed`. -/
def virtqueueDisableCbPacked (vq : PackedVirtqueue β) : PackedVirtqueue β :=
  if vq.ring.eventFlagsShadow ≠ packedEventFlagDisable then
    vq.setEventFlags packedEventFlagDisable
  else vq

/-! ## The shared interface -/

inductive RingFormat where
  | split
  | packed
  deriving DecidableEq

/-- `struct virtqueue`, whose function pointers choose the format. -/
inductive Virtqueue (β : Type) where
  | split (vq : SplitVirtqueue β)
  | packed (vq : PackedVirtqueue β)

def Virtqueue.new (β : Type) (num : ℕ) (eventSuppression : Bool) : RingFormat → Virtqueue β
  | .split => .split ⟨vringNewVirtqueueSplit β num eventSuppression, false⟩
  | .packed => .packed ⟨vringNewVirtqueuePacked β num, eventSuppression, 0⟩

def virtqueueIsInterruptEnabled : Virtqueue β → Bool
  | .split vq => virtqueueIsInterruptEnabledSplit vq
  | .packed vq => virtqueueIsInterruptEnabledPacked vq

/-- A call of the driver, or a write of the device to the memory they share: the used ring of a
split queue, the descriptors of a packed one. -/
inductive CallbackInput (β : Type) where
  | enableCb
  | enableCbDelayed
  | disableCb
  | addBuf (sg : Scatter) (rest : List Scatter) (out : ℕ) (io : β) (page : Option IndirectPage)
  | getBuf
  | device (usedRing : ℕ → UsedElem) (usedIdx : U16) (desc : ℕ → PackedDesc)

/-- A call that does not return changes nothing more. -/
def splitCallbackStep (vq : SplitVirtqueue β) : CallbackInput β → SplitVirtqueue β
  | .enableCb => (virtqueueEnableCbSplit vq).2
  | .enableCbDelayed => (enableCbDelayedSplit vq).2
  | .disableCb => virtqueueDisableCbSplit vq
  | .addBuf sg rest out io page =>
      { vq with ring := (virtqueueAddBufSplit sg rest out io page vq.ring).getD vq.ring }
  | .getBuf => { vq with ring := ((virtqueueGetBufSplit vq.ring).map Prod.snd).getD vq.ring }
  | .device usedRing usedIdx _ =>
      { vq with ring := { vq.ring with usedRing := usedRing, usedIdx := usedIdx } }

/-- A call that does not return changes nothing more. -/
def packedCallbackStep (vq : PackedVirtqueue β) : CallbackInput β → PackedVirtqueue β
  | .enableCb => (virtqueueEnableCbPacked vq).2
  | .enableCbDelayed => (virtqueueEnableCbDelayedPacked vq).2
  | .disableCb => virtqueueDisableCbPacked vq
  | .addBuf sg rest out io page =>
      { vq with ring := ((virtqueueAddBufPacked sg rest out io page vq.ring).join).getD vq.ring }
  | .getBuf => { vq with ring := ((virtqueueGetBufPacked vq.ring).map Prod.snd).getD vq.ring }
  | .device _ _ desc => { vq with ring := { vq.ring with desc := desc } }

def callbackStep : Virtqueue β → CallbackInput β → Virtqueue β
  | .split vq, i => .split (splitCallbackStep vq i)
  | .packed vq, i => .packed (packedCallbackStep vq i)

/-! ## The one bit both formats keep -/

/-- What the driver asked for last. -/
def switchStep (enabled : Bool) : CallbackInput β → Bool
  | .enableCb => true
  | .enableCbDelayed => true
  | .disableCb => false
  | .addBuf .. => enabled
  | .getBuf => enabled
  | .device .. => enabled

def lastSwitch (inputs : List (CallbackInput β)) : Bool := run switchStep true inputs

/-- How a split queue keeps the bit, and what the device sees of it. -/
structure SplitVirtqueue.Keeps (vq : SplitVirtqueue β) (enabled : Bool) : Prop where
  noInterrupt : vq.ring.noInterrupt = !enabled
  shown : vq.availNoInterrupt = (!vq.ring.eventSuppression && !enabled)

/-- How a packed queue keeps the bit, and what the device sees of it. -/
structure PackedVirtqueue.Keeps (vq : PackedVirtqueue β) (enabled : Bool) : Prop where
  shadow : (enabled = true ∧ vq.ring.eventFlagsShadow = packedEventFlagEnable) ∨
    (enabled = true ∧ vq.ring.eventFlagsShadow = packedEventFlagDesc) ∨
    (enabled = false ∧ vq.ring.eventFlagsShadow = packedEventFlagDisable)
  shown : vq.driverFlags = vq.ring.eventFlagsShadow

/-! ## The buffer calls leave it alone -/

structure SameSettings (q q' : SplitRing β) : Prop where
  num : q'.num = q.num
  noInterrupt : q'.noInterrupt = q.noInterrupt
  eventSuppression : q'.eventSuppression = q.eventSuppression

theorem SameSettings.refl (q : SplitRing β) : SameSettings q q := ⟨rfl, rfl, rfl⟩

theorem addBufSplit_settings {sg : Scatter} {rest : List Scatter} {out : ℕ} {io : β}
    {page : Option IndirectPage} {q q' : SplitRing β}
    (h : virtqueueAddBufSplit sg rest out io page q = some q') : SameSettings q q' := by
  have hdirect : virtqueueAddBufSplit.addDirect sg rest out io q = some q' →
      SameSettings q q' := by
    intro h
    unfold virtqueueAddBufSplit.addDirect at h
    split_ifs at h
    have hq := Option.some.inj h
    rw [fillDescs_frame] at hq
    rw [← hq]
    exact ⟨rfl, rfl, rfl⟩
  unfold virtqueueAddBufSplit at h
  split at h
  · split_ifs at h
    · have hq := Option.some.inj h
      rw [← hq]
      exact ⟨rfl, rfl, rfl⟩
    · exact hdirect h
  · exact hdirect h

theorem getBufSplit_settings {q : SplitRing β} {r : Option (Option β × BitVec 32) × SplitRing β}
    (h : virtqueueGetBufSplit q = some r) : SameSettings q r.2 := by
  unfold virtqueueGetBufSplit putUnusedDescChain at h
  split_ifs at h
  · have hr := Option.some.inj h
    rw [← hr]
    exact SameSettings.refl q
  · simp only [Option.map_map, Option.map_eq_some_iff] at h
    obtain ⟨walked, -, hr⟩ := h
    rw [← hr]
    dsimp only [Function.comp]
    split_ifs <;> exact ⟨rfl, rfl, rfl⟩

/-- The size and the event mode of a packed ring. -/
structure SameMode (q q' : PackedRing β) : Prop where
  num : q'.num = q.num
  eventFlagsShadow : q'.eventFlagsShadow = q.eventFlagsShadow

theorem SameMode.refl (q : PackedRing β) : SameMode q q := ⟨rfl, rfl⟩

private theorem addPackedDirect_mode {sgs : List Scatter} {out id : ℕ} {io : β}
    {q q' : PackedRing β} (h : addPackedDirect sgs out io id q = some q') : SameMode q q' := by
  unfold addPackedDirect at h
  dsimp only at h
  by_cases hroom : q.numFree < sgs.length
  · simp [hroom] at h
  · rw [if_neg hroom] at h
    have hq := Option.some.inj h
    have hframe := fillPackedDescs_frame out sgs.length id 0 sgs ⟨q.nextAvailIdx, id, 0⟩ q
    generalize fillPackedDescs out sgs.length id 0 sgs ⟨q.nextAvailIdx, id, 0⟩ q = filled at *
    rw [← hq, hframe]
    exact ⟨rfl, rfl⟩

theorem addBufPacked_mode {sg : Scatter} {rest : List Scatter} {out : ℕ} {io : β}
    {page : Option IndirectPage} {q q' : PackedRing β}
    (h : (virtqueueAddBufPacked sg rest out io page q).join = some q') : SameMode q q' := by
  unfold virtqueueAddBufPacked at h
  cases page with
  | none =>
      dsimp only at h
      split_ifs at h
      · simp at h
      · exact addPackedDirect_mode h
  | some page =>
      dsimp only at h
      split_ifs at h
      · simp at h
      · simp at h
      · have hq := Option.some.inj h
        rw [← hq]
        exact ⟨rfl, rfl⟩
      · exact addPackedDirect_mode h

theorem getBufPacked_mode {q : PackedRing β}
    {r : Option (β × BitVec 32) × PackedRing β} (h : virtqueueGetBufPacked q = some r) :
    SameMode q r.2 := by
  unfold virtqueueGetBufPacked at h
  dsimp only at h
  split_ifs at h
  · have hr := Option.some.inj h
    rw [← hr]
    exact SameMode.refl q
  · split at h
    · simp at h
    · have hr := Option.some.inj h
      rw [← hr]
      unfold expectUsed passUsed
      dsimp only
      split_ifs <;> exact ⟨rfl, rfl⟩

/-! ## Every call keeps it -/

private theorem SplitVirtqueue.Keeps.setNoInterrupt {vq : SplitVirtqueue β} {enabled : Bool}
    (h : vq.Keeps enabled) (asked : Bool) : (vq.setNoInterrupt (!asked)).Keeps asked := by
  constructor
  · rfl
  · simp only [SplitVirtqueue.setNoInterrupt]
    cases hevent : vq.ring.eventSuppression
    · simp
    · simp [h.shown, hevent]

theorem SplitVirtqueue.Keeps.clearNoInterrupt {vq : SplitVirtqueue β} {enabled : Bool}
    (h : vq.Keeps enabled) : vq.clearNoInterrupt.Keeps true := by
  unfold SplitVirtqueue.clearNoInterrupt virtqueueIsInterruptEnabledSplit
  rw [h.noInterrupt]
  cases enabled
  · exact h.setNoInterrupt true
  · exact h

theorem SplitVirtqueue.Keeps.disableCb {vq : SplitVirtqueue β} {enabled : Bool}
    (h : vq.Keeps enabled) : (virtqueueDisableCbSplit vq).Keeps false := by
  unfold virtqueueDisableCbSplit virtqueueIsInterruptEnabledSplit
  rw [h.noInterrupt]
  cases enabled
  · exact h
  · exact h.setNoInterrupt false

theorem SplitVirtqueue.Keeps.ring {vq : SplitVirtqueue β} {enabled : Bool} (h : vq.Keeps enabled)
    {q : SplitRing β} (hnoInterrupt : q.noInterrupt = vq.ring.noInterrupt)
    (hevent : q.eventSuppression = vq.ring.eventSuppression) :
    ({ vq with ring := q } : SplitVirtqueue β).Keeps enabled := by
  constructor
  · exact hnoInterrupt.trans h.noInterrupt
  · simp only [hevent, h.shown]

private theorem splitCallbackStep_keeps (vq : SplitVirtqueue β) (enabled : Bool)
    (i : CallbackInput β) (h : vq.Keeps enabled) :
    (splitCallbackStep vq i).Keeps (switchStep enabled i) := by
  cases i with
  | enableCb => exact h.clearNoInterrupt.ring rfl rfl
  | enableCbDelayed =>
      have hcleared := h.clearNoInterrupt
      apply hcleared.ring
      · simp [virtqueueEnableCbDelayedSplit, hcleared.noInterrupt]
      · rfl
  | disableCb => exact h.disableCb
  | addBuf sg rest out io page =>
      cases hadd : virtqueueAddBufSplit sg rest out io page vq.ring with
      | none => simpa [splitCallbackStep, switchStep, hadd] using h
      | some q =>
          have hsame := addBufSplit_settings hadd
          have hkept := h.ring hsame.noInterrupt hsame.eventSuppression
          simpa [splitCallbackStep, switchStep, hadd] using hkept
  | getBuf =>
      cases hget : virtqueueGetBufSplit vq.ring with
      | none => simpa [splitCallbackStep, switchStep, hget] using h
      | some r =>
          have hsame := getBufSplit_settings hget
          have hkept := h.ring hsame.noInterrupt hsame.eventSuppression
          simpa [splitCallbackStep, switchStep, hget] using hkept
  | device usedRing usedIdx desc => exact h.ring rfl rfl

private theorem PackedVirtqueue.Keeps.clearDisable {vq : PackedVirtqueue β} {enabled : Bool}
    (h : vq.Keeps enabled) : vq.clearDisable.Keeps true := by
  unfold PackedVirtqueue.clearDisable
  split_ifs with hdisabled hevent
  · exact ⟨Or.inr (Or.inl ⟨rfl, rfl⟩), rfl⟩
  · exact ⟨Or.inl ⟨rfl, rfl⟩, rfl⟩
  · refine ⟨?_, h.shown⟩
    rcases h.shadow with ⟨-, hmode⟩ | ⟨-, hmode⟩ | ⟨-, hmode⟩
    · exact Or.inl ⟨rfl, hmode⟩
    · exact Or.inr (Or.inl ⟨rfl, hmode⟩)
    · exact absurd hmode hdisabled

theorem PackedVirtqueue.Keeps.disableCb {vq : PackedVirtqueue β} {enabled : Bool}
    (h : vq.Keeps enabled) : (virtqueueDisableCbPacked vq).Keeps false := by
  unfold virtqueueDisableCbPacked
  split_ifs with hdisabled
  · exact ⟨Or.inr (Or.inr ⟨rfl, rfl⟩), rfl⟩
  · exact ⟨Or.inr (Or.inr ⟨rfl, not_not.mp hdisabled⟩), h.shown⟩

theorem PackedVirtqueue.Keeps.ring {vq : PackedVirtqueue β} {enabled : Bool} (h : vq.Keeps enabled)
    {q : PackedRing β} (hq : q.eventFlagsShadow = vq.ring.eventFlagsShadow) :
    ({ vq with ring := q } : PackedVirtqueue β).Keeps enabled := by
  constructor
  · simp only [hq]
    exact h.shadow
  · simp only [hq]
    exact h.shown

private theorem PackedVirtqueue.Keeps.await {vq : PackedVirtqueue β} {enabled : Bool}
    (h : vq.Keeps enabled) (word : U16) : (vq.await word).Keeps true := by
  unfold PackedVirtqueue.await
  split_ifs
  · apply PackedVirtqueue.Keeps.clearDisable
    exact h.ring rfl
  · exact h.clearDisable

private theorem packedCallbackStep_keeps (vq : PackedVirtqueue β) (enabled : Bool)
    (i : CallbackInput β) (h : vq.Keeps enabled) :
    (packedCallbackStep vq i).Keeps (switchStep enabled i) := by
  cases i with
  | enableCb => exact h.await _
  | enableCbDelayed => exact h.await _
  | disableCb => exact h.disableCb
  | addBuf sg rest out io page =>
      apply h.ring
      cases hadd : (virtqueueAddBufPacked sg rest out io page vq.ring).join with
      | none => rfl
      | some q => exact (addBufPacked_mode hadd).eventFlagsShadow
  | getBuf =>
      apply h.ring
      cases hget : virtqueueGetBufPacked vq.ring with
      | none => rfl
      | some r => exact (getBufPacked_mode hget).eventFlagsShadow
  | device usedRing usedIdx desc => exact h.ring rfl

theorem SplitVirtqueue.Keeps.reported {vq : SplitVirtqueue β} {enabled : Bool}
    (h : vq.Keeps enabled) : virtqueueIsInterruptEnabledSplit vq = enabled := by
  simp [virtqueueIsInterruptEnabledSplit, h.noInterrupt]

theorem PackedVirtqueue.Keeps.reported {vq : PackedVirtqueue β} {enabled : Bool}
    (h : vq.Keeps enabled) : virtqueueIsInterruptEnabledPacked vq = !enabled := by
  unfold virtqueueIsInterruptEnabledPacked
  rcases h.shadow with ⟨henabled, hmode⟩ | ⟨henabled, hmode⟩ | ⟨henabled, hmode⟩ <;>
    rw [henabled, hmode] <;> decide

/-! ## Runs -/

/-- The state of a queue after the calls, starting from a queue just created. -/
def afterCalls (num : ℕ) (eventSuppression : Bool) (inputs : List (CallbackInput β))
    (format : RingFormat) : Virtqueue β :=
  run callbackStep (Virtqueue.new β num eventSuppression format) inputs

private theorem afterCalls_eq (num : ℕ) (eventSuppression : Bool)
    (inputs : List (CallbackInput β)) :
    (∃ vq, afterCalls num eventSuppression inputs .split = .split vq ∧
      vq.Keeps (lastSwitch inputs)) ∧
    ∃ vq, afterCalls num eventSuppression inputs .packed = .packed vq ∧
      vq.Keeps (lastSwitch inputs) := by
  constructor
  · have hnew : SplitVirtqueue.Keeps (β := β)
        ⟨vringNewVirtqueueSplit β num eventSuppression, false⟩ true := ⟨rfl, by simp⟩
    have hform : run callbackStep (Virtqueue.new β num eventSuppression .split) inputs =
        .split (run splitCallbackStep ⟨vringNewVirtqueueSplit β num eventSuppression, false⟩
          inputs) := by
      apply run_related (fun s t => s = Virtqueue.split t) ?_ inputs rfl
      intro s t i hs
      rw [hs]
      rfl
    exact ⟨_, hform, run_related SplitVirtqueue.Keeps splitCallbackStep_keeps inputs hnew⟩
  · have hnew : PackedVirtqueue.Keeps (β := β)
        ⟨vringNewVirtqueuePacked β num, eventSuppression, 0⟩ true := ⟨Or.inl ⟨rfl, rfl⟩, rfl⟩
    have hform : run callbackStep (Virtqueue.new β num eventSuppression .packed) inputs =
        .packed (run packedCallbackStep ⟨vringNewVirtqueuePacked β num, eventSuppression, 0⟩
          inputs) := by
      apply run_related (fun s t => s = Virtqueue.packed t) ?_ inputs rfl
      intro s t i hs
      rw [hs]
      rfl
    exact ⟨_, hform, run_related PackedVirtqueue.Keeps packedCallbackStep_keeps inputs hnew⟩

def switches : List (CallbackInput β) := [.enableCb, .enableCbDelayed, .disableCb]

private theorem clearNoInterrupt_of_enabled {vq : SplitVirtqueue β}
    (h : vq.ring.noInterrupt = false) :
    vq.clearNoInterrupt = vq := by
  simp [SplitVirtqueue.clearNoInterrupt, virtqueueIsInterruptEnabledSplit, h]

private theorem clearNoInterrupt_noInterrupt (vq : SplitVirtqueue β) :
    vq.clearNoInterrupt.ring.noInterrupt = false := by
  unfold SplitVirtqueue.clearNoInterrupt virtqueueIsInterruptEnabledSplit
  cases h : vq.ring.noInterrupt
  · simp [h]
  · simp [SplitVirtqueue.setNoInterrupt]

private theorem usedEvent_eta (q : SplitRing β) {event : U16} (h : q.usedEvent = event) :
    { q with usedEvent := event } = q := by
  rw [← h]

/-- Enabling what is enabled and asks for the next buffer changes nothing. -/
private theorem enableCbSplit_enabled {vq : SplitVirtqueue β} (h : vq.ring.noInterrupt = false)
    (hevent : vq.ring.usedEvent = vq.ring.lastUsed) : (virtqueueEnableCbSplit vq).2 = vq := by
  simp only [virtqueueEnableCbSplit, clearNoInterrupt_of_enabled h]
  rw [usedEvent_eta _ hevent]

private theorem enableCbDelayedSplit_enabled {vq : SplitVirtqueue β}
    (h : vq.ring.noInterrupt = false)
    (hevent : vq.ring.usedEvent = (virtqueueEnableCbDelayedSplit vq.ring).2.usedEvent) :
    (enableCbDelayedSplit vq).2 = vq := by
  simp only [virtqueueEnableCbDelayedSplit] at hevent
  simp only [enableCbDelayedSplit, virtqueueEnableCbDelayedSplit, clearNoInterrupt_of_enabled h,
    ← hevent, ← h]

private theorem disableCbSplit_disabled {vq : SplitVirtqueue β} (h : vq.ring.noInterrupt = true) :
    virtqueueDisableCbSplit vq = vq := by
  simp [virtqueueDisableCbSplit, virtqueueIsInterruptEnabledSplit, h]

private theorem disableCbSplit_noInterrupt (vq : SplitVirtqueue β) :
    (virtqueueDisableCbSplit vq).ring.noInterrupt = true := by
  unfold virtqueueDisableCbSplit virtqueueIsInterruptEnabledSplit
  cases h : vq.ring.noInterrupt
  · simp [SplitVirtqueue.setNoInterrupt]
  · simp [h]

private theorem splitCallbackStep_twice (vq : SplitVirtqueue β) {i : CallbackInput β}
    (hi : i ∈ switches) :
    splitCallbackStep (splitCallbackStep vq i) i = splitCallbackStep vq i := by
  simp only [switches, List.mem_cons, List.not_mem_nil, or_false] at hi
  rcases hi with rfl | rfl | rfl
  · exact enableCbSplit_enabled (clearNoInterrupt_noInterrupt vq) rfl
  · exact enableCbDelayedSplit_enabled rfl rfl
  · exact disableCbSplit_disabled (disableCbSplit_noInterrupt vq)

/-- The mode while the driver waits. -/
def PackedVirtqueue.awaitMode (vq : PackedVirtqueue β) : U16 :=
  if vq.ring.eventFlagsShadow = packedEventFlagDisable then
    if vq.eventSuppression then packedEventFlagDesc else packedEventFlagEnable
  else vq.ring.eventFlagsShadow

private theorem awaitMode_ne (vq : PackedVirtqueue β) : vq.awaitMode ≠ packedEventFlagDisable := by
  unfold PackedVirtqueue.awaitMode
  split_ifs with hdisabled hevent
  · simp [packedEventFlagDesc, packedEventFlagDisable]
  · simp [packedEventFlagEnable, packedEventFlagDisable]
  · exact hdisabled

theorem await_eq (vq : PackedVirtqueue β) (word : U16) :
    vq.await word = { vq with
      ring := { vq.ring with
        offWrap := if vq.eventSuppression then word else vq.ring.offWrap
        eventFlagsShadow := vq.awaitMode }
      driverFlags := if vq.ring.eventFlagsShadow = packedEventFlagDisable then vq.awaitMode
        else vq.driverFlags } := by
  unfold PackedVirtqueue.await PackedVirtqueue.clearDisable PackedVirtqueue.awaitMode
  split_ifs <;> rfl

private theorem await_await (vq : PackedVirtqueue β) (word : U16) :
    (vq.await word).await word = vq.await word := by
  have hmode : (vq.await word).awaitMode = vq.awaitMode := by
    rw [await_eq]
    exact if_neg (awaitMode_ne vq)
  rw [await_eq (vq.await word), hmode, await_eq]
  simp only [awaitMode_ne, if_false]
  split_ifs <;> rfl

private theorem packedCallbackStep_twice (vq : PackedVirtqueue β) {i : CallbackInput β}
    (hi : i ∈ switches) :
    packedCallbackStep (packedCallbackStep vq i) i = packedCallbackStep vq i := by
  simp only [switches, List.mem_cons, List.not_mem_nil, or_false] at hi
  rcases hi with rfl | rfl | rfl
  · have hword : (vq.await vq.lastUsedWord).lastUsedWord = vq.lastUsedWord := by
      rw [await_eq]
      rfl
    simp only [packedCallbackStep, virtqueueEnableCbPacked, virtqueueEnableCbPreparePacked]
    rw [hword, await_await]
  · have hword : (vq.await vq.delayedWord).delayedWord = vq.delayedWord := by
      rw [await_eq]
      rfl
    simp only [packedCallbackStep, virtqueueEnableCbDelayedPacked]
    rw [hword, await_await]
  · simp only [packedCallbackStep, virtqueueDisableCbPacked]
    by_cases h : vq.ring.eventFlagsShadow = packedEventFlagDisable
    · simp [h]
    · simp [h, PackedVirtqueue.setEventFlags]

private theorem callbackStep_twice (vq : Virtqueue β) {i : CallbackInput β} (hi : i ∈ switches) :
    callbackStep (callbackStep vq i) i = callbackStep vq i := by
  cases vq with
  | split vq => exact congrArg Virtqueue.split (splitCallbackStep_twice vq hi)
  | packed vq => exact congrArg Virtqueue.packed (packedCallbackStep_twice vq hi)

/-! ## What is read back -/

/-- The bit is read back as it was last switched, and switching twice the same way does nothing
more. -/
structure ReportsSwitch (num : ℕ) (eventSuppression : Bool) (inputs : List (CallbackInput β))
    (format : RingFormat) : Prop where
  reported : virtqueueIsInterruptEnabled (afterCalls num eventSuppression inputs format) =
    lastSwitch inputs
  idempotent : ∀ i ∈ switches, callbackStep
      (callbackStep (afterCalls num eventSuppression inputs format) i) i =
    callbackStep (afterCalls num eventSuppression inputs format) i

/-- A split queue reports what was asked for last; a packed one reports the opposite, whatever was
called before, so the two never agree. -/
theorem reportsSwitch_iff (num : ℕ) (eventSuppression : Bool) (inputs : List (CallbackInput β)) :
    (∀ format, ReportsSwitch num eventSuppression inputs format ↔ format = .split) ∧
      virtqueueIsInterruptEnabled (afterCalls num eventSuppression inputs .packed) =
        !virtqueueIsInterruptEnabled (afterCalls num eventSuppression inputs .split) := by
  obtain ⟨⟨split, hsplit, hsplitKeeps⟩, packed, hpacked, hpackedKeeps⟩ :=
    afterCalls_eq num eventSuppression inputs
  have hsplitReports :
      virtqueueIsInterruptEnabled (afterCalls num eventSuppression inputs .split) =
        lastSwitch inputs := by
    rw [hsplit]
    exact hsplitKeeps.reported
  have hpackedReports :
      virtqueueIsInterruptEnabled (afterCalls num eventSuppression inputs .packed) =
        !lastSwitch inputs := by
    rw [hpacked]
    exact hpackedKeeps.reported
  constructor
  · intro format
    constructor
    · intro h
      cases format with
      | split => rfl
      | packed =>
          have hsame := hpackedReports.symm.trans h.reported
          simp at hsame
    · intro hformat
      subst hformat
      exact ⟨hsplitReports, fun i hi => callbackStep_twice _ hi⟩
  · rw [hpackedReports, hsplitReports]

/-- A packed queue just created says that interrupts are off. -/
theorem reportsSwitch_packed_new : ¬ ReportsSwitch (β := Unit) 4 false [] .packed := by
  intro h
  have hreported := h.reported
  revert hreported
  decide

end Viosnd.VirtIO
