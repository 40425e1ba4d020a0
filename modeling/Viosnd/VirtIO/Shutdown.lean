import Viosnd.Lib.Machines
import Viosnd.VirtIO.InterruptState
import Viosnd.VirtIO.QueueReference

/-!
# Shutting a queue down

`virtqueue_shutdown` wipes the ring and builds the queue again where it is, through the constructor
that `vio_modern_setup_vq` used. The notification address is set by setup, behind the constructor.
-/

namespace Viosnd.VirtIO

open Machine

variable {β : Type}

/-- `struct virtqueue` without the pointers to the operations, which follow the format. -/
structure VirtqueueHeader where
  index : BitVec 32
  notificationCb : BitVec 64
  notificationAddr : BitVec 64
  availVa : BitVec 64
  usedVa : BitVec 64
  deriving DecidableEq

/-- The arguments of the constructors. -/
structure NewArgs where
  index : BitVec 32
  num : ℕ
  vringAlign : BitVec 64
  pages : BitVec 64
  notify : BitVec 64

/-- `SMP_CACHE_BYTES`. -/
def smpCacheBytes : BitVec 64 := 64

/-- `vring_align` of the shutdown routines; `addr` is that of a legacy device, `NULL` on a modern
one. -/
def shutdownAlign (addr : BitVec 64) : BitVec 64 := if addr ≠ 0 then 4096 else smpCacheBytes

/-! ## The split format -/

/-- The memory of a split queue: its control block, and the pages of its ring at `pages`. -/
structure SplitControl (β : Type) where
  header : VirtqueueHeader
  vq : SplitVirtqueue β
  pages : BitVec 64
  /-- What the device wrote about notifications. -/
  notice : KickNotice

/-- `RtlZeroMemory` over `vring_size_split` bytes. -/
def SplitControl.zeroPages (c : SplitControl β) : SplitControl β :=
  { c with
    vq := { c.vq with
      ring := { c.vq.ring with
        desc := fun _ => ⟨0, 0, ⟨false, false, false⟩, 0⟩
        availRing := fun _ => 0
        availIdx := 0
        usedRing := fun _ => ⟨0, 0⟩
        usedIdx := 0
        usedEvent := 0 }
      availNoInterrupt := false }
    notice := ⟨0, false⟩ }

/-- `vring.avail` of `vring_init`. -/
def NewArgs.splitAvail (a : NewArgs) : BitVec 64 := a.pages + 16 * BitVec.ofNat 64 a.num

/-- `vring.used` of `vring_init`. -/
def NewArgs.splitUsed (a : NewArgs) : BitVec 64 :=
  (a.splitAvail + 4 + 2 * BitVec.ofNat 64 a.num + 2 + a.vringAlign - 1) &&& ~~~(a.vringAlign - 1)

/-- The control block after `RtlZeroMemory`, filled in, and the free list in the pages. -/
def initSplitControl (a : NewArgs) (c : SplitControl β) : SplitControl β :=
  { c with
    header := {
      index := a.index
      notificationCb := a.notify
      notificationAddr := 0
      availVa := a.splitAvail
      usedVa := a.splitUsed }
    vq := { c.vq with
      ring := { c.vq.ring with
        num := a.num
        desc := fun i => if i < a.num - 1 then
            { c.vq.ring.desc i with flags := ⟨true, false, false⟩, next := i + 1 }
          else c.vq.ring.desc i
        noInterrupt := false
        masterIdx := 0
        numUnused := a.num
        numAddedSinceKick := 0
        firstUnused := 0
        lastUsed := 0
        data := fun _ => none } }
    pages := a.pages }

/-- `vring_new_virtqueue_split` over what the memory holds; `none` for `NULL`. -/
def newSplitControl (a : NewArgs) (c : SplitControl β) : Option (SplitControl β) :=
  if a.num &&& (a.num - 1) ≠ 0 then none else some (initSplitControl a c)

/-- `virtqueue_shutdown_split`. -/
def virtqueueShutdownSplit (addr : BitVec 64) (c : SplitControl β) : SplitControl β :=
  let args : NewArgs := {
    index := c.header.index
    num := c.vq.ring.num
    vringAlign := shutdownAlign addr
    pages := c.pages
    notify := c.header.notificationCb }
  (newSplitControl args c.zeroPages).getD c.zeroPages

/-! ## The packed format -/

structure PackedControl (β : Type) where
  header : VirtqueueHeader
  vq : PackedVirtqueue β
  pages : BitVec 64
  /-- What the device wrote about notifications. -/
  notice : PackedNotice

/-- `RtlZeroMemory` over `vring_size_packed` bytes. -/
def PackedControl.zeroPages (c : PackedControl β) : PackedControl β :=
  { c with
    vq := { c.vq with
      ring := { c.vq.ring with
        desc := fun _ => ⟨0, 0, 0, ⟨false, false, false, false, false⟩⟩
        offWrap := 0 }
      driverFlags := 0 }
    notice := ⟨0, 0⟩ }

/-- `vq.avail_va`. -/
def NewArgs.packedAvail (a : NewArgs) : BitVec 64 := a.pages + 16 * BitVec.ofNat 64 a.num

/-- `vring_new_virtqueue_packed` over what the memory holds. Of the control block it clears the
descriptor states only. -/
def newPackedControl (a : NewArgs) (c : PackedControl β) : PackedControl β :=
  { c with
    header := { c.header with
      index := a.index
      notificationCb := a.notify
      availVa := a.packedAvail
      usedVa := a.packedAvail + 4 }
    vq := { c.vq with
      ring := { c.vq.ring with
        num := a.num
        numAdded := 0
        freeHead := 0
        numFree := a.num
        lastUsedIdx := 0
        availUsedFlags := ⟨true, false⟩
        availWrapCounter := true
        usedWrapCounter := true
        nextAvailIdx := 0
        eventFlagsShadow := 0
        descState := fun i => ⟨none, 0, if i < a.num - 1 then i + 1 else 0, 0⟩ } }
    pages := a.pages }

/-- `virtqueue_shutdown_packed`. -/
def virtqueueShutdownPacked (addr : BitVec 64) (c : PackedControl β) : PackedControl β :=
  newPackedControl {
    index := c.header.index
    num := c.vq.ring.num
    vringAlign := shutdownAlign addr
    pages := c.pages
    notify := c.header.notificationCb } c.zeroPages

/-- `virtqueue_detach_unused_buf_packed`; `none` stands for `BUG_ON`. -/
def virtqueueDetachUnusedBufPacked (q : PackedRing β) : Option (Option β × PackedRing β) :=
  match (List.range q.num).find? fun i => (q.descState i).data.isSome with
  | some i => some ((q.descState i).data, detachBufPacked i q)
  | none => if q.numFree ≠ q.num then none else some (none, q)

/-! ## Queues of the modern transport -/

inductive QueueControl (β : Type) where
  | split (c : SplitControl β)
  | packed (c : PackedControl β)

def QueueControl.format : QueueControl β → RingFormat
  | .split _ => .split
  | .packed _ => .packed

/-- What `vio_modern_setup_vq` creates a queue with; it fails when there is no address to notify. -/
structure QueueSetup where
  /-- The address of `vp_notify`. -/
  vpNotify : BitVec 64
  index : BitVec 32
  size : QueueSize
  pages : BitVec 64
  notificationAddr : BitVec 64
  mapped : notificationAddr ≠ 0

def QueueSetup.args (s : QueueSetup) : NewArgs where
  index := s.index
  num := s.size.num
  vringAlign := smpCacheBytes
  pages := s.pages
  notify := s.vpNotify

def QueueSetup.makeSplit (s : QueueSetup) (c : SplitControl β) : SplitControl β :=
  let made := (newSplitControl s.args c.zeroPages).getD c.zeroPages
  { made with header := { made.header with notificationAddr := s.notificationAddr } }

def QueueSetup.makePacked (s : QueueSetup) (c : PackedControl β) : PackedControl β :=
  let made := newPackedControl s.args c.zeroPages
  { made with header := { made.header with notificationAddr := s.notificationAddr } }

/-- The queue `vio_modern_setup_vq` returns, in memory the allocators cleared. -/
def QueueSetup.make (s : QueueSetup) : QueueControl β → QueueControl β
  | .split c => .split (s.makeSplit c)
  | .packed c => .packed (s.makePacked c)

/-- `virtqueue_shutdown` on a modern device. -/
def virtqueueShutdown : QueueControl β → QueueControl β
  | .split c => .split (virtqueueShutdownSplit 0 c)
  | .packed c => .packed (virtqueueShutdownPacked 0 c)

/-! ## Calls and answers -/

inductive ControlInput (β : Type) where
  /-- A call that switches interrupts, adds or gets a buffer, or a write to the ring. -/
  | call (i : CallbackInput β)
  | detachUnusedBuf
  | kick
  | kickAlways
  /-- The device writes whether and when it wants to be notified. -/
  | notice (split : KickNotice) (packed : PackedNotice)
  | shutdown

/-- What the caller and the device get to see of a call. -/
inductive ControlAnswer (β : Type) where
  | done
  /-- `none` when the call does not return. -/
  | added (granted : Option Bool)
  | got (buf : Option (Option (Option β × BitVec 32)))
  | detached (buf : Option (Option β))
  | switched (noMore : Bool)
  /-- The address and the word that `vp_notify` writes, when it is called. -/
  | notified (write : Option (BitVec 64 × U16))

/-- `vp_notify`. -/
def VirtqueueHeader.notification (h : VirtqueueHeader) : BitVec 64 × U16 :=
  (h.notificationAddr, h.index.setWidth 16)

def SplitControl.withRing (c : SplitControl β) (ring : SplitRing β) : SplitControl β :=
  { c with vq := { c.vq with ring := ring } }

def PackedControl.withRing (c : PackedControl β) (ring : PackedRing β) : PackedControl β :=
  { c with vq := { c.vq with ring := ring } }

def splitAnswer (vq : SplitVirtqueue β) : CallbackInput β → ControlAnswer β
  | .enableCb => .switched (virtqueueEnableCbSplit vq).1
  | .enableCbDelayed => .switched (enableCbDelayedSplit vq).1
  | .disableCb => .done
  | .addBuf sg rest out io page =>
      .added (some (virtqueueAddBufSplit sg rest out io page vq.ring).isSome)
  | .getBuf => .got ((virtqueueGetBufSplit vq.ring).map Prod.fst)
  | .device .. => .done

def packedAnswer (vq : PackedVirtqueue β) : CallbackInput β → ControlAnswer β
  | .enableCb => .switched (virtqueueEnableCbPacked vq).1
  | .enableCbDelayed => .switched (virtqueueEnableCbDelayedPacked vq).1
  | .disableCb => .done
  | .addBuf sg rest out io page =>
      .added ((virtqueueAddBufPacked sg rest out io page vq.ring).map Option.isSome)
  | .getBuf =>
      .got ((virtqueueGetBufPacked vq.ring).map fun r => r.1.map fun buf => (some buf.1, buf.2))
  | .device .. => .done

def splitControlStep (c : SplitControl β) : ControlInput β → SplitControl β × ControlAnswer β
  | .call i => ({ c with vq := splitCallbackStep c.vq i }, splitAnswer c.vq i)
  | .detachUnusedBuf =>
      let r := virtqueueDetachUnusedBufSplit c.vq.ring
      (c.withRing ((r.map Prod.snd).getD c.vq.ring), .detached (r.map Prod.fst))
  | .kick =>
      let r := virtqueueKickPrepareSplit c.notice c.vq.ring
      (c.withRing r.2, .notified (if r.1 then some c.header.notification else none))
  | .kickAlways =>
      (c.withRing (virtqueueKickAlwaysSplit c.vq.ring), .notified (some c.header.notification))
  | .notice split _ => ({ c with notice := split }, .done)
  | .shutdown => (virtqueueShutdownSplit 0 c, .done)

def packedControlStep (c : PackedControl β) : ControlInput β → PackedControl β × ControlAnswer β
  | .call i => ({ c with vq := packedCallbackStep c.vq i }, packedAnswer c.vq i)
  | .detachUnusedBuf =>
      let r := virtqueueDetachUnusedBufPacked c.vq.ring
      (c.withRing ((r.map Prod.snd).getD c.vq.ring), .detached (r.map Prod.fst))
  | .kick =>
      let r := virtqueueKickPreparePacked c.notice c.vq.ring
      (c.withRing r.2, .notified (if r.1 then some c.header.notification else none))
  | .kickAlways =>
      (c.withRing (virtqueueKickAlwaysPacked c.vq.ring), .notified (some c.header.notification))
  | .notice _ packed => ({ c with notice := packed }, .done)
  | .shutdown => (virtqueueShutdownPacked 0 c, .done)

/-- A call that does not return changes nothing more. -/
def controlStep : QueueControl β → ControlInput β → QueueControl β × ControlAnswer β
  | .split c, i => (.split (splitControlStep c i).1, (splitControlStep c i).2)
  | .packed c, i => (.packed (packedControlStep c i).1, (packedControlStep c i).2)

/-! ## What the calls keep -/

/-- A queue that was made by setup and still knows its place. -/
structure SplitControl.Made (s : QueueSetup) (c : SplitControl β) : Prop where
  index : c.header.index = s.index
  notify : c.header.notificationCb = s.vpNotify
  num : c.vq.ring.num = s.size.num
  pages : c.pages = s.pages

/-- The notification address is kept as well. -/
structure PackedControl.Made (s : QueueSetup) (c : PackedControl β) : Prop where
  index : c.header.index = s.index
  notify : c.header.notificationCb = s.vpNotify
  addr : c.header.notificationAddr = s.notificationAddr
  num : c.vq.ring.num = s.size.num
  pages : c.pages = s.pages

private theorem QueueSize.land_pred (size : QueueSize) : size.num &&& (size.num - 1) = 0 := by
  obtain ⟨k, -, hnum⟩ := size.power
  rw [hnum, Nat.and_two_pow_sub_one_eq_mod, Nat.mod_self]

theorem newSplitControl_eq_some_iff {a : NewArgs} {m c : SplitControl β} :
    newSplitControl a m = some c ↔ a.num &&& (a.num - 1) = 0 ∧ initSplitControl a m = c := by
  simp [newSplitControl]

theorem newSplitControl_eq (size : QueueSize) {a : NewArgs} (ha : a.num = size.num)
    (c : SplitControl β) : newSplitControl a c = some (initSplitControl a c) := by
  apply newSplitControl_eq_some_iff.mpr
  rw [ha]
  exact ⟨size.land_pred, rfl⟩

theorem initSplitControl_ring (a : NewArgs) (c : SplitControl β) :
    (initSplitControl a c.zeroPages).vq.ring =
      { vringNewVirtqueueSplit β a.num c.vq.ring.eventSuppression with
        tables := c.vq.ring.tables } := by
  simp only [initSplitControl, SplitControl.zeroPages, vringNewVirtqueueSplit,
    SplitRing.mk.injEq, true_and, and_true]
  funext i
  by_cases hi : i < a.num - 1
  · simp [hi]
  · simp [hi]

theorem newPackedControl_ring (a : NewArgs) (c : PackedControl β) :
    (newPackedControl a c.zeroPages).vq.ring =
      { vringNewVirtqueuePacked β a.num with tables := c.vq.ring.tables } := rfl

theorem splitCallbackStep_num (vq : SplitVirtqueue β) (i : CallbackInput β) :
    (splitCallbackStep vq i).ring.num = vq.ring.num := by
  have hcleared : vq.clearNoInterrupt.ring.num = vq.ring.num := by
    unfold SplitVirtqueue.clearNoInterrupt
    split_ifs <;> rfl
  cases i with
  | enableCb => exact hcleared
  | enableCbDelayed => exact hcleared
  | disableCb =>
      simp only [splitCallbackStep, virtqueueDisableCbSplit]
      split_ifs <;> rfl
  | addBuf sg rest out io page =>
      cases hadd : virtqueueAddBufSplit sg rest out io page vq.ring with
      | none => simp [splitCallbackStep, hadd]
      | some q => simp [splitCallbackStep, hadd, (addBufSplit_settings hadd).num]
  | getBuf =>
      cases hget : virtqueueGetBufSplit vq.ring with
      | none => simp [splitCallbackStep, hget]
      | some r => simp [splitCallbackStep, hget, (getBufSplit_settings hget).num]
  | device usedRing usedIdx desc => rfl

private theorem packedCallbackStep_num (vq : PackedVirtqueue β) (i : CallbackInput β) :
    (packedCallbackStep vq i).ring.num = vq.ring.num := by
  cases i with
  | enableCb => simp [packedCallbackStep, virtqueueEnableCbPacked, virtqueueEnableCbPreparePacked,
      await_eq]
  | enableCbDelayed => simp [packedCallbackStep, virtqueueEnableCbDelayedPacked, await_eq]
  | disableCb =>
      simp only [packedCallbackStep, virtqueueDisableCbPacked]
      split_ifs <;> rfl
  | addBuf sg rest out io page =>
      cases hadd : (virtqueueAddBufPacked sg rest out io page vq.ring).join with
      | none => simp [packedCallbackStep, hadd]
      | some q => simp [packedCallbackStep, hadd, (addBufPacked_mode hadd).num]
  | getBuf =>
      cases hget : virtqueueGetBufPacked vq.ring with
      | none => simp [packedCallbackStep, hget]
      | some r => simp [packedCallbackStep, hget, (getBufPacked_mode hget).num]
  | device usedRing usedIdx desc => rfl

private theorem detachSplit_num {q : SplitRing β} {r : Option β × SplitRing β}
    (h : virtqueueDetachUnusedBufSplit q = some r) : r.2.num = q.num := by
  unfold virtqueueDetachUnusedBufSplit putUnusedDescChain at h
  cases hfirst : firstInUse q with
  | none =>
      rw [hfirst] at h
      have hr := Option.some.inj h
      rw [← hr]
  | some idx =>
      rw [hfirst] at h
      simp only [Option.map_map, Option.map_eq_some_iff] at h
      obtain ⟨walked, -, hr⟩ := h
      rw [← hr]
      rfl

private theorem detachPacked_num {q : PackedRing β} {r : Option β × PackedRing β}
    (h : virtqueueDetachUnusedBufPacked q = some r) : r.2.num = q.num := by
  unfold virtqueueDetachUnusedBufPacked at h
  cases hfind : (List.range q.num).find? fun i => (q.descState i).data.isSome with
  | none =>
      simp only [hfind, Option.ite_none_left_eq_some, Option.some.injEq] at h
      rw [← h.2]
  | some i =>
      simp only [hfind, Option.some.injEq] at h
      rw [← h]
      rfl

theorem splitControlStep_detach_num (c : SplitControl β) :
    (splitControlStep c .detachUnusedBuf).1.vq.ring.num = c.vq.ring.num := by
  cases hdetach : virtqueueDetachUnusedBufSplit c.vq.ring with
  | none => simp [splitControlStep, SplitControl.withRing, hdetach]
  | some r => simp [splitControlStep, SplitControl.withRing, hdetach, detachSplit_num hdetach]

theorem splitControlStep_made {s : QueueSetup} {c : SplitControl β} (h : c.Made s)
    (i : ControlInput β) : (splitControlStep c i).1.Made s := by
  cases i with
  | call i => exact ⟨h.index, h.notify, (splitCallbackStep_num c.vq i).trans h.num, h.pages⟩
  | detachUnusedBuf =>
      exact ⟨h.index, h.notify, (splitControlStep_detach_num c).trans h.num, h.pages⟩
  | kick => exact ⟨h.index, h.notify, h.num, h.pages⟩
  | kickAlways => exact ⟨h.index, h.notify, h.num, h.pages⟩
  | notice split packed => exact ⟨h.index, h.notify, h.num, h.pages⟩
  | shutdown =>
      simp only [splitControlStep, virtqueueShutdownSplit]
      rw [newSplitControl_eq s.size h.num]
      exact ⟨h.index, h.notify, h.num, h.pages⟩

theorem packedControlStep_made {s : QueueSetup} {c : PackedControl β} (h : c.Made s)
    (i : ControlInput β) : (packedControlStep c i).1.Made s := by
  cases i with
  | call i =>
      exact ⟨h.index, h.notify, h.addr, (packedCallbackStep_num c.vq i).trans h.num, h.pages⟩
  | detachUnusedBuf =>
      refine ⟨h.index, h.notify, h.addr, ?_, h.pages⟩
      cases hdetach : virtqueueDetachUnusedBufPacked c.vq.ring with
      | none => simpa [packedControlStep, PackedControl.withRing, hdetach] using h.num
      | some r =>
          simpa [packedControlStep, PackedControl.withRing, hdetach, detachPacked_num hdetach]
            using h.num
  | kick => exact ⟨h.index, h.notify, h.addr, h.num, h.pages⟩
  | kickAlways => exact ⟨h.index, h.notify, h.addr, h.num, h.pages⟩
  | notice split packed => exact ⟨h.index, h.notify, h.addr, h.num, h.pages⟩
  | shutdown => exact ⟨h.index, h.notify, h.addr, h.num, h.pages⟩

/-- A queue of its format, made by setup. -/
def QueueControl.MadeBy (s : QueueSetup) (format : RingFormat) : QueueControl β → Prop
  | .split c => format = .split ∧ c.Made s
  | .packed c => format = .packed ∧ c.Made s

private theorem controlStep_madeBy {s : QueueSetup} {format : RingFormat} (q : QueueControl β)
    (i : ControlInput β) (h : q.MadeBy s format) : (controlStep q i).1.MadeBy s format := by
  cases q with
  | split c => exact ⟨h.1, splitControlStep_made h.2 i⟩
  | packed c => exact ⟨h.1, packedControlStep_made h.2 i⟩

theorem makeSplit_made (s : QueueSetup) (c : SplitControl β) : (s.makeSplit c).Made s := by
  unfold QueueSetup.makeSplit
  rw [newSplitControl_eq s.size rfl]
  exact ⟨rfl, rfl, rfl, rfl⟩

private theorem make_madeBy (s : QueueSetup) (m : QueueControl β) :
    (s.make m).MadeBy s m.format := by
  cases m with
  | split c => exact ⟨rfl, makeSplit_made s c⟩
  | packed c => exact ⟨rfl, rfl, rfl, rfl, rfl, rfl⟩

/-- A queue made in the memory `m`, after calls. -/
def QueueSetup.used (s : QueueSetup) (m : QueueControl β) (inputs : List (ControlInput β)) :
    QueueControl β := (respond controlStep (s.make m) inputs).1

private theorem used_madeBy (s : QueueSetup) (m : QueueControl β) (inputs : List (ControlInput β)) :
    (s.used m inputs).MadeBy s m.format :=
  respond_invariant controlStep_madeBy inputs (make_madeBy s m)

/-! ## Shutting down and setting up again -/

def QueueControl.unnotified : QueueControl β → QueueControl β
  | .split c => .split { c with header := { c.header with notificationAddr := 0 } }
  | .packed c => .packed { c with header := { c.header with notificationAddr := 0 } }

private theorem shutdownArgs_eq {s : QueueSetup} {header : VirtqueueHeader} {num : ℕ}
    {pages : BitVec 64} (hindex : header.index = s.index)
    (hnotify : header.notificationCb = s.vpNotify) (hnum : num = s.size.num)
    (hpages : pages = s.pages) :
    (⟨header.index, num, shutdownAlign 0, pages, header.notificationCb⟩ : NewArgs) = s.args := by
  simp [QueueSetup.args, shutdownAlign, hindex, hnotify, hnum, hpages]

/-- A split queue that was shut down is a new one that has lost its notification address. -/
private theorem shutdownSplit_eq {s : QueueSetup} {c : SplitControl β} (h : c.Made s) :
    virtqueueShutdown (.split c) = (s.make (.split c)).unnotified := by
  simp only [virtqueueShutdown, virtqueueShutdownSplit, QueueSetup.make, QueueSetup.makeSplit]
  rw [shutdownArgs_eq h.index h.notify h.num h.pages, newSplitControl_eq s.size rfl]
  rfl

private theorem shutdownPacked_eq {s : QueueSetup} {c : PackedControl β} (h : c.Made s) :
    virtqueueShutdown (.packed c) = s.make (.packed c) := by
  simp only [virtqueueShutdown, virtqueueShutdownPacked, QueueSetup.make, QueueSetup.makePacked]
  rw [shutdownArgs_eq h.index h.notify h.num h.pages, ← h.addr]
  rfl

/-- A split queue forgets the address and says so at the first kick. -/
private theorem shutdownSplit_answers_ne {s : QueueSetup} {c : SplitControl β} (h : c.Made s) :
    (respond controlStep (virtqueueShutdown (.split c)) [.kickAlways]).2 ≠
      (respond controlStep (s.make (.split c)) [.kickAlways]).2 := by
  intro hsame
  rw [shutdownSplit_eq h] at hsame
  simp only [respond, QueueSetup.make, QueueSetup.makeSplit, QueueControl.unnotified,
    controlStep, splitControlStep, VirtqueueHeader.notification, List.cons.injEq,
    ControlAnswer.notified.injEq, Option.some.injEq, Prod.mk.injEq, and_true] at hsame
  exact s.mapped hsame.symm

/-- The answers to all later calls are those of a queue just made in the same memory. -/
def QueueSetup.BehavesNew (s : QueueSetup) (q : QueueControl β) : Prop :=
  ∀ later, (respond controlStep (virtqueueShutdown q) later).2 =
    (respond controlStep (s.make q) later).2

/-- After any calls a queue that is shut down equals a new one, and behaves like one, exactly when
it is packed; without their notification addresses the two are always equal. -/
theorem shutdown_new_iff (s : QueueSetup) (m : QueueControl β) (inputs : List (ControlInput β)) :
    (virtqueueShutdown (s.used m inputs) = s.make (s.used m inputs) ↔ m.format = .packed) ∧
    (s.BehavesNew (s.used m inputs) ↔ m.format = .packed) ∧
    (virtqueueShutdown (s.used m inputs)).unnotified = (s.make (s.used m inputs)).unnotified := by
  have hmade := used_madeBy s m inputs
  cases hused : s.used m inputs with
  | split c =>
      rw [hused] at hmade
      obtain ⟨hformat, hc⟩ := hmade
      have hdiffers := shutdownSplit_answers_ne hc
      rw [hformat]
      refine ⟨iff_of_false ?_ (by simp), iff_of_false ?_ (by simp), ?_⟩
      · intro hsame
        exact hdiffers (by rw [hsame])
      · intro hbehaves
        exact hdiffers (hbehaves [.kickAlways])
      · rw [shutdownSplit_eq hc]
        rfl
  | packed c =>
      rw [hused] at hmade
      obtain ⟨hformat, hc⟩ := hmade
      have hsame := shutdownPacked_eq hc
      rw [hformat]
      refine ⟨iff_of_true hsame rfl, iff_of_true ?_ rfl, by rw [hsame]⟩
      intro later
      rw [hsame]

/-- Four descriptors, notified at `0xFEBC3000`. -/
def smallSetup : QueueSetup where
  vpNotify := 0x1400011A0
  index := 0
  size := ⟨4, 2, by decide, rfl⟩
  pages := 0x10000
  notificationAddr := 0xFEBC3000
  mapped := by decide

def clearSplit : SplitControl Unit where
  header := ⟨0, 0, 0, 0, 0⟩
  vq := ⟨vringNewVirtqueueSplit Unit 0 false, false⟩
  pages := 0
  notice := ⟨0, false⟩

/-- Without any call in between, the kick behind a shutdown goes to address zero. -/
theorem smallSetup_not_behavesNew :
    ¬ smallSetup.BehavesNew (smallSetup.used (.split clearSplit) []) := by
  intro hbehaves
  have hmade := used_madeBy smallSetup (.split clearSplit) []
  exact shutdownSplit_answers_ne hmade.2 (hbehaves [.kickAlways])

end Viosnd.VirtIO
