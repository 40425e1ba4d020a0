import Viosnd.Lib.Ledger
import Viosnd.Pci.NotifyAddress

/-!
# Creating the queues of a device

`virtio_find_queues` with the modern transport. Each queue gets contiguous pages for its ring, of a
size that is halved until the pages are granted, and a control block; its constructor links the
entries of one of them. When a queue fails, the queues created before it are deleted again.
-/

namespace Viosnd.Pci

open Loops Ledger

/-- `VIRTIO_MSI_NO_VECTOR`. -/
def virtioMsiNoVector : BitVec 16 := 0xFFFF

inductive QueueStatus where
  | notFound
  | invalidParameter
  | insufficientResources
  | deviceBusy
  deriving DecidableEq

/-- What the device and the system decide during the call. -/
structure QueueHost where
  device : PciDevice
  vdev : VirtIODevice
  packedRing : Bool
  numQueues : BitVec 16
  /-- `queue_size` of each queue before the call. -/
  queueSize : ℕ → BitVec 16
  queueNotifyOff : ℕ → BitVec 16
  /-- What the vector registers hold when a vector has been written to them. -/
  msixConfig : BitVec 16 → BitVec 16
  queueMsixVector : ℕ → BitVec 16 → BitVec 16
  /-- `vdev_get_msix_vector`, with `none` for the index -1. -/
  msixVector : Option ℕ → BitVec 16
  /-- Whether memory for the queue infos is granted. -/
  grantsInfos : Bool
  /-- Whether the `k`-th request for the pages of a queue is granted. -/
  grantsPages : ℕ → ℕ → Bool
  grantsControl : ℕ → Bool

/-- `struct virtqueue`, with the numbers of the memory it lies in. -/
structure CreatedQueue where
  index : BitVec 32
  num : BitVec 32
  control : ℕ
  /-- The entries there is memory for where the constructor links them. -/
  room : ℕ
  notificationAddr : Option ℕ

structure QueueInfo where
  vq : Option CreatedQueue
  num : BitVec 16
  queue : Option ℕ

/-- The transport, with the registers it writes and the books of the two allocators. -/
structure Transport where
  queueSelect : BitVec 16
  /-- What was written to `queue_size` of each queue. -/
  writtenSize : ℕ → Option (BitVec 16)
  queueEnable : ℕ → Bool
  maxQueues : BitVec 32
  info : ℕ → QueueInfo
  /-- The block of `info`, `none` for `inline_info`, and how many infos fit. -/
  infoBlock : Option ℕ
  infoRoom : ℕ
  pages : Book
  blocks : Book

def Transport.setInfo (s : Transport) (index : ℕ) (info : QueueInfo) : Transport :=
  { s with info := Function.update s.info index info }

/-! ## The constructors -/

/-- `for (i = 0; i < num - 1; i++)` of a constructor that writes the entry `i`, with a counter of
`w` bits and an unsigned difference. `none` when it goes on behind the memory, from where the call
does not come back, or takes more than `fuel` turns. -/
def linkEntries (w room : ℕ) (num : BitVec 32) (fuel : ℕ) : Option Unit :=
  (whileLoop (fun i : BitVec w => decide (i.toNat < (num - 1).toNat) && decide (i.toNat < room))
    (· + 1) fuel 0).bind fun i => if i.toNat < (num - 1).toNat then none else some ()

/-- `vring_size_split`. -/
def vringSizeSplit (num align : ℕ) : ℕ :=
  (16 * num + 2 * (3 + num) + align - 1) / align * align + 2 * 3 + 8 * num

/-- `vring_pci_size` of a split ring. -/
def vringPciSize (num : ℕ) : ℕ := (vringSizeSplit num 64 + 4095) / 4096 * 4096

/-- `vring_new_virtqueue_split`, which links descriptors in the pages; `false` for `NULL`. -/
def vringNewVirtqueueSplit (room : ℕ) (num : BitVec 32) (fuel : ℕ) : Option Bool :=
  if num &&& (num - 1) ≠ 0 then some false else (linkEntries 16 room num fuel).map fun _ => true

/-- `vring_new_virtqueue_packed`, which links descriptor states in the control block. -/
def vringNewVirtqueuePacked (room : ℕ) (num : BitVec 32) (fuel : ℕ) : Option Bool :=
  (linkEntries 32 room num fuel).map fun _ => true

def vringNewVirtqueue (h : QueueHost) (room : ℕ) (num : BitVec 32) (fuel : ℕ) : Option Bool :=
  if h.packedRing then vringNewVirtqueuePacked room num fuel
  else vringNewVirtqueueSplit room num fuel

/-- `virtqueue_shutdown` calls the constructor again. -/
def shutdownQueue (h : QueueHost) (vq : CreatedQueue) (fuel : ℕ) : Option Unit :=
  (vringNewVirtqueue h vq.room vq.num fuel).map fun _ => ()

/-- The entries there is memory for: `vring_control_block_size` is that of the size the device
offers, `vring_pci_size` that of the size the pages were granted at. -/
def linkRoom (h : QueueHost) (offered num : BitVec 16) : ℕ :=
  if h.packedRing then offered.toNat else vringPciSize num.toNat / 16

/-! ## Setting up one queue -/

/-- `vio_modern_query_vq_alloc`. -/
def vioModernQueryVqAlloc (h : QueueHost) (index : ℕ) (s : Transport) :
    Except QueueStatus (BitVec 16) × Transport :=
  if h.numQueues.toNat ≤ index then (.error .notFound, s)
  else
    let s := { s with queueSelect := BitVec.ofNat 16 index }
    let num := h.queueSize s.queueSelect.toNat
    if num = 0 then (.error .notFound, s)
    else if num &&& (num - 1) ≠ 0 then (.error .invalidParameter, s)
    else (.ok num, s)

/-- The loop that asks for pages: the size it asks for, the requests refused, and whether the
function has returned out of it. -/
structure PagesRequest where
  num : BitVec 16
  refused : ℕ
  gaveUp : Bool

def requestCond (h : QueueHost) (index : ℕ) (t : PagesRequest) : Bool :=
  !t.gaveUp && !h.grantsPages index t.refused

def requestBody (t : PagesRequest) : PagesRequest :=
  if t.num ≠ 0 then { t with num := t.num / 2, refused := t.refused + 1 }
  else { t with gaveUp := true }

def requestPages (h : QueueHost) (index : ℕ) (num : BitVec 16) (fuel : ℕ) : Option PagesRequest :=
  whileLoop (requestCond h index) requestBody fuel ⟨num, 0, false⟩

/-- The labels from `err_new_queue` on. -/
def Transport.freeQueue (s : Transport) (page control : ℕ) : Transport :=
  { s with pages := s.pages.giveBack page, blocks := s.blocks.giveBack control }

/-- `notification_addr` cannot be set. -/
def notifyStatus (v : VirtIODevice) : QueueStatus :=
  if v.notifyBase.isSome then .invalidParameter else .insufficientResources

/-- `vio_modern_setup_vq` behind the constructor. -/
def activateVq (h : QueueHost) (fuel index : ℕ) (msixVec : BitVec 16) (page : ℕ)
    (vq : CreatedQueue) (s : Transport) :
    Option (Except QueueStatus CreatedQueue × Transport) :=
  let s := { s with
    writtenSize :=
      Function.update s.writtenSize s.queueSelect.toNat (some (vq.num.setWidth 16)) }
  match notificationAddr h.device h.vdev (h.queueNotifyOff s.queueSelect.toNat) with
  | none => (shutdownQueue h vq fuel).map fun _ =>
      (.error (notifyStatus h.vdev), s.freeQueue page vq.control)
  | some addr =>
      let vq := { vq with notificationAddr := some addr }
      if msixVec ≠ virtioMsiNoVector ∧ h.queueMsixVector index msixVec = virtioMsiNoVector then
        (shutdownQueue h vq fuel).map fun _ => (.error .deviceBusy, s.freeQueue page vq.control)
      else some (.ok vq,
        { s with queueEnable := Function.update s.queueEnable s.queueSelect.toNat true })

/-- Pages are granted, for `num` entries. -/
def Transport.takePages (s : Transport) (index : ℕ) (num : BitVec 16) : Transport :=
  { s with pages := s.pages.grant }.setInfo index
    { s.info index with num := num, queue := some s.pages.granted }

def Transport.takeControl (s : Transport) : Transport := { s with blocks := s.blocks.grant }

def newVq (h : QueueHost) (index : ℕ) (offered num : BitVec 16) (control : ℕ) : CreatedQueue where
  index := BitVec.ofNat 32 index
  num := num.setWidth 32
  control := control
  room := linkRoom h offered num
  notificationAddr := none

/-- `vio_modern_setup_vq` behind the loop that asks for pages. -/
def createVq (h : QueueHost) (fuel index : ℕ) (msixVec offered num : BitVec 16) (s : Transport) :
    Option (Except QueueStatus CreatedQueue × Transport) :=
  let page := s.pages.granted
  let s := s.takePages index num
  if h.grantsControl index then
    let vq := newVq h index offered num s.blocks.granted
    let s := s.takeControl
    (vringNewVirtqueue h vq.room vq.num fuel).bind fun made =>
      if made then activateVq h fuel index msixVec page vq s
      else some (.error .insufficientResources, s.freeQueue page vq.control)
  else some (.error .insufficientResources, s)

/-- `vio_modern_setup_vq`; `none` also when `info` lies behind its block. -/
def vioModernSetupVq (h : QueueHost) (fuel index : ℕ) (msixVec : BitVec 16) (s : Transport) :
    Option (Except QueueStatus CreatedQueue × Transport) :=
  match vioModernQueryVqAlloc h index s with
  | (.error status, s) => some (.error status, s)
  | (.ok offered, s) =>
      if s.infoRoom ≤ index then none
      else
        (requestPages h index offered fuel).bind fun t =>
          if t.gaveUp then some (.error .insufficientResources,
            s.setInfo index { s.info index with num := t.num, queue := none })
          else createVq h fuel index msixVec offered t.num s

/-- A queue that was set up is noted in its info. -/
def noteVq (index : ℕ) :
    Except QueueStatus CreatedQueue × Transport → Except QueueStatus Unit × Transport
  | (.error status, s) => (.error status, s)
  | (.ok vq, s) => (.ok (), s.setInfo index { s.info index with vq := some vq })

/-- `vp_setup_vq`. -/
def vpSetupVq (h : QueueHost) (fuel index : ℕ) (msixVec : BitVec 16) (s : Transport) :
    Option (Except QueueStatus Unit × Transport) :=
  (vioModernSetupVq h fuel index msixVec s).map (noteVq index)

/-! ## All queues -/

/-- `vio_modern_del_vq`. -/
def vioModernDelVq (h : QueueHost) (fuel : ℕ) (vq : CreatedQueue) (queue : Option ℕ)
    (s : Transport) : Option Transport :=
  (shutdownQueue h vq fuel).map fun _ =>
    { s with
      queueSelect := vq.index.setWidth 16
      blocks := s.blocks.giveBack vq.control
      pages := queue.elim s.pages s.pages.giveBack }

/-- The loop of `virtio_delete_queues` from the queue `i` on. -/
def deleteFrom (h : QueueHost) (fuel : ℕ) : (count i : ℕ) → Transport → Option Transport
  | 0, _, s => some s
  | count + 1, i, s =>
      if s.infoRoom ≤ i then none
      else
        match (s.info i).vq with
        | none => deleteFrom h fuel count (i + 1) s
        | some vq => (vioModernDelVq h fuel vq (s.info i).queue s).bind fun s =>
            deleteFrom h fuel count (i + 1) (s.setInfo i { s.info i with vq := none })

def virtioDeleteQueues (h : QueueHost) (fuel : ℕ) (s : Transport) : Option Transport :=
  deleteFrom h fuel s.maxQueues.toNat 0 s

/-- `virtio_get_queue_descriptor_size`. -/
def queueDescriptorSize : BitVec 32 := 24

/-- `virtio_reserve_queue_memory`. -/
def virtioReserveQueueMemory (h : QueueHost) (nvqs : BitVec 32) (s : Transport) :
    Except QueueStatus Unit × Transport :=
  if s.maxQueues < nvqs then
    if h.grantsInfos then
      (.ok (), { s with
        info := fun _ => ⟨none, 0, none⟩
        infoBlock := some s.blocks.granted
        infoRoom := (nvqs * queueDescriptorSize).toNat / queueDescriptorSize.toNat
        blocks := s.infoBlock.elim s.blocks.grant s.blocks.grant.giveBack
        maxQueues := nvqs })
    else (.error .insufficientResources, s)
  else (.ok (), s)

/-- The loop of `virtio_find_queues` from the queue `i` on. -/
def setupFrom (h : QueueHost) (fuel : ℕ) :
    (count i : ℕ) → Transport → Option (Except QueueStatus Unit × Transport)
  | 0, _, s => some (.ok (), s)
  | count + 1, i, s =>
      (vpSetupVq h fuel i (h.msixVector (some i)) s).bind fun r =>
        match r with
        | (.error status, s) => some (.error status, s)
        | (.ok (), s) => setupFrom h fuel count (i + 1) s

/-- A vector for configuration changes that the device does not take. -/
def QueueHost.refusesConfigVector (h : QueueHost) : Bool :=
  h.msixVector none != virtioMsiNoVector &&
    h.msixConfig (h.msixVector none) == virtioMsiNoVector

/-- `error_find`. -/
def errorFind (h : QueueHost) (fuel : ℕ) (status : QueueStatus) (s : Transport) :
    Option (Except QueueStatus Unit × Transport) :=
  (virtioDeleteQueues h fuel s).map fun s => (.error status, s)

/-- `virtio_find_queues`. -/
def virtioFindQueues (h : QueueHost) (fuel : ℕ) (nvqs : BitVec 32) (s : Transport) :
    Option (Except QueueStatus Unit × Transport) :=
  match virtioReserveQueueMemory h nvqs s with
  | (.error status, s) => some (.error status, s)
  | (.ok (), s) =>
      if h.refusesConfigVector then errorFind h fuel .deviceBusy s
      else
        (setupFrom h fuel nvqs.toNat 0 s).bind fun r =>
          match r with
          | (.error status, s) => errorFind h fuel status s
          | (.ok (), s) => some (.ok (), s)

/-- A transport without queues, in which earlier queues may have left their sizes and pointers. -/
structure IdleTransport where
  maxQueues : BitVec 32
  /-- The infos are not `inline_info`. -/
  external : Bool
  num : ℕ → BitVec 16
  queue : ℕ → Option ℕ

def IdleTransport.start (t : IdleTransport) : Transport where
  queueSelect := 0
  writtenSize _ := none
  queueEnable _ := false
  maxQueues := t.maxQueues
  info i := ⟨none, t.num i, t.queue i⟩
  infoBlock := if t.external then some 0 else none
  infoRoom := t.maxQueues.toNat
  pages := ⟨0, []⟩
  blocks := ⟨if t.external then 1 else 0, []⟩

/-! ## What a queue gets -/

/-- The device has the queue, and offers a size for it that is a power of two. -/
def Offered (h : QueueHost) (i : ℕ) : Prop :=
  i < h.numQueues.toNat ∧ h.queueSize i ≠ 0 ∧ h.queueSize i &&& (h.queueSize i - 1) = 0

/-- The size that the `k`-th request asks pages for. -/
def sizeAt (h : QueueHost) (i k : ℕ) : ℕ := (h.queueSize i).toNat / 2 ^ k

/-- The `k`-th request is made, and is the first one granted. -/
structure GrantedAt (h : QueueHost) (i k : ℕ) : Prop where
  granted : h.grantsPages i k = true
  refused : ∀ j < k, h.grantsPages i j = false ∧ sizeAt h i j ≠ 0

/-- The queue gets an address to notify and, where it wants one, a vector. -/
def Activates (h : QueueHost) (i : ℕ) : Prop :=
  notificationAddr h.device h.vdev (h.queueNotifyOff i) ≠ none ∧
    ¬ (h.msixVector (some i) ≠ virtioMsiNoVector ∧
      h.queueMsixVector i (h.msixVector (some i)) = virtioMsiNoVector)

def Made (h : QueueHost) (i : ℕ) : Prop :=
  Offered h i ∧ (∃ k, GrantedAt h i k ∧ sizeAt h i k ≠ 0) ∧ h.grantsControl i = true ∧
    Activates h i

/-- If the queue gets pages, it gets them for one entry at least, and a control block too. -/
def Supplied (h : QueueHost) (i : ℕ) : Prop :=
  Offered h i → ∀ k, GrantedAt h i k → sizeAt h i k ≠ 0 ∧ h.grantsControl i = true

/-! ## The loops -/

section

variable {h : QueueHost} {w room fuel index k : ℕ} {num : BitVec 32}

private theorem toNat_pos {x : BitVec w} (hne : x ≠ 0) : 0 < x.toNat := by
  apply Nat.pos_of_ne_zero
  intro hzero
  apply hne
  apply BitVec.eq_of_toNat_eq
  rw [hzero]
  exact (Nat.zero_mod _).symm

private theorem toNat_pred {x : BitVec w} (hne : x ≠ 0) : (x - 1).toNat = x.toNat - 1 := by
  have hpos := toNat_pos hne
  have hone : (1 : BitVec w).toNat = 1 := Nat.mod_eq_of_lt (Nat.lt_of_le_of_lt hpos x.isLt)
  rw [BitVec.toNat_sub_of_le (by rw [BitVec.le_def, hone]; exact hpos), hone]

theorem and_pred_iff {x : BitVec w} (hne : x ≠ 0) : x &&& (x - 1) = 0 ↔ ∃ m, x.toNat = 2 ^ m := by
  rw [← BitVec.toNat_inj, BitVec.toNat_and, toNat_pred hne]
  exact Nat.and_sub_one_eq_zero_iff_isPowerOfTwo (Nat.ne_of_gt (toNat_pos hne))

/-- A constructor's loop stays within its memory and comes to its end. -/
theorem linkEntries_eq (hnum : num ≠ 0) (hroom : num.toNat - 1 ≤ room) (hwidth : num.toNat ≤ 2 ^ w)
    (hfuel : num.toNat - 1 ≤ fuel) : linkEntries w room num fuel = some () := by
  have hpos := toNat_pos hnum
  have hbound := toNat_pred hnum
  have hloop : ∀ turns i fuel, i + turns = num.toNat - 1 → turns ≤ fuel → whileLoop
      (fun i : BitVec w => decide (i.toNat < (num - 1).toNat) && decide (i.toNat < room))
      (· + 1) fuel (BitVec.ofNat w i) = some (BitVec.ofNat w (num.toNat - 1)) := by
    intro turns
    induction turns with
    | zero =>
        intro i fuel hi _
        have hsame : i = num.toNat - 1 := hi
        rw [hsame]
        apply whileLoop_stop
        rw [hbound, BitVec.toNat_ofNat, Nat.mod_eq_of_lt (by omega)]
        simp
    | succ turns ih =>
        intro i fuel hi hturns
        obtain ⟨fuel, rfl⟩ : ∃ f, fuel = f + 1 := ⟨fuel - 1, by omega⟩
        have hvalue : (BitVec.ofNat w i).toNat = i := by
          rw [BitVec.toNat_ofNat, Nat.mod_eq_of_lt (by omega)]
        rw [whileLoop_go (by rw [hvalue, hbound]; simp; omega)]
        have hnext : BitVec.ofNat w i + 1 = BitVec.ofNat w (i + 1) := by
          apply BitVec.eq_of_toNat_eq
          simp [BitVec.toNat_add]
        rw [hnext]
        exact ih (i + 1) fuel (by omega) (by omega)
  unfold linkEntries
  have hstart := hloop (num.toNat - 1) 0 fuel (Nat.zero_add _) hfuel
  rw [show (0 : BitVec w) = BitVec.ofNat w 0 from rfl, hstart, Option.bind_some, hbound,
    BitVec.toNat_ofNat, Nat.mod_eq_of_lt (by omega), if_neg (Nat.lt_irrefl _)]

/-- For no entries the difference wraps, and the loop runs out of its memory. -/
private theorem linkEntries_zero (hroom : room < 2 ^ 32 - 1) :
    linkEntries w room 0 fuel = none := by
  have hbound : ((0 : BitVec 32) - 1).toNat = 2 ^ 32 - 1 := rfl
  unfold linkEntries
  rw [hbound]
  cases hloop : whileLoop
      (fun i : BitVec w => decide (i.toNat < 2 ^ 32 - 1) && decide (i.toNat < room)) (· + 1)
      fuel 0 with
  | none => rfl
  | some i =>
      have hinside : i.toNat ≤ room := by
        refine (whileLoop_invariant (P := fun i : BitVec w => i.toNat ≤ room) ?_ ?_ hloop).1
        · intro i hgo hi
          simp only [Bool.and_eq_true, decide_eq_true_eq] at hgo
          have hstep : (i + 1).toNat ≤ i.toNat + 1 := by
            rw [BitVec.toNat_add]
            apply (Nat.mod_le _ _).trans
            apply Nat.add_le_add_left
            exact Nat.mod_le 1 _
          omega
        · simp
      rw [Option.bind_some, if_pos (by omega)]

private theorem vringNewVirtqueue_eq (hnum : num ≠ 0) (hpow : ∃ m, num.toNat = 2 ^ m)
    (hsmall : num.toNat ≤ 2 ^ 16) (hroom : num.toNat - 1 ≤ room) (hfuel : 2 ^ 16 ≤ fuel) :
    vringNewVirtqueue h room num fuel = some true := by
  have hpred := (and_pred_iff hnum).mpr hpow
  unfold vringNewVirtqueue vringNewVirtqueuePacked vringNewVirtqueueSplit
  rw [linkEntries_eq hnum hroom hsmall (by omega),
    linkEntries_eq hnum hroom (hsmall.trans (by decide)) (by omega), if_neg (not_not.mpr hpred)]
  exact ite_self _

private theorem vringNewVirtqueue_true (hnum : num ≠ 0) (hpow : ∃ m, num.toNat = 2 ^ m)
    {made : Bool} (hmade : vringNewVirtqueue h room num fuel = some made) : made = true := by
  have hpred := (and_pred_iff hnum).mpr hpow
  unfold vringNewVirtqueue vringNewVirtqueuePacked vringNewVirtqueueSplit at hmade
  rw [if_neg (not_not.mpr hpred)] at hmade
  split_ifs at hmade
  · obtain ⟨-, -, hmade⟩ := Option.map_eq_some_iff.mp hmade
    exact hmade.symm
  · obtain ⟨-, -, hmade⟩ := Option.map_eq_some_iff.mp hmade
    exact hmade.symm

private theorem vringNewVirtqueue_zero (hroom : room < 2 ^ 32 - 1) :
    vringNewVirtqueue h room 0 fuel = none := by
  unfold vringNewVirtqueue vringNewVirtqueuePacked vringNewVirtqueueSplit
  rw [linkEntries_zero hroom, linkEntries_zero hroom]
  simp

private theorem le_linkRoom {offered size : BitVec 16} (hle : size.toNat ≤ offered.toNat) :
    size.toNat ≤ linkRoom h offered size := by
  unfold linkRoom vringPciSize vringSizeSplit
  split_ifs
  · exact hle
  · omega

private theorem linkRoom_zero (offered : BitVec 16) : linkRoom h offered 0 < 2 ^ 32 - 1 := by
  unfold linkRoom
  split_ifs
  · exact offered.isLt.trans (by decide)
  · decide

theorem GrantedAt.unique {j : ℕ} (hj : GrantedAt h index j) (hk : GrantedAt h index k) : j = k := by
  rcases Nat.lt_trichotomy j k with hlt | heq | hgt
  · exact absurd hj.granted (by simp [(hk.refused j hlt).1])
  · exact heq
  · exact absurd hk.granted (by simp [(hj.refused k hgt).1])

structure Requesting (h : QueueHost) (index : ℕ) (t : PagesRequest) : Prop where
  refused : ∀ j < t.refused, h.grantsPages index j = false ∧ sizeAt h index j ≠ 0
  size : t.num.toNat = sizeAt h index t.refused
  gaveUp : t.gaveUp = true → h.grantsPages index t.refused = false ∧ t.num = 0

private theorem sizeAt_succ (h : QueueHost) (index k : ℕ) :
    sizeAt h index (k + 1) = sizeAt h index k / 2 := by
  unfold sizeAt
  rw [Nat.pow_succ, Nat.div_div_eq_div_mul]

private theorem requestBody_requesting {t : PagesRequest} (hgo : requestCond h index t = true)
    (ht : Requesting h index t) : Requesting h index (requestBody t) := by
  have hcond : t.gaveUp = false ∧ h.grantsPages index t.refused = false := by
    simpa [requestCond] using hgo
  unfold requestBody
  split_ifs with hnum
  · have hsize : sizeAt h index t.refused ≠ 0 := by
      rw [← ht.size]
      exact Nat.ne_of_gt (toNat_pos hnum)
    refine ⟨?_, ?_, ?_⟩
    · intro j hj
      rcases Nat.lt_succ_iff_lt_or_eq.mp hj with hlt | heq
      · exact ht.refused j hlt
      · rw [heq]
        exact ⟨hcond.2, hsize⟩
    · rw [sizeAt_succ, ← ht.size]
      exact BitVec.toNat_udiv
    · intro hgave
      rw [hcond.1] at hgave
      cases hgave
  · exact ⟨ht.refused, ht.size, fun _ => ⟨hcond.2, not_not.mp hnum⟩⟩

/-- The loop ends with the first request granted, or when one for no entries is refused. -/
private theorem requestPages_result {t : PagesRequest}
    (hloop : requestPages h index (h.queueSize index) fuel = some t) :
    (t.gaveUp = false ∧ GrantedAt h index t.refused ∧ t.num.toNat = sizeAt h index t.refused) ∨
      (t.gaveUp = true ∧ ∀ k, ¬ GrantedAt h index k) := by
  have hstart : Requesting h index ⟨h.queueSize index, 0, false⟩ := by
    refine ⟨fun j hj => absurd hj (Nat.not_lt_zero j), ?_, fun hgave => Bool.noConfusion hgave⟩
    simp [sizeAt]
  obtain ⟨ht, hstop⟩ := whileLoop_invariant (fun t hgo ht => requestBody_requesting hgo ht) hstart
    hloop
  cases hgave : t.gaveUp with
  | false =>
      have hgranted : h.grantsPages index t.refused = true := by
        simpa [requestCond, hgave] using hstop
      exact Or.inl ⟨rfl, ⟨hgranted, ht.refused⟩, ht.size⟩
  | true =>
      right
      refine ⟨rfl, fun k hk => ?_⟩
      obtain ⟨hrefused, hzero⟩ := ht.gaveUp hgave
      have hsize : sizeAt h index t.refused = 0 := by
        rw [← ht.size, hzero]
        rfl
      rcases Nat.lt_trichotomy k t.refused with hlt | heq | hgt
      · exact absurd hk.granted (by simp [(ht.refused k hlt).1])
      · exact absurd hk.granted (by simp [heq, hrefused])
      · exact (hk.refused t.refused hgt).2 hsize

/-- A size of so many bits is halved to nothing in so many turns. -/
private theorem requestPages_isSome {size : BitVec 16} (hfuel : 17 ≤ fuel) :
    (requestPages h index size fuel).isSome = true := by
  have hloop : ∀ bits fuel (t : PagesRequest), t.num.toNat < 2 ^ bits → bits < fuel →
      (whileLoop (requestCond h index) requestBody fuel t).isSome = true := by
    intro bits
    induction bits with
    | zero =>
        intro fuel t hsize hfuel
        obtain ⟨fuel, rfl⟩ : ∃ f, fuel = f + 1 := ⟨fuel - 1, by omega⟩
        have hzero : t.num = 0 := by
          apply BitVec.eq_of_toNat_eq
          simpa using hsize
        cases hgo : requestCond h index t with
        | false => simp [whileLoop_stop hgo]
        | true =>
            rw [whileLoop_go hgo, whileLoop_stop]
            · rfl
            · simp [requestBody, requestCond, hzero]
    | succ bits ih =>
        intro fuel t hsize hfuel
        obtain ⟨fuel, rfl⟩ : ∃ f, fuel = f + 1 := ⟨fuel - 1, by omega⟩
        cases hgo : requestCond h index t with
        | false => simp [whileLoop_stop hgo]
        | true =>
            rw [whileLoop_go hgo]
            apply ih fuel _ _ (by omega)
            unfold requestBody
            split_ifs with hnum
            · rw [BitVec.toNat_udiv]
              have htwo : (2 : BitVec 16).toNat = 2 := rfl
              rw [htwo]
              omega
            · rw [not_not.mp hnum]
              exact Nat.two_pow_pos bits
  exact hloop 16 fuel _ size.isLt (by omega)

end

/-! ## Setting up and deleting a queue -/

/-- The constructor has come back for this queue, and does so again. -/
structure CreatedQueue.Sound (vq : CreatedQueue) : Prop where
  nonzero : vq.num ≠ 0
  pow : ∃ m, vq.num.toNat = 2 ^ m
  small : vq.num.toNat ≤ 2 ^ 16
  room : vq.num.toNat ≤ vq.room

/-- Only the queue `index` may have changed. -/
structure Others (index : ℕ) (s s' : Transport) : Prop where
  maxQueues : s'.maxQueues = s.maxQueues
  infoBlock : s'.infoBlock = s.infoBlock
  infoRoom : s'.infoRoom = s.infoRoom
  info : ∀ j, j ≠ index → s'.info j = s.info j
  writtenSize : ∀ j, j ≠ index → s'.writtenSize j = s.writtenSize j

/-- What is granted on the way of a setup that fails is given back, or nothing is. -/
def Settled (b b' : Book) : Prop := ∀ held, b.Balances held → b'.Balances held

inductive SetupResult (h : QueueHost) (index : ℕ) (s : Transport) :
    Except QueueStatus Unit × Transport → Prop where
  | made {s' : Transport} {vq : CreatedQueue} {num : BitVec 16} (hmade : Made h index)
      (hothers : Others index s s') (hpages : s'.pages = s.pages.grant)
      (hblocks : s'.blocks = s.blocks.grant)
      (hinfo : s'.info index = ⟨some vq, num, some s.pages.granted⟩)
      (hcontrol : vq.control = s.blocks.granted) (hsound : vq.Sound)
      (hpow : ∃ m, num.toNat = 2 ^ m) (hle : num ≤ h.queueSize index)
      (hwritten : s'.writtenSize index = some num) : SetupResult h index s (.ok (), s')
  | stranded {status : QueueStatus} {s' : Transport} (hnot : ¬ Supplied h index)
      (hothers : Others index s s') (hvq : (s'.info index).vq = (s.info index).vq)
      (hpages : s'.pages = s.pages.grant) (hblocks : s'.blocks = s.blocks) :
      SetupResult h index s (.error status, s')
  | failed {status : QueueStatus} {s' : Transport} (hnot : ¬ Made h index)
      (hsupplied : Supplied h index) (hothers : Others index s s')
      (hvq : (s'.info index).vq = (s.info index).vq) (hpages : Settled s.pages s'.pages)
      (hblocks : Settled s.blocks s'.blocks) : SetupResult h index s (.error status, s')

theorem settled_refl (b : Book) : Settled b b := fun _ hheld => hheld

private theorem settled_back (b : Book) : Settled b (b.grant.giveBack b.granted) :=
  fun _ hheld => hheld.grant.giveBack (List.Perm.refl _)

section

variable {h : QueueHost} {fuel index k page : ℕ} {num : BitVec 16} {vq : CreatedQueue}
  {s s' : Transport}

private theorem CreatedQueue.Sound.withAddr (hsound : vq.Sound) (addr : Option ℕ) :
    CreatedQueue.Sound { vq with notificationAddr := addr } :=
  ⟨hsound.nonzero, hsound.pow, hsound.small, hsound.room⟩

theorem CreatedQueue.Sound.shutdown (hsound : vq.Sound) (hfuel : 2 ^ 16 ≤ fuel) :
    shutdownQueue h vq fuel = some () := by
  unfold shutdownQueue
  have hroom := hsound.room
  rw [vringNewVirtqueue_eq hsound.nonzero hsound.pow hsound.small (by omega) hfuel]
  rfl

@[simp] theorem setInfo_self (s : Transport) (index : ℕ) (info : QueueInfo) :
    (s.setInfo index info).info index = info := Function.update_self _ _ _

theorem setInfo_of_ne {j : ℕ} (hj : j ≠ index) (s : Transport) (info : QueueInfo) :
    (s.setInfo index info).info j = s.info j := Function.update_of_ne hj _ _

@[simp] theorem takePages_self (s : Transport) (index : ℕ) (num : BitVec 16) :
    (s.takePages index num).info index = ⟨(s.info index).vq, num, some s.pages.granted⟩ :=
  setInfo_self _ _ _

private theorem takePages_others (s : Transport) (index : ℕ) (num : BitVec 16) :
    Others index s (s.takePages index num) :=
  ⟨rfl, rfl, rfl, fun _ hj => setInfo_of_ne hj _ _, fun _ _ => rfl⟩

private theorem query_refused (hnot : ¬ Offered h index) :
    ∃ status select, vioModernQueryVqAlloc h index s =
      (.error status, { s with queueSelect := select }) := by
  unfold vioModernQueryVqAlloc
  dsimp only
  split_ifs with hindex hzero hpow
  · exact ⟨_, s.queueSelect, rfl⟩
  · exact ⟨_, _, rfl⟩
  · exact ⟨_, _, rfl⟩
  · have hselect : (BitVec.ofNat 16 index).toNat = index := by
      have hfew := h.numQueues.isLt
      rw [BitVec.toNat_ofNat, Nat.mod_eq_of_lt (by omega)]
    rw [hselect] at hzero hpow
    exact absurd ⟨by omega, hzero, not_not.mp hpow⟩ hnot

theorem Offered.select (hoffered : Offered h index) : (BitVec.ofNat 16 index).toNat = index := by
  have hfew := h.numQueues.isLt
  have hindex := hoffered.1
  rw [BitVec.toNat_ofNat, Nat.mod_eq_of_lt (by omega)]

private theorem query_offered (hoffered : Offered h index) : vioModernQueryVqAlloc h index s =
    (.ok (h.queueSize index), { s with queueSelect := BitVec.ofNat 16 index }) := by
  obtain ⟨hindex, hzero, hpow⟩ := id hoffered
  unfold vioModernQueryVqAlloc
  dsimp only
  rw [if_neg (by omega), hoffered.select, if_neg hzero, if_neg (not_not.mpr hpow)]

private theorem Offered.sizeAt_pow (hoffered : Offered h index) (hsize : sizeAt h index k ≠ 0) :
    ∃ m, sizeAt h index k = 2 ^ m := by
  obtain ⟨m, hm⟩ := (and_pred_iff hoffered.2.1).mp hoffered.2.2
  unfold sizeAt at hsize ⊢
  rw [hm] at hsize ⊢
  have hle : k ≤ m := by
    by_contra hlt
    apply hsize
    apply Nat.div_eq_of_lt
    exact Nat.pow_lt_pow_right (by decide) (by omega)
  exact ⟨m - k, Nat.pow_div hle (by decide)⟩

private theorem activateVq_ok (fuel page : ℕ) (vq : CreatedQueue) (s : Transport)
    (hact : Activates h index) (hselect : s.queueSelect.toNat = index) :
    ∃ addr enable, activateVq h fuel index (h.msixVector (some index)) page vq s =
      some (.ok { vq with notificationAddr := addr },
        { s with
          writtenSize := Function.update s.writtenSize index (some (vq.num.setWidth 16))
          queueEnable := enable }) := by
  obtain ⟨addr, haddr⟩ := Option.ne_none_iff_exists'.mp hact.1
  unfold activateVq
  dsimp only
  rw [hselect, haddr]
  dsimp only
  rw [if_neg hact.2]
  exact ⟨_, _, rfl⟩

private theorem activateVq_error (fuel page : ℕ) (vq : CreatedQueue) (s : Transport)
    (hnot : ¬ Activates h index) (hselect : s.queueSelect.toNat = index) :
    ∃ status, activateVq h fuel index (h.msixVector (some index)) page vq s =
      (shutdownQueue h vq fuel).map fun _ => (.error status,
        { s with
          writtenSize := Function.update s.writtenSize index (some (vq.num.setWidth 16))
          }.freeQueue page vq.control) := by
  unfold activateVq
  dsimp only
  rw [hselect]
  cases haddr : notificationAddr h.device h.vdev (h.queueNotifyOff index) with
  | none => exact ⟨_, rfl⟩
  | some addr =>
      dsimp only
      split_ifs with hvector
      · exact ⟨_, rfl⟩
      · refine absurd ⟨?_, hvector⟩ hnot
        rw [haddr]
        exact Option.some_ne_none addr

private theorem newVq_sound (hoffered : Offered h index) (hnum : num.toNat = sizeAt h index k)
    (hsize : sizeAt h index k ≠ 0) (control : ℕ) :
    (newVq h index (h.queueSize index) num control).Sound := by
  have hwide : (num.setWidth 32).toNat = num.toNat := by
    rw [BitVec.toNat_setWidth]
    exact Nat.mod_eq_of_lt (num.isLt.trans (by decide))
  have hle : num.toNat ≤ (h.queueSize index).toNat := by
    rw [hnum]
    exact Nat.div_le_self _ _
  refine ⟨?_, ?_, ?_, ?_⟩
  · intro hzero
    change num.setWidth 32 = 0 at hzero
    apply hsize
    rw [← hnum, ← hwide, hzero]
    rfl
  · change ∃ m, (num.setWidth 32).toNat = 2 ^ m
    rw [hwide, hnum]
    exact hoffered.sizeAt_pow hsize
  · change (num.setWidth 32).toNat ≤ 2 ^ 16
    rw [hwide]
    exact Nat.le_of_lt num.isLt
  · change (num.setWidth 32).toNat ≤ linkRoom h (h.queueSize index) num
    rw [hwide]
    exact le_linkRoom hle

/-- The setup behind the loop, for pages granted with the `k`-th request. -/
private theorem createVq_result (hoffered : Offered h index) (hk : GrantedAt h index k)
    (hnum : num.toNat = sizeAt h index k) {r : Except QueueStatus CreatedQueue × Transport}
    (hcreate : createVq h fuel index (h.msixVector (some index)) (h.queueSize index) num
      { s with queueSelect := BitVec.ofNat 16 index } = some r) :
    SetupResult h index s (noteVq index r) := by
  have hselect := hoffered.select
  unfold createVq at hcreate
  dsimp only at hcreate
  split_ifs at hcreate with hcontrol
  · obtain ⟨made, hmade, hrest⟩ := Option.bind_eq_some_iff.mp hcreate
    have hsize : sizeAt h index k ≠ 0 := by
      intro hzero
      have hnone : num = 0 := by
        apply BitVec.eq_of_toNat_eq
        rw [hnum, hzero]
        rfl
      rw [hnone] at hmade
      have hcomes : vringNewVirtqueue h (linkRoom h (h.queueSize index) 0) 0 fuel = none :=
        vringNewVirtqueue_zero (linkRoom_zero (h.queueSize index))
      exact Option.some_ne_none made (hmade.symm.trans hcomes)
    have hsupplied : Supplied h index := by
      intro _ j hj
      rw [hj.unique hk]
      exact ⟨hsize, hcontrol⟩
    have hsound := newVq_sound hoffered hnum hsize s.blocks.granted
    have hsetWidth : (num.setWidth 32).setWidth 16 = num := by
      apply BitVec.eq_of_toNat_eq
      simp
    rw [vringNewVirtqueue_true hsound.nonzero hsound.pow hmade, if_pos rfl] at hrest
    by_cases hact : Activates h index
    · obtain ⟨addr, enable, hactivate⟩ := activateVq_ok fuel s.pages.granted
        (newVq h index (h.queueSize index) num s.blocks.granted)
        ({ s with queueSelect := BitVec.ofNat 16 index }.takePages index num).takeControl
        hact hselect
      rw [← Option.some.inj (hactivate.symm.trans hrest)]
      have hmadeAll : Made h index := ⟨hoffered, ⟨k, hk, hsize⟩, hcontrol, hact⟩
      refine @SetupResult.made h index s _ _ num hmadeAll ⟨rfl, rfl, rfl, ?_, ?_⟩ rfl rfl ?_ rfl
        (hsound.withAddr addr) ?_ ?_ ?_
      · intro j hj
        rw [setInfo_of_ne hj]
        exact (takePages_others s index num).info j hj
      · intro j hj
        change Function.update s.writtenSize index (some ((num.setWidth 32).setWidth 16)) j = _
        exact Function.update_of_ne hj _ _
      · rw [setInfo_self]
        simp [Transport.takeControl]
      · rw [hnum]
        exact hoffered.sizeAt_pow hsize
      · rw [BitVec.le_def, hnum]
        exact Nat.div_le_self _ _
      · change Function.update s.writtenSize index (some ((num.setWidth 32).setWidth 16)) index = _
        rw [Function.update_self, hsetWidth]
    · obtain ⟨status, hactivate⟩ := activateVq_error fuel s.pages.granted
        (newVq h index (h.queueSize index) num s.blocks.granted)
        ({ s with queueSelect := BitVec.ofNat 16 index }.takePages index num).takeControl
        hact hselect
      obtain ⟨-, -, hr⟩ := Option.map_eq_some_iff.mp (hactivate.symm.trans hrest)
      rw [← hr]
      apply SetupResult.failed (fun hmade => hact hmade.2.2.2) hsupplied
      · refine ⟨rfl, rfl, rfl, (takePages_others s index num).info, ?_⟩
        intro j hj
        change Function.update s.writtenSize index (some ((num.setWidth 32).setWidth 16)) j = _
        exact Function.update_of_ne hj _ _
      · change ((s.takePages index num).info index).vq = _
        rw [takePages_self]
      · exact settled_back s.pages
      · exact settled_back s.blocks
  · rw [← Option.some.inj hcreate]
    have hnot : ¬ Supplied h index := by
      intro hsupplied
      exact hcontrol (hsupplied hoffered k hk).2
    change SetupResult h index s (.error .insufficientResources,
      { s with queueSelect := BitVec.ofNat 16 index }.takePages index num)
    apply SetupResult.stranded hnot
    · exact ⟨rfl, rfl, rfl, (takePages_others s index num).info, fun _ _ => rfl⟩
    · change ((s.takePages index num).info index).vq = _
      rw [takePages_self]
    · rfl
    · rfl

theorem vpSetupVq_result {r : Except QueueStatus Unit × Transport}
    (hsetup : vpSetupVq h fuel index (h.msixVector (some index)) s = some r) :
    SetupResult h index s r := by
  obtain ⟨r', hmodern, rfl⟩ := Option.map_eq_some_iff.mp hsetup
  unfold vioModernSetupVq at hmodern
  by_cases hoffered : Offered h index
  · rw [query_offered hoffered] at hmodern
    dsimp only at hmodern
    split_ifs at hmodern with hroom
    obtain ⟨t, ht, hrest⟩ := Option.bind_eq_some_iff.mp hmodern
    rcases requestPages_result ht with ⟨hgave, hk, hnum⟩ | ⟨hgave, hnone⟩
    · rw [if_neg (by simp [hgave])] at hrest
      exact createVq_result hoffered hk hnum hrest
    · rw [if_pos hgave] at hrest
      rw [← Option.some.inj hrest]
      apply SetupResult.failed
      · intro hmade
        obtain ⟨k, hk, -⟩ := hmade.2.1
        exact hnone k hk
      · intro _ k hk
        exact absurd hk (hnone k)
      · exact ⟨rfl, rfl, rfl, fun j hj => setInfo_of_ne hj _ _, fun _ _ => rfl⟩
      · rw [setInfo_self]
      · exact settled_refl s.pages
      · exact settled_refl s.blocks
  · obtain ⟨status, select, hquery⟩ := query_refused (s := s) hoffered
    rw [hquery] at hmodern
    rw [← Option.some.inj hmodern]
    exact SetupResult.failed (fun hmade => hoffered hmade.1) (fun h => absurd h hoffered)
      ⟨rfl, rfl, rfl, fun _ _ => rfl, fun _ _ => rfl⟩ rfl (settled_refl _) (settled_refl _)

private theorem activateVq_isSome (hsound : vq.Sound) (hfuel : 2 ^ 16 ≤ fuel)
    (msixVec : BitVec 16) :
    (activateVq h fuel index msixVec page vq s).isSome = true := by
  unfold activateVq
  dsimp only
  cases notificationAddr h.device h.vdev (h.queueNotifyOff s.queueSelect.toNat) with
  | none =>
      dsimp only
      rw [hsound.shutdown hfuel]
      rfl
  | some addr =>
      dsimp only
      rw [(hsound.withAddr (some addr)).shutdown hfuel]
      split_ifs <;> rfl

private theorem createVq_isSome (hoffered : Offered h index) (hnum : num.toNat = sizeAt h index k)
    (hsize : sizeAt h index k ≠ 0) (hfuel : 2 ^ 16 ≤ fuel) (msixVec : BitVec 16) :
    (createVq h fuel index msixVec (h.queueSize index) num s).isSome = true := by
  unfold createVq
  dsimp only
  split_ifs
  · have hsound := newVq_sound hoffered hnum hsize (s.takePages index num).blocks.granted
    rw [vringNewVirtqueue_eq hsound.nonzero hsound.pow hsound.small
      ((Nat.sub_le _ _).trans hsound.room) hfuel, Option.bind_some, if_pos rfl]
    exact activateVq_isSome hsound hfuel msixVec
  · rfl

theorem vpSetupVq_isSome (hroom : index < s.infoRoom) (hsupplied : Supplied h index)
    (hfuel : 2 ^ 16 ≤ fuel) (msixVec : BitVec 16) :
    (vpSetupVq h fuel index msixVec s).isSome = true := by
  unfold vpSetupVq vioModernSetupVq
  rw [Option.isSome_map]
  by_cases hoffered : Offered h index
  · rw [query_offered hoffered]
    dsimp only
    rw [if_neg (by omega)]
    obtain ⟨t, ht⟩ : ∃ t, requestPages h index (h.queueSize index) fuel = some t :=
      Option.isSome_iff_exists.mp (requestPages_isSome (by omega))
    rw [ht, Option.bind_some]
    rcases requestPages_result ht with ⟨hgave, hk, hnum⟩ | ⟨hgave, -⟩
    · rw [if_neg (by simp [hgave])]
      exact createVq_isSome hoffered hnum (hsupplied hoffered _ hk).1 hfuel msixVec
    · rw [if_pos hgave]
      rfl
  · obtain ⟨status, select, hquery⟩ := query_refused (s := s) hoffered
    rw [hquery]
    rfl

theorem Made.supplied (hmade : Made h index) : Supplied h index := by
  obtain ⟨-, ⟨k, hk, hsize⟩, hcontrol, -⟩ := hmade
  intro _ j hj
  rw [hj.unique hk]
  exact ⟨hsize, hcontrol⟩

end

end Viosnd.Pci
