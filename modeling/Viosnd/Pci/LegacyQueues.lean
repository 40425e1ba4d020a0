import Viosnd.Lib.Runs
import Viosnd.Pci.QueueCreation

/-!
# Queues of a legacy device

`virtio_find_queues` and `virtio_delete_queues` with the legacy transport, called any number of
times, with resets of the device between them. A queue is active while the register of its page
frame is not zero; the ring, its control block included, lies in the pages that start there.
-/

namespace Viosnd.Pci.Legacy

open Ledger

/-- What the device and the system decide during a call. -/
structure LegacyHost where
  /-- `VIRTIO_PCI_QUEUE_NUM` of each queue. -/
  queueNum : ℕ → BitVec 16
  /-- What the vector registers hold when a vector has been written to them. -/
  msixConfig : BitVec 16 → BitVec 16
  queueMsixVector : ℕ → BitVec 16 → BitVec 16
  /-- `vdev_get_msix_vector`, with `none` for the index -1. -/
  msixVector : Option ℕ → BitVec 16
  grantsInfos : Bool
  /-- The address of the pages that a queue gets. -/
  pages : ℕ → Option (BitVec 64)

/-- `struct virtqueue`. -/
structure LegacyQueue where
  index : BitVec 32
  num : BitVec 32

structure LegacyInfo where
  vq : Option LegacyQueue
  num : BitVec 16
  /-- The number of the pages. -/
  queue : Option ℕ

/-- The transport, with the registers of the device and the books of the two allocators. -/
structure LegacyTransport where
  queueSel : BitVec 16
  /-- `VIRTIO_PCI_QUEUE_PFN` of each queue. -/
  queuePfn : BitVec 16 → BitVec 32
  maxQueues : BitVec 32
  info : ℕ → LegacyInfo
  /-- The block of `info`, `none` for `inline_info`, and how many infos fit. -/
  infoBlock : Option ℕ
  infoRoom : ℕ
  pages : Book
  /-- Where the pages lie. -/
  address : ℕ → BitVec 64
  blocks : Book

def LegacyTransport.setInfo (s : LegacyTransport) (index : ℕ) (info : LegacyInfo) :
    LegacyTransport := { s with
  info := Function.update s.info index info }

/-- A write to `VIRTIO_PCI_QUEUE_PFN`. -/
def LegacyTransport.writePfn (s : LegacyTransport) (pfn : BitVec 32) : LegacyTransport := { s with
  queuePfn := Function.update s.queuePfn s.queueSel pfn }

/-- The address without `VIRTIO_PCI_QUEUE_ADDR_SHIFT` bits, in a register of 32 bits. -/
def pageFrame (address : BitVec 64) : BitVec 32 := (address >>> 12).setWidth 32

/-! ## One queue -/

def vioLegacyQueryVqAlloc (h : LegacyHost) (index : ℕ) (s : LegacyTransport) :
    Except QueueStatus (BitVec 16) × LegacyTransport :=
  let s := { s with
    queueSel := BitVec.ofNat 16 index }
  let num := h.queueNum s.queueSel.toNat
  if num = 0 ∨ s.queuePfn s.queueSel ≠ 0 then (.error .notFound, s) else (.ok num, s)

/-- The entries that the pages of a ring have room for. -/
def ringRoom (num : BitVec 16) : ℕ := (vringSizeSplit num.toNat 4096 + 4095) / 4096 * 4096 / 16

def LegacyTransport.takePages (s : LegacyTransport) (index : ℕ) (address : BitVec 64) :
    LegacyTransport :=
  { s with
    pages := s.pages.grant
    address := Function.update s.address s.pages.granted address }.setInfo index { s.info index with
      queue := some s.pages.granted }

/-- The labels at the end of `vio_legacy_setup_vq`. -/
def LegacyTransport.deactivate (s : LegacyTransport) (page : ℕ) : LegacyTransport := { s with
  queuePfn := Function.update s.queuePfn s.queueSel 0
  pages := s.pages.giveBack page }

/-- `vio_legacy_setup_vq`; `none` when `info` lies behind its block. -/
def vioLegacySetupVq (h : LegacyHost) (fuel index : ℕ) (msixVec : BitVec 16)
    (s : LegacyTransport) : Option (Except QueueStatus LegacyQueue × LegacyTransport) :=
  match vioLegacyQueryVqAlloc h index s with
  | (.error status, s) => some (.error status, s)
  | (.ok num, s) =>
      if s.infoRoom ≤ index then none
      else
        let s := s.setInfo index { s.info index with
          num := num }
        match h.pages index with
        | none => some (.error .insufficientResources, s.setInfo index { s.info index with
            queue := none })
        | some address =>
            let page := s.pages.granted
            let s := (s.takePages index address).writePfn (pageFrame address)
            (vringNewVirtqueueSplit (ringRoom num) (num.setWidth 32) fuel).bind fun made =>
              if made = false then some (.error .insufficientResources, s.deactivate page)
              else if msixVec ≠ virtioMsiNoVector ∧
                  h.queueMsixVector index msixVec = virtioMsiNoVector then
                some (.error .deviceBusy, s.deactivate page)
              else some (.ok ⟨BitVec.ofNat 32 index, num.setWidth 32⟩, s)

def vpSetupVq (h : LegacyHost) (fuel index : ℕ) (msixVec : BitVec 16) (s : LegacyTransport) :
    Option (Except QueueStatus Unit × LegacyTransport) :=
  (vioLegacySetupVq h fuel index msixVec s).map fun r =>
    match r with
    | (.error status, s) => (.error status, s)
    | (.ok vq, s) => (.ok (), s.setInfo index { s.info index with
        vq := some vq })

/-- `vio_legacy_del_vq`. -/
def vioLegacyDelVq (vq : LegacyQueue) (queue : Option ℕ) (s : LegacyTransport) : LegacyTransport :=
  let s := { s with
    queueSel := vq.index.setWidth 16 }.writePfn 0
  { s with
    pages := queue.elim s.pages s.pages.giveBack }

/-! ## All queues -/

/-- The loop of `virtio_delete_queues` from the queue `i` on. -/
def deleteFrom : (count i : ℕ) → LegacyTransport → Option LegacyTransport
  | 0, _, s => some s
  | count + 1, i, s =>
      if s.infoRoom ≤ i then none
      else
        match (s.info i).vq with
        | none => deleteFrom count (i + 1) s
        | some vq =>
            let s := vioLegacyDelVq vq (s.info i).queue s
            deleteFrom count (i + 1) (s.setInfo i { s.info i with
              vq := none })

def virtioDeleteQueues (s : LegacyTransport) : Option LegacyTransport :=
  deleteFrom s.maxQueues.toNat 0 s

/-- `virtio_reserve_queue_memory`. -/
def virtioReserveQueueMemory (h : LegacyHost) (nvqs : BitVec 32) (s : LegacyTransport) :
    Except QueueStatus Unit × LegacyTransport :=
  if s.maxQueues < nvqs then
    if h.grantsInfos then
      (.ok (), { s with
        info := fun _ => ⟨none, 0, none⟩
        infoBlock := some s.blocks.granted
        infoRoom := (nvqs * queueDescriptorSize).toNat / queueDescriptorSize.toNat
        blocks := s.infoBlock.elim s.blocks.grant s.blocks.grant.giveBack
        maxQueues := nvqs })
    else (.error .insufficientResources, s)
  else (.ok (), s)

/-- The loop of `virtio_find_queues` from the queue `i` on. -/
def setupFrom (h : LegacyHost) (fuel : ℕ) :
    (count i : ℕ) → LegacyTransport → Option (Except QueueStatus Unit × LegacyTransport)
  | 0, _, s => some (.ok (), s)
  | count + 1, i, s =>
      (vpSetupVq h fuel i (h.msixVector (some i)) s).bind fun r =>
        match r with
        | (.error status, s) => some (.error status, s)
        | (.ok (), s) => setupFrom h fuel count (i + 1) s

/-- A vector for configuration changes that the device does not take. -/
def LegacyHost.refusesConfigVector (h : LegacyHost) : Bool :=
  h.msixVector none != virtioMsiNoVector &&
    h.msixConfig (h.msixVector none) == virtioMsiNoVector

/-- `error_find`. -/
def errorFind (status : QueueStatus) (s : LegacyTransport) :
    Option (Except QueueStatus Unit × LegacyTransport) :=
  (virtioDeleteQueues s).map fun s => (.error status, s)

def virtioFindQueues (h : LegacyHost) (fuel : ℕ) (nvqs : BitVec 32) (s : LegacyTransport) :
    Option (Except QueueStatus Unit × LegacyTransport) :=
  match virtioReserveQueueMemory h nvqs s with
  | (.error status, s) => some (.error status, s)
  | (.ok (), s) =>
      if h.refusesConfigVector then errorFind .deviceBusy s
      else
        (setupFrom h fuel nvqs.toNat 0 s).bind fun r =>
          match r with
          | (.error status, s) => errorFind status s
          | (.ok (), s) => some (.ok (), s)

/-! ## Runs -/

inductive LegacyCall where
  | reserve (h : LegacyHost) (nvqs : BitVec 32)
  | findQueues (h : LegacyHost) (nvqs : BitVec 32)
  | deleteQueues
  /-- `virtio_delete_queue` of a queue that exists. -/
  | deleteQueue (index : ℕ)
  /-- `vio_legacy_reset`, which makes the device forget its queues. -/
  | reset

structure LegacyWorld where
  transport : LegacyTransport
  /-- A call has not come back. -/
  stuck : Bool
  /-- The answer of the last call, if it was to find queues. -/
  found : Option (BitVec 32 × Except QueueStatus Unit)

/-- The constructors of the queues take `fuel` turns at most. -/
def LegacyWorld.step (fuel : ℕ) (w : LegacyWorld) (call : LegacyCall) : LegacyWorld :=
  if w.stuck then w
  else
    let w := { w with
      found := none }
    let stuck := { w with
      stuck := true }
    match call with
    | .reserve h nvqs => { w with
        transport := (virtioReserveQueueMemory h nvqs w.transport).2 }
    | .findQueues h nvqs => (virtioFindQueues h fuel nvqs w.transport).elim stuck fun r => { w with
        transport := r.2
        found := some (nvqs, r.1) }
    | .deleteQueues => (virtioDeleteQueues w.transport).elim stuck fun s => { w with
        transport := s }
    | .deleteQueue i =>
        match (w.transport.info i).vq with
        | none => w
        | some vq =>
            let s := vioLegacyDelVq vq (w.transport.info i).queue w.transport
            { w with
              transport := s.setInfo i { s.info i with
                vq := none } }
    | .reset => { w with
        transport := { w.transport with
          queuePfn := fun _ => 0 } }

/-- A device that was reset, with a transport that has no queue yet. -/
def LegacyWorld.fresh (maxQueues : BitVec 32) (external : Bool) : LegacyWorld where
  transport := {
    queueSel := 0
    queuePfn := fun _ => 0
    maxQueues := maxQueues
    info := fun _ => ⟨none, 0, none⟩
    infoBlock := if external then some 0 else none
    infoRoom := maxQueues.toNat
    pages := ⟨0, []⟩
    address := fun _ => 0
    blocks := ⟨if external then 1 else 0, []⟩ }
  stuck := false
  found := none

end Viosnd.Pci.Legacy
