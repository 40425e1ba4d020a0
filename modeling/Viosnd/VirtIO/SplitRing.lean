import Viosnd.Basic
import Viosnd.Lib.Paths

/-!
# The split virtqueue

`struct virtqueue_split` of `VirtIORing.c`, the vring it shares with the device, and the routines
that add, get and detach buffers. Descriptor indices are natural numbers, the free-running ring
indices are 16-bit words.
-/

namespace Viosnd.VirtIO

open Paths

abbrev U16 := BitVec 16

/-- The three bits of `vring_desc.flags`. -/
structure DescFlags where
  next : Bool
  write : Bool
  indirect : Bool
  deriving DecidableEq

structure Desc where
  addr : BitVec 64
  len : BitVec 32
  flags : DescFlags
  next : ℕ

/-- `struct scatterlist`. -/
structure Scatter where
  physAddr : BitVec 64
  length : BitVec 32

structure UsedElem where
  id : BitVec 32
  len : BitVec 32

/-- An indirect page: its virtual address serves to fill it in, the device sees the physical one. -/
structure IndirectPage where
  phys : BitVec 64

structure SplitRing (β : Type) where
  num : ℕ
  desc : ℕ → Desc
  /-- `vring.avail->ring`. -/
  availRing : ℕ → ℕ
  /-- `vring.avail->idx`, which the device reads. -/
  availIdx : U16
  /-- `vring.used->ring`, written by the device. -/
  usedRing : ℕ → UsedElem
  /-- `vring.used->idx`, written by the device. -/
  usedIdx : U16
  /-- `vring_used_event`. -/
  usedEvent : U16
  /-- `master_vring_avail.flags & VIRTQ_AVAIL_F_NO_INTERRUPT`. -/
  noInterrupt : Bool
  /-- `master_vring_avail.idx`. -/
  masterIdx : U16
  numUnused : ℕ
  numAddedSinceKick : BitVec 32
  firstUnused : ℕ
  lastUsed : U16
  /-- The `opaque` pointers, `none` for `NULL`. -/
  data : ℕ → Option β
  /-- What the driver wrote to indirect pages, by physical address. -/
  tables : BitVec 64 → List Desc
  /-- `vdev->event_suppression_enabled`. -/
  eventSuppression : Bool

variable {β : Type}

/-- `vring_new_virtqueue_split`. -/
def vringNewVirtqueueSplit (β : Type) (num : ℕ) (eventSuppression : Bool) : SplitRing β where
  num := num
  desc i := ⟨0, 0, ⟨decide (i < num - 1), false, false⟩, if i < num - 1 then i + 1 else 0⟩
  availRing _ := 0
  availIdx := 0
  usedRing _ := ⟨0, 0⟩
  usedIdx := 0
  usedEvent := 0
  noInterrupt := false
  masterIdx := 0
  numUnused := num
  numAddedSinceKick := 0
  firstUnused := 0
  lastUsed := 0
  data _ := none
  tables _ := []
  eventSuppression := eventSuppression

/-- `DESC_INDEX`; `num` is a power of two. -/
def descIndex (num : ℕ) (idx : U16) : ℕ := idx.toNat % num

/-- The link of a descriptor, also the link of the free list. -/
def SplitRing.link (q : SplitRing β) (idx : ℕ) : ℕ := (q.desc idx).next

def SplitRing.more (q : SplitRing β) (idx : ℕ) : Bool := (q.desc idx).flags.next

/-! ## Descriptors -/

def getUnusedDesc (q : SplitRing β) : ℕ × SplitRing β :=
  (q.firstUnused, { q with firstUnused := q.link q.firstUnused, numUnused := q.numUnused - 1 })

/-- The writes of `put_unused_desc_chain` for a walk of `steps` links from `start` to `idx`. -/
def freeChain (start steps idx : ℕ) (q : SplitRing β) : SplitRing β :=
  { q with
    data := Function.update q.data start none
    desc := Function.update q.desc idx
      { q.desc idx with flags := ⟨true, false, false⟩, next := q.firstUnused }
    numUnused := q.numUnused + steps + 1
    firstUnused := start }

/-- `none` when the chain does not end: the loop runs on for ever. -/
def putUnusedDescChain (q : SplitRing β) (start : ℕ) : Option (SplitRing β) :=
  (walkTo q.link q.more q.num start).map fun walked => freeChain start walked.1.length walked.2 q

def fillDesc (sg : Scatter) (write : Bool) (q : SplitRing β) : ℕ × SplitRing β :=
  let taken := getUnusedDesc q
  (taken.1, { taken.2 with
    desc := Function.update taken.2.desc taken.1
      ⟨sg.physAddr, sg.length, ⟨true, write, false⟩, taken.2.firstUnused⟩ })

/-- The loop over the rest of the descriptors; the result is the last one filled. -/
def fillDescs (out : ℕ) : (i : ℕ) → List Scatter → ℕ → SplitRing β → ℕ × SplitRing β
  | _, [], lastIdx, q => (lastIdx, q)
  | i, sg :: rest, _, q =>
      let filled := fillDesc sg (decide (out ≤ i)) q
      fillDescs out (i + 1) rest filled.1 filled.2

/-- `desc[lastIdx].flags &= ~VIRTQ_DESC_F_NEXT`. -/
def endChain (lastIdx : ℕ) (q : SplitRing β) : SplitRing β :=
  { q with
    desc := Function.update q.desc lastIdx
      { q.desc lastIdx with flags := { (q.desc lastIdx).flags with next := false } } }

def indirectTable (out : ℕ) (sg : List Scatter) : List Desc :=
  sg.mapIdx fun i s =>
    ⟨s.physAddr, s.length, ⟨decide (i + 1 < sg.length), decide (out ≤ i), false⟩, i + 1⟩

/-! ## The operations -/

/-- The first descriptor goes to the available ring and the index is published. -/
def publish (idx : ℕ) (q : SplitRing β) : SplitRing β :=
  { q with
    availRing := Function.update q.availRing (descIndex q.num q.masterIdx) idx
    availIdx := q.masterIdx + 1
    masterIdx := q.masterIdx + 1
    numAddedSinceKick := q.numAddedSinceKick + 1 }

/-- `virtqueue_add_buf_split` for `sg :: rest`, the first `out` of them read by the device; `none`
stands for `-ENOSPC`. -/
def virtqueueAddBufSplit (sg : Scatter) (rest : List Scatter) (out : ℕ) (io : β)
    (indirect : Option IndirectPage) (q : SplitRing β) : Option (SplitRing β) :=
  match indirect with
  | some page =>
      if 1 < rest.length + 1 ∧ 0 < q.numUnused then
        let taken := getUnusedDesc q
        let idx := taken.1
        some (publish idx { taken.2 with
          tables := Function.update taken.2.tables page.phys (indirectTable out (sg :: rest))
          desc := Function.update taken.2.desc idx { taken.2.desc idx with
            flags := ⟨false, false, true⟩, addr := page.phys
            len := BitVec.ofNat 32 (16 * (rest.length + 1)) }
          data := Function.update taken.2.data idx (some io) })
      else addDirect
  | none => addDirect
where
  /-- The branch with `out + in` regular descriptors. -/
  addDirect : Option (SplitRing β) :=
    if q.numUnused < rest.length + 1 then none
    else
      let first := fillDesc sg (decide (out = 0)) q
      let filled := fillDescs out 1 rest first.1
        { first.2 with data := Function.update first.2.data first.1 (some io) }
      some (publish first.1 (endChain filled.1 filled.2))

/-- `virtqueue_get_buf_split`: the buffer with its length, or `none` for `NULL`. -/
def virtqueueGetBufSplit (q : SplitRing β) :
    Option (Option (Option β × BitVec 32) × SplitRing β) :=
  if q.lastUsed = q.usedIdx then some (none, q)
  else
    let elem := q.usedRing (descIndex q.num q.lastUsed)
    let idx := (elem.id.setWidth 16).toNat
    (putUnusedDescChain q idx).map fun freed =>
      let next := { freed with lastUsed := freed.lastUsed + 1 }
      (some (q.data idx, elem.len),
        if next.eventSuppression ∧ next.noInterrupt = false then
          { next with usedEvent := next.lastUsed }
        else next)

/-- The buffer `virtqueue_detach_unused_buf_split` finds: the lowest index in use. -/
def firstInUse (q : SplitRing β) : Option ℕ :=
  (List.range (q.num % 2 ^ 16)).find? fun idx => (q.data idx).isSome

def virtqueueDetachUnusedBufSplit (q : SplitRing β) : Option (Option β × SplitRing β) :=
  match firstInUse q with
  | none => some (none, q)
  | some idx => (putUnusedDescChain q idx).map fun freed =>
      (q.data idx, { freed with
        availIdx := freed.masterIdx - 1, masterIdx := freed.masterIdx - 1 })

end Viosnd.VirtIO
