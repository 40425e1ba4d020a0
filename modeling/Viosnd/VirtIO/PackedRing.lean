import Viosnd.Lib.Laps
import Viosnd.VirtIO.SplitRing

/-!
# The packed virtqueue

`struct virtqueue_packed` of `VirtIORing-Packed.c`, the ring of descriptors it shares with the
device, and the routines that add and get buffers. Indices are natural numbers; the ring is zeroed
memory when the queue is created.
-/

namespace Viosnd.VirtIO

/-- The bits of `vring_packed_desc.flags`. -/
structure PackedFlags where
  next : Bool
  write : Bool
  indirect : Bool
  avail : Bool
  used : Bool
  deriving DecidableEq

structure PackedDesc where
  addr : BitVec 64
  len : BitVec 32
  id : U16
  flags : PackedFlags

/-- A descriptor of an indirect page, which only has the bit `VRING_DESC_F_WRITE`. -/
structure PackedTableDesc where
  addr : BitVec 64
  len : BitVec 32
  write : Bool

/-- `struct vring_desc_state_packed`. -/
structure DescState (β : Type) where
  data : Option β
  num : ℕ
  next : ℕ
  last : ℕ

/-- The two bits of `avail_used_flags`. -/
structure WrapFlags where
  avail : Bool
  used : Bool
  deriving DecidableEq

def WrapFlags.flip (f : WrapFlags) : WrapFlags := ⟨!f.avail, !f.used⟩

structure PackedRing (β : Type) where
  num : ℕ
  desc : ℕ → PackedDesc
  numAdded : BitVec 32
  freeHead : ℕ
  numFree : ℕ
  lastUsedIdx : ℕ
  availUsedFlags : WrapFlags
  availWrapCounter : Bool
  usedWrapCounter : Bool
  nextAvailIdx : ℕ
  eventFlagsShadow : U16
  /-- `vring.driver->off_wrap`. -/
  offWrap : U16
  descState : ℕ → DescState β
  /-- What the driver wrote to indirect pages, by physical address. -/
  tables : BitVec 64 → List PackedTableDesc

variable {β : Type}

/-- `vring_new_virtqueue_packed`. -/
def vringNewVirtqueuePacked (β : Type) (num : ℕ) : PackedRing β where
  num := num
  desc _ := ⟨0, 0, 0, ⟨false, false, false, false, false⟩⟩
  numAdded := 0
  freeHead := 0
  numFree := num
  lastUsedIdx := 0
  availUsedFlags := ⟨true, false⟩
  availWrapCounter := true
  usedWrapCounter := true
  nextAvailIdx := 0
  eventFlagsShadow := 0
  offWrap := 0
  descState i := ⟨none, 0, if i < num - 1 then i + 1 else 0, 0⟩
  tables _ := []

/-- The link of a buffer id, also the link of the free list. -/
def PackedRing.nextId (q : PackedRing β) (id : ℕ) : ℕ := (q.descState id).next

/-! ## Adding -/

/-- The flags of the `n`-th of `count` descriptors, the first `out` of them read by the device. -/
def PackedRing.partFlags (q : PackedRing β) (out count n : ℕ) : PackedFlags where
  next := decide (n ≠ count - 1)
  write := decide (out ≤ n)
  indirect := false
  avail := q.availUsedFlags.avail
  used := q.availUsedFlags.used

/-- The variables of the loop over the parts of a direct chain. -/
structure FillPlace where
  i : ℕ
  curr : ℕ
  prev : ℕ

/-- One part; the flags of the first descriptor are written last of all. -/
def fillPackedDesc (out count id n : ℕ) (sg : Scatter) (p : FillPlace) (q : PackedRing β) :
    FillPlace × PackedRing β :=
  let flags := if n = 0 then (q.desc p.i).flags else q.partFlags out count n
  let q := { q with
    desc := Function.update q.desc p.i ⟨sg.physAddr, sg.length, BitVec.ofNat 16 id, flags⟩ }
  if q.num ≤ p.i + 1 then
    (⟨0, q.nextId p.curr, p.curr⟩, { q with
      availUsedFlags := q.availUsedFlags.flip })
  else (⟨p.i + 1, q.nextId p.curr, p.curr⟩, q)

def fillPackedDescs (out count id : ℕ) :
    (n : ℕ) → List Scatter → FillPlace → PackedRing β → FillPlace × PackedRing β
  | _, [], p, q => (p, q)
  | n, sg :: rest, p, q =>
      let filled := fillPackedDesc out count id n sg p q
      fillPackedDescs out count id (n + 1) rest filled.1 filled.2

/-- The branch with `out + in` regular descriptors; `none` stands for `-ENOSPC`. -/
def addPackedDirect (sgs : List Scatter) (out : ℕ) (io : β) (id : ℕ) (q : PackedRing β) :
    Option (PackedRing β) :=
  let count := sgs.length
  let head := q.nextAvailIdx
  if q.numFree < count then none
  else
    let headFlags := q.partFlags out count 0
    let filled := fillPackedDescs out count id 0 sgs ⟨head, id, 0⟩ q
    let place := filled.1
    let q := filled.2
    some { q with
      availWrapCounter := if place.i < head then !q.availWrapCounter else q.availWrapCounter
      numFree := q.numFree - count
      nextAvailIdx := place.i
      freeHead := place.curr
      descState := Function.update q.descState id { q.descState id with
        num := count % 2 ^ 16, data := some io, last := place.prev }
      desc := Function.update q.desc head { q.desc head with
        flags := headFlags }
      numAdded := q.numAdded + BitVec.ofNat 32 count }

/-- The branch with one indirect descriptor. -/
def addPackedIndirect (sgs : List Scatter) (out : ℕ) (io : β) (page : IndirectPage) (id : ℕ)
    (q : PackedRing β) : PackedRing β :=
  let head := q.nextAvailIdx
  let wraps := decide (q.num ≤ head + 1)
  { q with
    tables := Function.update q.tables page.phys
      (sgs.mapIdx fun i sg => ⟨sg.physAddr, sg.length, decide (out ≤ i)⟩)
    desc := Function.update q.desc head
      ⟨page.phys, BitVec.ofNat 32 (16 * sgs.length), BitVec.ofNat 16 id,
        ⟨false, false, true, q.availUsedFlags.avail, q.availUsedFlags.used⟩⟩
    nextAvailIdx := if wraps then 0 else head + 1
    availWrapCounter := if wraps then !q.availWrapCounter else q.availWrapCounter
    availUsedFlags := if wraps then q.availUsedFlags.flip else q.availUsedFlags
    numFree := q.numFree - 1
    numAdded := q.numAdded + 1
    freeHead := q.nextId id
    descState := Function.update q.descState id { q.descState id with
      num := 1, data := some io, last := id } }

/-- `virtqueue_add_buf_packed` for `sg :: rest`. The outer `none` stands for a call that does not
return: `BUG_ON`, or the loop over an indirect table with more parts than its `u16` can count. -/
def virtqueueAddBufPacked (sg : Scatter) (rest : List Scatter) (out : ℕ) (io : β)
    (indirect : Option IndirectPage) (q : PackedRing β) : Option (Option (PackedRing β)) :=
  let id := q.freeHead % 2 ^ 16
  if q.num ≤ id then none
  else match indirect with
    | some page =>
        if 0 < q.numFree then
          if 2 ^ 16 ≤ rest.length + 1 then none
          else some (some (addPackedIndirect (sg :: rest) out io page id q))
        else some (addPackedDirect (sg :: rest) out io id q)
    | none => some (addPackedDirect (sg :: rest) out io id q)

/-! ## Getting -/

def detachBufPacked (id : ℕ) (q : PackedRing β) : PackedRing β :=
  let state := q.descState id
  let cleared := Function.update q.descState id { state with
    data := none }
  { q with
    descState := Function.update cleared state.last { cleared state.last with
      next := q.freeHead % 2 ^ 16 }
    freeHead := id
    numFree := q.numFree + state.num }

def isUsedDescPacked (q : PackedRing β) (idx : ℕ) (usedWrapCounter : Bool) : Bool :=
  let flags := (q.desc idx).flags
  flags.avail == flags.used && flags.used == usedWrapCounter

/-- `VRING_PACKED_EVENT_FLAG_DESC`. -/
def packedEventFlagDesc : U16 := 2

/-- `last_used_idx` behind the chain that was got. -/
def passUsed (count : ℕ) (q : PackedRing β) : PackedRing β :=
  let lastUsedIdx := (q.lastUsedIdx + count) % 2 ^ 16
  if q.num ≤ lastUsedIdx then { q with
    lastUsedIdx := lastUsedIdx - q.num
    usedWrapCounter := !q.usedWrapCounter }
  else { q with
    lastUsedIdx := lastUsedIdx }

/-- The device is told which entry the driver waits for. -/
def expectUsed (q : PackedRing β) : PackedRing β :=
  if q.eventFlagsShadow = packedEventFlagDesc then { q with
    offWrap := BitVec.ofNat 16 q.lastUsedIdx |||
      (BitVec.ofBool q.usedWrapCounter).setWidth 16 <<< 15 }
  else q

/-- `virtqueue_get_buf_packed`: the buffer with its length, or `none` for `NULL`. The outer `none`
stands for `BAD_RING`. -/
def virtqueueGetBufPacked (q : PackedRing β) :
    Option (Option (β × BitVec 32) × PackedRing β) :=
  if isUsedDescPacked q q.lastUsedIdx q.usedWrapCounter = false then some (none, q)
  else
    let elem := q.desc q.lastUsedIdx
    let id := elem.id.toNat
    if q.num ≤ id then none
    else match (q.descState id).data with
      | none => none
      | some io =>
          let freed := detachBufPacked id q
          some (some (io, elem.len), expectUsed (passUsed (freed.descState id).num freed))

end Viosnd.VirtIO
