import Mathlib.Data.List.Basic
import Mathlib.Logic.Function.Basic
import Viosnd.Lib.Runs

/-!
# The common buffers of a WDF driver

`AllocateCommonBuffer`, `FindCommonBuffer` and `FindCommonBufferByTag` of `WDF/Dma.c` on any number
of threads. Common buffers are WDF objects in the collection `MemoryBlockCollection`; each critical
section of `DmaSpinlock` is one step, and so is each access between two of them.
-/

namespace Viosnd.Wdf

open StepRun

/-- What `WdfCommonBufferCreate` gives. -/
structure CommonBuffer where
  virtualAddress : ℕ
  logicalAddress : ℕ
  length : ℕ
  deriving DecidableEq

/-- `VIRTIO_WDF_MEMORY_BLOCK_CONTEXT`. -/
structure MemoryBlockContext where
  physicalAddress : ℕ
  pVirtualAddress : ℕ
  length : ℕ
  groupTag : BitVec 32
  bToBeDeleted : Bool
  deriving DecidableEq

/-- The step a thread makes next; an object is known by the number of objects created before it. -/
inductive Place where
  | idle
  /-- `WdfCommonBufferCreate`. -/
  | allocating (size : ℕ) (tag : BitVec 32)
  /-- The critical section with `WdfCollectionAdd`. -/
  | adding (obj : ℕ) (tag : BitVec 32)
  /-- `RtlZeroMemory`. -/
  | zeroing (obj : ℕ)
  /-- `DPrintf` and `return context->pVirtualAddress`. -/
  | returning (obj : ℕ)
  /-- `FindCommonBuffer` without removal. -/
  | locating (va : ℕ)
  /-- The first critical section of `FindCommonBuffer` with removal. -/
  | freeing (va : ℕ) (passive : Bool)
  /-- The second one. -/
  | removing (obj : ℕ)
  /-- `WdfObjectDelete`. -/
  | deleting (obj : ℕ)
  /-- The first critical section of `FindCommonBufferByTag`. -/
  | seeking (tag : BitVec 32)
  /-- `DPrintf` with `context->pVirtualAddress`. -/
  | printing (obj : ℕ) (tag : BitVec 32)
  /-- The second critical section. -/
  | taking (obj : ℕ) (tag : BitVec 32)
  /-- `WdfObjectDelete`, before the next turn of the loop. -/
  | dropping (obj : ℕ) (tag : BitVec 32)
  deriving DecidableEq

/-- The objects, and what was done to them. -/
structure Blocks where
  /-- The number of objects created. -/
  created : ℕ
  buffer : ℕ → CommonBuffer
  /-- `GetMemoryBlockContext`. -/
  context : ℕ → MemoryBlockContext
  /-- `MemoryBlockCollection`. -/
  collection : List ℕ
  /-- How often `WdfObjectDelete` was called for an object. -/
  deletions : ℕ → ℕ
  /-- An object, its context or its memory was touched when it was deleted. -/
  touchedDeleted : Bool
  /-- The blocks that are not yet freed: a block is freed when a free finds its address or a removal
  takes it out of the collection. -/
  live : ℕ → Bool

/-- The objects and the threads. -/
structure Store (τ : Type) extends Blocks where
  places : τ → Place
  /-- What the last call of a thread returned. -/
  answer : τ → Option ℕ

/-- No common buffers, and no thread in a routine. -/
def Store.fresh (τ : Type) : Store τ where
  created := 0
  buffer _ := ⟨0, 0, 0⟩
  context _ := ⟨0, 0, 0, 0, false⟩
  collection := []
  deletions _ := 0
  touchedDeleted := false
  live _ := false
  places _ := .idle
  answer _ := none

/-! ## The objects -/

def Blocks.touch (b : Blocks) (objs : List ℕ) : Blocks :=
  { b with touchedDeleted := b.touchedDeleted || objs.any fun o => decide (b.deletions o ≠ 0) }

/-- `WdfCommonBufferCreate` with the addresses it finds. -/
def Blocks.create (b : Blocks) (size : ℕ) (virtual logical : ℕ) : Blocks :=
  { b with
    created := b.created + 1
    buffer := Function.update b.buffer b.created ⟨virtual, logical, size⟩ }

/-- `WdfCollectionAdd`, and the context is filled in. -/
def Blocks.add (b : Blocks) (obj : ℕ) (tag : BitVec 32) : Blocks :=
  { b with
    collection := b.collection ++ [obj]
    context := Function.update b.context obj
      { physicalAddress := (b.buffer obj).logicalAddress
        pVirtualAddress := (b.buffer obj).virtualAddress
        length := (b.buffer obj).length
        groupTag := tag
        bToBeDeleted := false }
    live := Function.update b.live obj true }

/-- `context->bToBeDeleted = TRUE`. -/
def Blocks.mark (b : Blocks) (obj : ℕ) : Blocks :=
  { b with
    context := Function.update b.context obj { b.context obj with bToBeDeleted := true }
    live := Function.update b.live obj false }

/-- `WdfCollectionRemove`. -/
def Blocks.remove (b : Blocks) (obj : ℕ) : Blocks :=
  { b.touch [obj] with
    collection := b.collection.erase obj
    live := Function.update b.live obj false }

/-- `WdfObjectDelete`. -/
def Blocks.delete (b : Blocks) (obj : ℕ) : Blocks :=
  { b.touch [obj] with deletions := Function.update b.deletions obj (b.deletions obj + 1) }

/-! ## The searches -/

/-- The items a loop over the collection comes to that breaks at the first one with `p`. -/
def visited (p : ℕ → Bool) : List ℕ → List ℕ
  | [] => []
  | o :: rest => if p o then [o] else o :: visited p rest

/-- The test in the loop of `FindCommonBuffer`. -/
def MemoryBlockContext.matches (c : MemoryBlockContext) (va : ℕ) (bRemoval : Bool) : Bool :=
  !(c.bToBeDeleted && !bRemoval) && decide (c.pVirtualAddress ≤ va) &&
    decide (va < c.pVirtualAddress + c.length)

def Blocks.find (b : Blocks) (va : ℕ) (bRemoval : Bool) : Option ℕ :=
  b.collection.find? fun o => (b.context o).matches va bRemoval

/-- The item that begins at the address, which a removal marks. -/
def Blocks.toFree (b : Blocks) (va : ℕ) : Option ℕ :=
  (b.find va true).filter fun o => decide (va - (b.context o).pVirtualAddress = 0)

/-- The first item with the tag. -/
def Blocks.tagged (b : Blocks) (tag : BitVec 32) : Option ℕ :=
  b.collection.find? fun o => (b.context o).groupTag == tag

/-- `GetPhysicalAddress`; `none` when nothing was found. -/
def getPhysicalAddress (b : Blocks) (va : ℕ) : Option ℕ :=
  (b.find va false).map fun o =>
    (b.context o).physicalAddress + (va - (b.context o).pVirtualAddress)

/-! ## The steps -/

section

variable {τ : Type} [DecidableEq τ]

/-- The thread goes on to a place, and leaves the objects as they are now. -/
def Store.goTo (s : Store τ) (t : τ) (b : Blocks) (p : Place) : Store τ :=
  { s with
    toBlocks := b
    places := Function.update s.places t p }

def Store.finish (s : Store τ) (t : τ) (b : Blocks) (answer : Option ℕ) : Store τ :=
  { s.goTo t b .idle with answer := Function.update s.answer t answer }

def allocate (s : Store τ) (t : τ) (size : ℕ) (tag : BitVec 32) : Option (ℕ × ℕ) → Store τ
  | none => s.finish t s.toBlocks none
  | some (virtual, logical) => s.goTo t (s.create size virtual logical) (.adding s.created tag)

/-- The block is added, or deleted when `WdfCollectionAdd` fails. -/
def add (s : Store τ) (t : τ) (obj : ℕ) (tag : BitVec 32) (added : Bool) : Store τ :=
  if added then s.goTo t (s.toBlocks.add obj tag) (.zeroing obj)
  else s.finish t (s.delete obj) none

/-- `FindCommonBuffer` with removal, up to the test of the IRQL. -/
def free (s : Store τ) (t : τ) (va : ℕ) (passive : Bool) : Store τ :=
  let b := s.touch (visited (fun o => (s.context o).matches va true) s.collection)
  match b.toFree va with
  | none => s.finish t b none
  | some obj => s.goTo t (b.mark obj) (if passive then .removing obj else .idle)

/-- `FindCommonBufferByTag`, up to its first release of the lock. -/
def seek (s : Store τ) (t : τ) (tag : BitVec 32) : Store τ :=
  let b := s.touch (visited (fun o => (s.context o).groupTag == tag) s.collection)
  match b.tagged tag with
  | none => s.finish t b none
  | some obj => s.goTo t b (.printing obj tag)

/-- `GetPhysicalAddress`. -/
def locate (s : Store τ) (t : τ) (va : ℕ) : Store τ :=
  let b := s.touch (visited (fun o => (s.context o).matches va false) s.collection)
  s.finish t b (getPhysicalAddress b va)

inductive Call where
  | allocDmaMemory (size : ℕ) (tag : BitVec 32) (passive : Bool)
  | freeDmaMemory (va : ℕ) (passive : Bool)
  | freeDmaMemoryByTag (tag : BitVec 32) (passive : Bool)
  | getPhysicalAddress (va : ℕ)

/-- Allocation and the free by tag refuse to run above PASSIVE_LEVEL, the latter also for tag 0. -/
def Call.enter : Call → Place
  | .allocDmaMemory size tag passive => if passive then .allocating size tag else .idle
  | .freeDmaMemory va passive => .freeing va passive
  | .freeDmaMemoryByTag tag passive => if passive ∧ tag ≠ 0 then .seeking tag else .idle
  | .getPhysicalAddress va => .locating va

inductive Input (τ : Type) where
  | call (t : τ) (c : Call)
  /-- The next step of a thread, with what WDF finds or grants in it. -/
  | next (t : τ) (memory : Option (ℕ × ℕ)) (added : Bool)

def move (s : Store τ) (t : τ) (memory : Option (ℕ × ℕ)) (added : Bool) : Place → Store τ
  | .idle => s
  | .allocating size tag => allocate s t size tag memory
  | .adding obj tag => add s t obj tag added
  | .zeroing obj => s.goTo t (s.touch [obj]) (.returning obj)
  | .returning obj => s.finish t (s.touch [obj]) (some (s.context obj).pVirtualAddress)
  | .locating va => locate s t va
  | .freeing va passive => free s t va passive
  | .removing obj => s.goTo t (s.remove obj) (.deleting obj)
  | .deleting obj => s.finish t (s.delete obj) none
  | .seeking tag => seek s t tag
  | .printing obj tag => s.goTo t (s.touch [obj]) (.taking obj tag)
  | .taking obj tag => s.goTo t (s.remove obj) (.dropping obj tag)
  | .dropping obj tag => s.goTo t (s.delete obj) (.seeking tag)

def step (s : Store τ) : Input τ → Store τ
  | .call t c => if s.places t = .idle then s.goTo t s.toBlocks c.enter else s
  | .next t memory added => move s t memory added (s.places t)

/-! ## What the store owes its callers -/

def CommonBuffer.covers (b : CommonBuffer) (va : ℕ) : Prop :=
  b.virtualAddress ≤ va ∧ va < b.virtualAddress + b.length

/-- No object is deleted twice or touched when it is deleted, and an address is translated when it
lies in a block that is not yet freed. -/
structure BlocksRight (b : Blocks) : Prop where
  once : ∀ o, b.deletions o ≤ 1
  untouched : b.touchedDeleted = false
  located : ∀ va pa, getPhysicalAddress b va = some pa ↔
    ∃ o, b.live o = true ∧ (b.buffer o).covers va ∧
      pa = (b.buffer o).logicalAddress + (va - (b.buffer o).virtualAddress)

/-- `WdfCommonBufferCreate` finds memory that is not part of a common buffer. -/
def FreshMemory (s : Store τ) : Input τ → Prop
  | .call _ _ => True
  | .next t memory _ =>
      match s.places t, memory with
      | .allocating size _, some (virtual, _) => ∀ o < s.created, s.deletions o = 0 →
          virtual + size ≤ (s.buffer o).virtualAddress ∨
            (s.buffer o).virtualAddress + (s.buffer o).length ≤ virtual
      | _, _ => True

/-- No client frees an address twice: a free does not come to a block that a free has marked. -/
def FreedOnce (s : Store τ) : Input τ → Prop
  | .call _ _ => True
  | .next t _ _ =>
      match s.places t with
      | .freeing va _ => ∀ o ∈ s.toFree va, (s.context o).bToBeDeleted = false
      | _ => True

/-- The object a thread is about to add, or is going to delete. -/
def Place.owns : Place → Option ℕ
  | .adding obj _ | .removing obj | .deleting obj => some obj
  | .printing obj _ | .taking obj _ | .dropping obj _ => some obj
  | _ => none

/-- The object whose allocation has not returned. -/
def Place.uses : Place → Option ℕ
  | .zeroing obj | .returning obj => some obj
  | _ => none

/-- A thread that is going to delete a block does not find one that another thread is going to
delete, and when it deletes the block no other thread has still to return from its allocation. -/
def Unraced (s : Store τ) : Input τ → Prop
  | .call _ _ => True
  | .next t _ _ =>
      match s.places t with
      | .freeing va true => ∀ o ∈ s.toFree va, ∀ u, (s.places u).owns ≠ some o
      | .seeking tag => ∀ o ∈ s.tagged tag, ∀ u, (s.places u).owns ≠ some o
      | .deleting obj | .dropping obj _ => ∀ u, (s.places u).uses ≠ some obj
      | _ => True

end

end Viosnd.Wdf
