import Viosnd.Basic
import Viosnd.Lib.Tokens
import Viosnd.Wdf.BufferSafety

/-!
# The sliced DMA pool

`VirtIOWdfDeviceAllocDmaMemorySliced` of `WDF/Dma.c` cuts a common buffer into slices and notes
those it gave out in a bitmap, whose buffer begins with the last member of
`VIRTIO_DMA_MEMORY_SLICED` and goes on behind the structure. A pool has one thread at a time; the
other common buffers of the driver come and go between its calls.
-/

namespace Viosnd.Wdf

open StepRun

/-! ## Bitmaps -/

/-- `sizeof(VIRTIO_DMA_MEMORY_SLICED)`. -/
def sizeofSliced : ℕ := 72

/-- The offset of `bitmap_buffer`, an array of one `ULONG`. -/
def bitmapBufferOffset : ℕ := 68

def bitmapBits (memory : Memory) (i : ℕ) : Bool :=
  (memory (bitmapBufferOffset + i / 8)).getLsbD (i % 8)

/-- `RtlFindClearBitsAndSet` for one bit, which `find` finds. -/
def rtlFindClearBitsAndSet (find : ULONG → (ℕ → Bool) → ULONG) (size : ULONG) (bits : ℕ → Bool) :
    ULONG × (ℕ → Bool) :=
  let index := find size bits
  if index = maxULONG then (index, bits) else (index, Function.update bits index.toNat true)

/-- What is documented of the search: it finds a clear bit, or answers `0xFFFFFFFF` when there is
none. -/
structure FindsClear (find : ULONG → (ℕ → Bool) → ULONG) : Prop where
  found : ∀ size bits, (∃ i < size.toNat, bits i = false) →
    (find size bits).toNat < size.toNat ∧ bits (find size bits).toNat = false
  full : ∀ size bits, (∀ i < size.toNat, bits i = true) → find size bits = maxULONG

def findLowest (size : ULONG) (bits : ℕ → Bool) : ULONG :=
  match (List.range size.toNat).find? fun i => !bits i with
  | some i => BitVec.ofNat 32 i
  | none => maxULONG

theorem findLowest_findsClear : FindsClear findLowest where
  found size bits hclear := by
    obtain ⟨i, hi, hbit⟩ := hclear
    have hsome : ((List.range size.toNat).find? fun i => !bits i).isSome = true := by
      rw [List.find?_isSome]
      exact ⟨i, List.mem_range.mpr hi, by simp [hbit]⟩
    obtain ⟨j, hj⟩ := Option.isSome_iff_exists.mp hsome
    have hlt := List.mem_range.mp (List.mem_of_find?_eq_some hj)
    have hclear := List.find?_some hj
    have hnat : (BitVec.ofNat 32 j).toNat = j := by
      rw [BitVec.toNat_ofNat]
      apply Nat.mod_eq_of_lt
      omega
    unfold findLowest
    rw [hj]
    dsimp only
    rw [hnat]
    exact ⟨hlt, by simpa using hclear⟩
  full size bits hset := by
    have hnone : ((List.range size.toNat).find? fun i => !bits i) = none := by
      rw [List.find?_eq_none]
      intro i hi
      simp [hset i (List.mem_range.mp hi)]
    unfold findLowest
    rw [hnone]

/-! ## The pool -/

/-- `VIRTIO_DMA_MEMORY_SLICED` without the pointers to its routines and to the driver. -/
structure SlicedPool where
  pa : ℕ
  va : ℕ
  /-- `bitmap.SizeOfBitMap`. -/
  sizeOfBitMap : ULONG
  slice : ULONG
  /-- The bits from `bitmap_buffer` on. -/
  bitmap : ℕ → Bool

/-- `AllocateCommonBuffer` without interruption: what WDF finds and grants, and `none` for
`NULL`. -/
def allocateCommonBuffer (b : Blocks) (size : ℕ) (tag : BitVec 32) (passive : Bool)
    (common : Option (ℕ × ℕ)) (added : Bool) : Option ℕ × Blocks :=
  if passive then
    match common with
    | none => (none, b)
    | some (virtual, logical) =>
        let created := b.create size virtual logical
        if added then
          let stored := (created.add b.created tag).touch [b.created]
          (some (stored.context b.created).pVirtualAddress, stored.touch [b.created])
        else (none, created.delete b.created)
  else (none, b)

/-- `allocSize`. -/
def slicedAllocSize (blockSize : BitVec 64) (sliceSize : ULONG) : ℕ :=
  sizeofSliced + blockSize.toNat / sliceSize.toNat / 8 + 4

/-- `VirtIOWdfDeviceAllocDmaMemorySliced`; `memory` is what the pool memory holds, `none` when there
is none. -/
def virtIOWdfDeviceAllocDmaMemorySliced (b : Blocks) (blockSize : BitVec 64) (sliceSize : ULONG)
    (passive : Bool) (memory : Option Memory) (common : Option (ℕ × ℕ)) (added : Bool) :
    Option SlicedPool × Blocks :=
  match memory with
  | none => (none, b)
  | some memory =>
      let p := memory.zero 0 sizeofSliced
      let block := allocateCommonBuffer b blockSize.toNat 0 passive common added
      let va := block.1.getD 0
      let pa := (getPhysicalAddress block.2 va).getD 0
      if va = 0 ∨ pa = 0 then (none, block.2)
      else
        (some {
          pa := pa
          va := va
          sizeOfBitMap := blockSize.setWidth 32 / sliceSize
          slice := sliceSize
          bitmap := bitmapBits p }, block.2)

/-- What `get_slice` gives out. -/
structure DmaSlice where
  va : ℕ
  pa : ℕ
  deriving DecidableEq

/-- `AllocateSlice`. -/
def allocateSlice (find : ULONG → (ℕ → Bool) → ULONG) (p : SlicedPool) :
    Option DmaSlice × SlicedPool :=
  let found := rtlFindClearBitsAndSet find p.sizeOfBitMap p.bitmap
  let p := { p with bitmap := found.2 }
  if p.sizeOfBitMap ≤ found.1 then (none, p)
  else
    let offset := p.slice * found.1
    (some ⟨p.va + offset.toNat, p.pa + offset.toNat⟩, p)

/-- `FreeSlice`. -/
def freeSlice (b : Blocks) (va : ℕ) (p : SlicedPool) : SlicedPool :=
  match b.find va false with
  | none => p
  | some o =>
      let offset := va - (b.context o).pVirtualAddress
      if offset % p.slice.toNat ≠ 0 then p
      else
        let index : ULONG := BitVec.ofNat 32 (offset / p.slice.toNat)
        if p.bitmap index.toNat = false then p
        else { p with bitmap := Function.update p.bitmap index.toNat false }

/-- `WdfCommonBufferCreate` finds memory that is not part of a common buffer. -/
def FreshCommon (b : Blocks) (size : ℕ) (common : Option (ℕ × ℕ)) : Prop :=
  ∀ m ∈ common, ∀ o < b.created, b.deletions o = 0 →
    m.1 + size ≤ (b.buffer o).virtualAddress ∨
      (b.buffer o).virtualAddress + (b.buffer o).length ≤ m.1

/-! ## Runs -/

/-- A pool with the slices it gave out and did not get back, and the driver's common buffers. -/
structure SlicedUse where
  pool : SlicedPool
  blocks : Blocks
  held : List DmaSlice

inductive SliceCall where
  | getSlice
  | returnSlice (va : ℕ)
  /-- Meanwhile other common buffers are allocated and freed. -/
  | elsewhere (b : Blocks)

def SlicedUse.step (find : ULONG → (ℕ → Bool) → ULONG) (s : SlicedUse) : SliceCall → SlicedUse
  | .getSlice =>
      let r := allocateSlice find s.pool
      { s with pool := r.2, held := s.held ++ r.1.toList }
  | .returnSlice va =>
      { s with
        pool := freeSlice s.blocks va s.pool
        held := s.held.filter fun x => decide (x.va ≠ va) }
  | .elsewhere b => { s with blocks := b }

/-- The common buffer that the pool cuts into slices. -/
def SlicedPool.block (p : SlicedPool) (blockSize : BitVec 64) : CommonBuffer :=
  ⟨p.va, p.pa, blockSize.toNat⟩

/-- It is among the live common buffers. -/
def SlicedPool.BlockIn (p : SlicedPool) (blockSize : BitVec 64) (b : Blocks) : Prop :=
  ∃ o, b.live o = true ∧ b.buffer o = p.block blockSize

/-- No address of another common buffer is returned, and the others do not free the block of the
pool. -/
def ReturnsOwn (blockSize : BitVec 64) (s : SlicedUse) : SliceCall → Prop
  | .getSlice => True
  | .returnSlice va => ∀ o, s.blocks.live o = true → (s.blocks.buffer o).covers va →
      s.blocks.buffer o = s.pool.block blockSize
  | .elsewhere b => b.Sound ∧ s.pool.BlockIn blockSize b

/-- The slice at the address can be given out. -/
def SlicedPool.Available (p : SlicedPool) (va : ℕ) : Prop :=
  ∃ i < p.sizeOfBitMap.toNat, p.bitmap i = false ∧ va = p.va + p.slice.toNat * i

/-- What a pool owes its callers at any moment. -/
structure SlicesRight (find : ULONG → (ℕ → Bool) → ULONG) (blockSize : BitVec 64)
    (s : SlicedUse) : Prop where
  gets : (allocateSlice find s.pool).1.isSome = true ↔
    s.held.length < blockSize.toNat / s.pool.slice.toNat
  inside : ∀ x ∈ s.held,
    s.pool.va ≤ x.va ∧ x.va + s.pool.slice.toNat ≤ s.pool.va + blockSize.toNat
  apart : s.held.Pairwise fun x y =>
    x.va + s.pool.slice.toNat ≤ y.va ∨ y.va + s.pool.slice.toNat ≤ x.va
  /-- The two addresses are one, for the pool and for `GetPhysicalAddress`. -/
  physical : ∀ x ∈ s.held,
    x.pa = s.pool.pa + (x.va - s.pool.va) ∧ getPhysicalAddress s.blocks x.va = some x.pa
  returns : ∀ x ∈ s.held, ∀ va,
    (freeSlice s.blocks x.va s.pool).Available va ↔ s.pool.Available va ∨ va = x.va

end Viosnd.Wdf
