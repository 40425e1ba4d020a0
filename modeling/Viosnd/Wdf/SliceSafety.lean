import Mathlib.Tactic
import Viosnd.Wdf.SlicedPool

/-!
# Safety of the sliced DMA pool

The bits of the bitmap that calls have set match the slices given out. This is all there is to a
pool whose bitmap began clear. Only the first 32 bits are cleared, and the number of bits comes from
the low half of the block size.
-/

namespace Viosnd.Wdf

open StepRun Tokens

/-! ## Slices and bits -/

def SlicedPool.sliceAt (p : SlicedPool) (i : ℕ) : DmaSlice :=
  ⟨p.va + p.slice.toNat * i, p.pa + p.slice.toNat * i⟩

def SlicedPool.indexOf (p : SlicedPool) (x : DmaSlice) : ℕ := (x.va - p.va) / p.slice.toNat

def SlicedPool.withBit (p : SlicedPool) (i : ℕ) (bit : Bool) : SlicedPool :=
  { p with bitmap := Function.update p.bitmap i bit }

/-- The slices held are those of the bits that are set, apart from the bits in `dirty`, which were
set from the beginning. -/
structure SlicedPool.Kept (p : SlicedPool) (dirty : ℕ → Bool) (held : List DmaSlice) : Prop where
  slice_pos : 0 < p.slice.toNat
  fits : p.slice.toNat * p.sizeOfBitMap.toNat < 2 ^ 32
  placed : ∀ x ∈ held, ∃ i < p.sizeOfBitMap.toNat, x = p.sliceAt i
  matched : Matched p.indexOf held fun i =>
    i < p.sizeOfBitMap.toNat ∧ p.bitmap i = true ∧ dirty i = false
  dirty_set : ∀ i, dirty i = true → p.bitmap i = true

section

variable {find : ULONG → (ℕ → Bool) → ULONG} {p : SlicedPool} {dirty : ℕ → Bool}
  {held : List DmaSlice} {b : Blocks} {blockSize : BitVec 64} {i va : ℕ}

theorem SlicedPool.kept_nil (hpos : 0 < p.slice.toNat)
    (hfits : p.slice.toNat * p.sizeOfBitMap.toNat < 2 ^ 32)
    (hset : ∀ i, dirty i = true → p.bitmap i = true)
    (hclear : ∀ i < p.sizeOfBitMap.toNat, dirty i = false → p.bitmap i = false) :
    p.Kept dirty [] := by
  refine ⟨hpos, hfits, fun x hx => absurd hx List.not_mem_nil, matched_nil ?_, hset⟩
  intro i hmarked
  have hbit := hclear i hmarked.1 hmarked.2.2
  simp [hbit] at hmarked

private theorem SlicedPool.indexOf_sliceAt (h : 0 < p.slice.toNat) (i : ℕ) :
    p.indexOf (p.sliceAt i) = i := by
  simp [indexOf, sliceAt, Nat.mul_div_cancel_left i h]

private theorem SlicedPool.sliceAt_va_inj (h : 0 < p.slice.toNat) {i j : ℕ} :
    (p.sliceAt i).va = (p.sliceAt j).va ↔ i = j := by
  simp [sliceAt, h.ne']

private theorem SlicedPool.sliceAt_apart {i j : ℕ} (hne : i ≠ j) :
    (p.sliceAt i).va + p.slice.toNat ≤ (p.sliceAt j).va ∨
      (p.sliceAt j).va + p.slice.toNat ≤ (p.sliceAt i).va := by
  have hstep : ∀ k l, k < l → p.slice.toNat * k + p.slice.toNat ≤ p.slice.toNat * l := by
    intro k l hlt
    rw [← Nat.mul_succ]
    exact Nat.mul_le_mul_left _ hlt
  simp only [sliceAt]
  rcases Nat.lt_or_gt_of_ne hne with hlt | hgt
  · have hfirst := hstep i j hlt
    omega
  · have hfirst := hstep j i hgt
    omega

/-! ## Taking a slice -/

private theorem allocateSlice_some (hfind : FindsClear find)
    (hfits : p.slice.toNat * p.sizeOfBitMap.toNat < 2 ^ 32)
    (hclear : ∃ i < p.sizeOfBitMap.toNat, p.bitmap i = false) :
    ∃ i < p.sizeOfBitMap.toNat, p.bitmap i = false ∧
      allocateSlice find p = (some (p.sliceAt i), p.withBit i true) := by
  obtain ⟨hlt, hbit⟩ := hfind.found p.sizeOfBitMap p.bitmap hclear
  refine ⟨_, hlt, hbit, ?_⟩
  have hnot : find p.sizeOfBitMap p.bitmap ≠ maxULONG := by
    intro heq
    rw [heq] at hlt
    have hmax : (maxULONG).toNat = 2 ^ 32 - 1 := rfl
    omega
  have hinside : ¬ p.sizeOfBitMap ≤ find p.sizeOfBitMap p.bitmap := by
    rw [BitVec.le_def]
    omega
  have hoffset : (p.slice * find p.sizeOfBitMap p.bitmap).toNat =
      p.slice.toNat * (find p.sizeOfBitMap p.bitmap).toNat := by
    rw [BitVec.toNat_mul]
    apply Nat.mod_eq_of_lt
    exact lt_of_le_of_lt (Nat.mul_le_mul_left _ hlt.le) hfits
  simp only [allocateSlice, rtlFindClearBitsAndSet, if_neg hnot, if_neg hinside, hoffset]
  rfl

private theorem allocateSlice_none (hfind : FindsClear find)
    (hset : ∀ i < p.sizeOfBitMap.toNat, p.bitmap i = true) :
    allocateSlice find p = (none, p) := by
  have hfull := hfind.full p.sizeOfBitMap p.bitmap hset
  have hout : p.sizeOfBitMap ≤ maxULONG := by
    rw [BitVec.le_def]
    exact Nat.le_pred_of_lt p.sizeOfBitMap.isLt
  simp [allocateSlice, rtlFindClearBitsAndSet, hfull, hout]

private theorem allocateSlice_cases (hfind : FindsClear find)
    (hfits : p.slice.toNat * p.sizeOfBitMap.toNat < 2 ^ 32) :
    (∃ i < p.sizeOfBitMap.toNat, p.bitmap i = false ∧
      allocateSlice find p = (some (p.sliceAt i), p.withBit i true)) ∨
    ((∀ i < p.sizeOfBitMap.toNat, p.bitmap i = true) ∧ allocateSlice find p = (none, p)) := by
  by_cases hclear : ∃ i < p.sizeOfBitMap.toNat, p.bitmap i = false
  · left
    exact allocateSlice_some hfind hfits hclear
  · right
    have hset : ∀ i < p.sizeOfBitMap.toNat, p.bitmap i = true := by simpa using hclear
    exact ⟨hset, allocateSlice_none hfind hset⟩

private theorem allocateSlice_isSome_iff (hfind : FindsClear find)
    (hfits : p.slice.toNat * p.sizeOfBitMap.toNat < 2 ^ 32) :
    (allocateSlice find p).1.isSome = true ↔ ∃ i < p.sizeOfBitMap.toNat, p.bitmap i = false := by
  rcases allocateSlice_cases hfind hfits with ⟨i, hi, hbit, hgot⟩ | ⟨hset, hgot⟩
  · exact iff_of_true (by simp [hgot]) ⟨i, hi, hbit⟩
  · simpa [hgot] using hset

theorem SlicedPool.Kept.add (h : p.Kept dirty held) (hi : i < p.sizeOfBitMap.toNat)
    (hbit : p.bitmap i = false) : (p.withBit i true).Kept dirty (held ++ [p.sliceAt i]) where
  slice_pos := h.slice_pos
  fits := h.fits
  placed := by
    intro x hx
    rcases List.mem_append.mp hx with hold | hnew
    · exact h.placed x hold
    · exact ⟨i, hi, List.mem_singleton.mp hnew⟩
  matched := by
    have hindex : p.indexOf (p.sliceAt i) = i := indexOf_sliceAt h.slice_pos i
    have hclean : dirty i = false := by
      by_contra hdirty
      have hset := h.dirty_set i (by simpa using hdirty)
      simp [hset] at hbit
    apply h.matched.add (List.perm_append_singleton _ _)
    · simp [hindex, hbit]
    · intro j
      rw [hindex]
      by_cases hj : j = i
      · subst hj
        simp [withBit, hi, hclean]
      · simp [withBit, hj]
  dirty_set := by
    intro j hj
    by_cases heq : j = i
    · simp [withBit, heq]
    · simp [withBit, heq, h.dirty_set j hj]

theorem SlicedPool.Kept.get (hfind : FindsClear find) (h : p.Kept dirty held) :
    (allocateSlice find p).2.Kept dirty (held ++ (allocateSlice find p).1.toList) := by
  rcases allocateSlice_cases hfind h.fits with ⟨i, hi, hbit, hgot⟩ | ⟨-, hgot⟩
  · rw [hgot]
    exact h.add hi hbit
  · rw [hgot]
    simpa using h

/-! ## Giving a slice back -/

private theorem freeSlice_slice (hb : b.Sound) (hblock : p.BlockIn blockSize b)
    (hsize : blockSize.toNat < 2 ^ 32) (hpos : 0 < p.slice.toNat)
    (hi : p.slice.toNat * i < blockSize.toNat) :
    freeSlice b (p.va + p.slice.toNat * i) p = p.withBit i false := by
  obtain ⟨o, hlive, hbuffer⟩ := hblock
  have hvirtual := (hb.described o ((hb.live o).mp hlive).1).virtual
  rw [hbuffer] at hvirtual
  have hfound : b.find (p.va + p.slice.toNat * i) false = some o := by
    rw [hb.find_eq_some_iff, hbuffer]
    exact ⟨hlive, Nat.le_add_right _ _, Nat.add_lt_add_left hi _⟩
  have hlt : i < 2 ^ 32 := by
    have hle := Nat.le_mul_of_pos_left i hpos
    omega
  have hindex : (BitVec.ofNat 32 i).toNat = i := by
    rw [BitVec.toNat_ofNat]
    exact Nat.mod_eq_of_lt hlt
  unfold freeSlice
  rw [hfound]
  dsimp only
  rw [hvirtual]
  simp only [SlicedPool.block, Nat.add_sub_cancel_left, Nat.mul_mod_right, ne_eq,
    not_true_eq_false, if_false, Nat.mul_div_cancel_left i hpos, hindex]
  split_ifs with hbit
  · unfold SlicedPool.withBit
    rw [← hbit, Function.update_eq_self]
  · rfl

private theorem freeSlice_other (hb : b.Sound)
    (hown : ∀ o, b.live o = true → (b.buffer o).covers va → b.buffer o = p.block blockSize)
    (hva : ∀ i, p.slice.toNat * i < blockSize.toNat → va ≠ p.va + p.slice.toNat * i) :
    freeSlice b va p = p := by
  unfold freeSlice
  cases hfound : b.find va false with
  | none => rfl
  | some o =>
      obtain ⟨hlive, hcovers⟩ := (hb.find_eq_some_iff va).mp hfound
      have hvirtual := (hb.described o ((hb.live o).mp hlive).1).virtual
      rw [hown o hlive hcovers] at hvirtual hcovers
      obtain ⟨hfrom, hto⟩ := hcovers
      dsimp only [SlicedPool.block] at hvirtual hfrom hto
      apply if_pos
      rw [hvirtual]
      intro hmultiple
      have hoffset := Nat.mul_div_cancel' (Nat.dvd_of_mod_eq_zero hmultiple)
      apply hva ((va - p.va) / p.slice.toNat) <;> omega

theorem SlicedPool.Kept.remove (h : p.Kept (fun _ => false) held) (i : ℕ) :
    (p.withBit i false).Kept (fun _ => false)
      (held.filter fun x => decide (x.va ≠ p.va + p.slice.toNat * i)) where
  slice_pos := h.slice_pos
  fits := h.fits
  placed := by
    intro x hx
    exact h.placed x (List.mem_of_mem_filter hx)
  matched := by
    apply h.matched.filter (i := i)
    · intro x hx
      obtain ⟨j, -, rfl⟩ := h.placed x hx
      have hinj := sliceAt_va_inj (i := j) (j := i) h.slice_pos
      rw [indexOf_sliceAt h.slice_pos, decide_eq_true_eq]
      exact hinj.not
    · intro j
      by_cases hj : j = i
      · simp [withBit, hj]
      · simp [withBit, hj]
  dirty_set := by
    intro j hj
    cases hj

theorem SlicedPool.Kept.giveBack (h : p.Kept (fun _ => false) held) (hb : b.Sound)
    (hblock : 0 < blockSize.toNat → p.BlockIn blockSize b) (hsize : blockSize.toNat < 2 ^ 32)
    (hroom : p.slice.toNat * p.sizeOfBitMap.toNat ≤ blockSize.toNat)
    (hown : ∀ o, b.live o = true → (b.buffer o).covers va → b.buffer o = p.block blockSize) :
    (freeSlice b va p).Kept (fun _ => false) (held.filter fun x => decide (x.va ≠ va)) := by
  by_cases hslice : ∃ i, p.slice.toNat * i < blockSize.toNat ∧ va = p.va + p.slice.toNat * i
  · obtain ⟨i, hi, rfl⟩ := hslice
    rw [freeSlice_slice hb (hblock (by omega)) hsize h.slice_pos hi]
    exact h.remove i
  · have hva : ∀ i, p.slice.toNat * i < blockSize.toNat → va ≠ p.va + p.slice.toNat * i :=
      fun i hi heq => hslice ⟨i, hi, heq⟩
    have hall : held.filter (fun x => decide (x.va ≠ va)) = held := by
      rw [List.filter_eq_self]
      intro x hx
      obtain ⟨j, hj, rfl⟩ := h.placed x hx
      have hlt := Nat.mul_lt_mul_of_pos_left hj h.slice_pos
      rw [decide_eq_true_eq]
      exact (hva j (by omega)).symm
    rw [freeSlice_other hb hown hva, hall]
    exact h

/-! ## What a pool in order owes -/

/-- The pool and its block, with one bit for each slice. -/
structure SlicedUse.InOrder (blockSize : BitVec 64) (s : SlicedUse) : Prop where
  kept : s.pool.Kept (fun _ => false) s.held
  sound : s.blocks.Sound
  block : 0 < blockSize.toNat → s.pool.BlockIn blockSize s.blocks
  small : blockSize.toNat < 2 ^ 32
  count : s.pool.sizeOfBitMap.toNat = blockSize.toNat / s.pool.slice.toNat

namespace SlicedUse.InOrder

variable {s : SlicedUse}

theorem room (h : s.InOrder blockSize) :
    s.pool.slice.toNat * s.pool.sizeOfBitMap.toNat ≤ blockSize.toNat := by
  rw [h.count]
  exact Nat.mul_div_le _ _

private theorem end_le (h : s.InOrder blockSize) (hi : i < s.pool.sizeOfBitMap.toNat) :
    s.pool.slice.toNat * i + s.pool.slice.toNat ≤ blockSize.toNat := by
  rw [← Nat.mul_succ]
  exact le_trans (Nat.mul_le_mul_left _ hi) h.room

private theorem block_of_slice (h : s.InOrder blockSize) (hi : i < s.pool.sizeOfBitMap.toNat) :
    s.pool.BlockIn blockSize s.blocks := by
  have hle := h.end_le hi
  have hpos := h.kept.slice_pos
  exact h.block (by omega)

private theorem start_lt (h : s.InOrder blockSize) (hi : i < s.pool.sizeOfBitMap.toNat) :
    s.pool.slice.toNat * i < blockSize.toNat := by
  have hle := h.end_le hi
  have hpos := h.kept.slice_pos
  omega

theorem gets (hfind : FindsClear find) (h : s.InOrder blockSize) :
    (allocateSlice find s.pool).1.isSome = true ↔
      s.held.length < blockSize.toNat / s.pool.slice.toNat := by
  rw [allocateSlice_isSome_iff hfind h.kept.fits, ← h.count,
    ← h.kept.matched.exists_unmarked_iff fun i hi => hi.1]
  apply exists_congr
  intro i
  apply and_congr_right
  intro hi
  simp [hi]

theorem apart (h : s.InOrder blockSize) : s.held.Pairwise fun x y =>
    x.va + s.pool.slice.toNat ≤ y.va ∨ y.va + s.pool.slice.toNat ≤ x.va := by
  have hdistinct := List.pairwise_map.mp h.kept.matched.distinct
  apply hdistinct.imp_of_mem
  intro x y hx hy hne
  obtain ⟨i, -, rfl⟩ := h.kept.placed x hx
  obtain ⟨j, -, rfl⟩ := h.kept.placed y hy
  apply SlicedPool.sliceAt_apart
  intro heq
  exact hne (by rw [heq])

theorem physical (h : s.InOrder blockSize) {x : DmaSlice} (hx : x ∈ s.held) :
    x.pa = s.pool.pa + (x.va - s.pool.va) ∧ getPhysicalAddress s.blocks x.va = some x.pa := by
  obtain ⟨i, hi, rfl⟩ := h.kept.placed x hx
  obtain ⟨o, hlive, hbuffer⟩ := h.block_of_slice hi
  refine ⟨by simp [SlicedPool.sliceAt], (h.sound.right.located _ _).mpr ⟨o, hlive, ?_, ?_⟩⟩
  · rw [hbuffer]
    exact ⟨Nat.le_add_right _ _, Nat.add_lt_add_left (h.start_lt hi) _⟩
  · rw [hbuffer]
    simp [SlicedPool.sliceAt, SlicedPool.block]

theorem returns (h : s.InOrder blockSize) {x : DmaSlice} (hx : x ∈ s.held) (va : ℕ) :
    (freeSlice s.blocks x.va s.pool).Available va ↔ s.pool.Available va ∨ va = x.va := by
  obtain ⟨i, hi, rfl⟩ := h.kept.placed x hx
  have hfreed := freeSlice_slice h.sound (h.block_of_slice hi) h.small h.kept.slice_pos
    (h.start_lt hi)
  simp only [SlicedPool.sliceAt, hfreed, SlicedPool.Available, SlicedPool.withBit]
  constructor
  · intro ⟨j, hj, hbit, hva⟩
    by_cases hji : j = i
    · right
      rw [hva, hji]
    · left
      rw [Function.update_of_ne hji] at hbit
      exact ⟨j, hj, hbit, hva⟩
  · intro hva
    rcases hva with ⟨j, hj, hbit, hva⟩ | hva
    · refine ⟨j, hj, ?_, hva⟩
      by_cases hji : j = i
      · simp [hji]
      · rwa [Function.update_of_ne hji]
    · exact ⟨i, hi, by simp, hva⟩

theorem right (hfind : FindsClear find) (h : s.InOrder blockSize) :
    SlicesRight find blockSize s where
  gets := h.gets hfind
  inside := by
    intro x hx
    obtain ⟨i, hi, rfl⟩ := h.kept.placed x hx
    have hle := h.end_le hi
    simp only [SlicedPool.sliceAt]
    omega
  apart := h.apart
  physical := fun _ hx => h.physical hx
  returns := fun _ hx => h.returns hx

end SlicedUse.InOrder

/-! ## Runs -/

private theorem allocateSlice_frame (find : ULONG → (ℕ → Bool) → ULONG) (p : SlicedPool) :
    (allocateSlice find p).2 = { p with bitmap := (allocateSlice find p).2.bitmap } := by
  unfold allocateSlice
  dsimp only
  split_ifs <;> rfl

private theorem freeSlice_frame (b : Blocks) (va : ℕ) (p : SlicedPool) :
    freeSlice b va p = { p with bitmap := (freeSlice b va p).bitmap } := by
  unfold freeSlice
  split
  · rfl
  · dsimp only
    split_ifs <;> rfl

private theorem SlicedUse.step_inOrder (hfind : FindsClear find) (s : SlicedUse) (c : SliceCall)
    (h : s.InOrder blockSize) (hown : ReturnsOwn blockSize s c) :
    (s.step find c).InOrder blockSize := by
  cases c with
  | getSlice =>
      have hkept := h.kept.get hfind
      have hframe := allocateSlice_frame find s.pool
      refine ⟨hkept, h.sound, ?_, h.small, ?_⟩
      · simp only [step]
        rw [hframe]
        exact h.block
      · simp only [step]
        rw [hframe]
        exact h.count
  | returnSlice va =>
      have hkept := h.kept.giveBack h.sound h.block h.small h.room hown
      have hframe := freeSlice_frame s.blocks va s.pool
      refine ⟨hkept, h.sound, ?_, h.small, ?_⟩
      · simp only [step]
        rw [hframe]
        exact h.block
      · simp only [step]
        rw [hframe]
        exact h.count
  | elsewhere b => exact ⟨h.kept, hown.1, fun _ => hown.2, h.small, h.count⟩

/-! ## A new pool -/

/-- The steps of a thread that allocates, with none of another thread between them. -/
theorem run_allocDmaMemory {τ : Type} [DecidableEq τ] {s : Store τ} {t : τ}
    (hidle : s.places t = .idle) (size : ℕ) (tag : BitVec 32) (common : Option (ℕ × ℕ))
    (added : Bool) :
    let calls := Input.call t (.allocDmaMemory size tag true) ::
      List.replicate 4 (.next t common added)
    let block := allocateCommonBuffer s.toBlocks size tag true common added
    (run Wdf.step s calls).toBlocks = block.2 ∧ (run Wdf.step s calls).answer t = block.1 := by
  cases common with
  | none =>
      simp [run, Wdf.step, move, allocate, Store.goTo, Store.finish, Call.enter, hidle,
        allocateCommonBuffer]
  | some m =>
      cases added with
      | false =>
          simp [run, Wdf.step, move, allocate, Wdf.add, Store.goTo, Store.finish, Call.enter, hidle,
            allocateCommonBuffer]
      | true =>
          simp [run, Wdf.step, move, allocate, Wdf.add, Store.goTo, Store.finish, Call.enter, hidle,
            allocateCommonBuffer]

/-- What the threads of the driver do between two calls, while the block of the pool stays live. -/
theorem run_elsewhere {τ : Type} [DecidableEq τ] {s : Store τ} (hs : StoreSound s)
    {inputs : List (Input τ)}
    (hguard : Guarded Wdf.step (fun s i => FreshMemory s i ∧ Unraced s i) s inputs)
    {u : SlicedUse} {o : ℕ} (hborn : o < s.created) (hbuffer : s.buffer o = u.pool.block blockSize)
    (hlive : (run Wdf.step s inputs).live o = true) :
    ReturnsOwn blockSize u (.elsewhere (run Wdf.step s inputs).toBlocks) :=
  ⟨(run_storeSound hs hguard).blocks, o, hlive, (run_buffer inputs hborn).trans hbuffer⟩

private theorem allocateCommonBuffer_some (hb : b.Sound) {size : ℕ} {tag : BitVec 32}
    {passive added : Bool} {common : Option (ℕ × ℕ)} (hfresh : FreshCommon b size common)
    (hva : (allocateCommonBuffer b size tag passive common added).1 = some va) :
    ∃ logical, common = some (va, logical) ∧
      (allocateCommonBuffer b size tag passive common added).2 =
        (b.create size va logical).add b.created tag ∧
      ((b.create size va logical).add b.created tag).Sound := by
  cases common with
  | none => cases passive <;> simp [allocateCommonBuffer] at hva
  | some m =>
      obtain ⟨virtual, logical⟩ := m
      cases passive with
      | false => simp [allocateCommonBuffer] at hva
      | true =>
          cases added with
          | false => simp [allocateCommonBuffer] at hva
          | true =>
              have hcreated := hb.create logical (hfresh (virtual, logical) rfl)
              have hunborn : b.deletions b.created = 0 := hb.unborn _ le_rfl
              have hnew : b.created ∉ b.collection := by
                intro hmem
                exact absurd (hb.listed _ hmem).1 (Nat.lt_irrefl _)
              have hadded := hcreated.add (Nat.lt_succ_self _) hunborn hnew tag
              have hsame : ((b.create size virtual logical).add b.created tag).touch [b.created] =
                  (b.create size virtual logical).add b.created tag := touch_one hunborn
              simp only [allocateCommonBuffer, if_true, hsame] at hva ⊢
              have hstart : virtual = va := by
                simpa [Blocks.add, Blocks.create] using hva
              subst hstart
              exact ⟨logical, rfl, rfl, hadded⟩

/-- A pool that was made has its block, and what the bitmap buffer held behind the structure. -/
private theorem virtIOWdfDeviceAllocDmaMemorySliced_some (hb : b.Sound) {sliceSize : ULONG}
    {passive added : Bool} {memory : Memory} {common : Option (ℕ × ℕ)} {b' : Blocks}
    (hfresh : FreshCommon b blockSize.toNat common)
    (hmade : virtIOWdfDeviceAllocDmaMemorySliced b blockSize sliceSize passive (some memory) common
      added = (some p, b')) :
    b'.Sound ∧ (0 < blockSize.toNat → p.BlockIn blockSize b') ∧
      p.sizeOfBitMap = blockSize.setWidth 32 / sliceSize ∧ p.slice = sliceSize ∧
      p.bitmap = bitmapBits (memory.zero 0 sizeofSliced) := by
  unfold virtIOWdfDeviceAllocDmaMemorySliced at hmade
  dsimp only at hmade
  split_ifs at hmade with hnull
  · cases hmade
  rw [not_or] at hnull
  cases hblock : (allocateCommonBuffer b blockSize.toNat 0 passive common added).1 with
  | none =>
      rw [hblock] at hnull
      exact absurd rfl hnull.1
  | some va =>
      obtain ⟨logical, -, hstored, hsound⟩ := allocateCommonBuffer_some hb hfresh hblock
      rw [hblock, hstored, Option.getD_some] at hmade hnull
      rw [Prod.mk.injEq, Option.some.injEq] at hmade
      obtain ⟨rfl, rfl⟩ := hmade
      refine ⟨hsound, fun hpos => ?_, rfl, rfl, rfl⟩
      have hlive : ((b.create blockSize.toNat va logical).add b.created 0).live b.created = true :=
        Function.update_self _ _ _
      have hbuffer : ((b.create blockSize.toNat va logical).add b.created 0).buffer b.created =
          ⟨va, logical, blockSize.toNat⟩ := Function.update_self _ _ _
      have hpa : getPhysicalAddress ((b.create blockSize.toNat va logical).add b.created 0) va =
          some logical := by
        rw [hsound.right.located]
        refine ⟨b.created, hlive, ?_, ?_⟩
        · rw [hbuffer]
          exact ⟨le_rfl, Nat.lt_add_of_pos_right hpos⟩
        · rw [hbuffer, Nat.sub_self, Nat.add_zero]
      refine ⟨b.created, hlive, ?_⟩
      rw [hbuffer, hpa]
      rfl

private theorem bitmapBits_zero (memory : Memory) (i : ℕ) :
    bitmapBits (memory.zero 0 sizeofSliced) i = if i < 32 then false else bitmapBits memory i := by
  unfold bitmapBits
  by_cases hi : i < 32
  · have hinside : 0 ≤ bitmapBufferOffset + i / 8 ∧
        bitmapBufferOffset + i / 8 < 0 + sizeofSliced := by
      unfold bitmapBufferOffset sizeofSliced
      omega
    rw [if_pos hi]
    unfold Memory.zero
    rw [if_pos hinside]
    simp
  · rw [if_neg hi, Memory.zero_outside]
    unfold bitmapBufferOffset sizeofSliced
    omega

/-- All the words of the bitmap lie in the memory that is allocated. -/
theorem bitmap_inside (blockSize : BitVec 64) (sliceSize : ULONG)
    (hi : i < (blockSize.setWidth 32 / sliceSize).toNat) :
    bitmapBufferOffset + 4 * (i / 32) + 4 ≤ slicedAllocSize blockSize sliceSize := by
  rw [BitVec.toNat_udiv, BitVec.toNat_setWidth] at hi
  have hle : blockSize.toNat % 2 ^ 32 / sliceSize.toNat ≤ blockSize.toNat / sliceSize.toNat :=
    Nat.div_le_div_right (Nat.mod_le _ _)
  unfold bitmapBufferOffset slicedAllocSize sizeofSliced
  omega

/-! ## Pools that give out nothing but slices -/

private theorem getSlices_own (s : SlicedUse) (k : ℕ) :
    Guarded (SlicedUse.step find) (ReturnsOwn blockSize) s (List.replicate k .getSlice) := by
  induction k generalizing s with
  | zero => trivial
  | succ k ih =>
      rw [List.replicate_succ]
      exact ⟨trivial, ih _⟩

/-- After `k` calls of `get_slice`. -/
def SlicedUse.afterGets (find : ULONG → (ℕ → Bool) → ULONG) (s : SlicedUse) (k : ℕ) : SlicedUse :=
  run (step find) s (List.replicate k .getSlice)

private theorem SlicedUse.afterGets_succ (s : SlicedUse) (k : ℕ) :
    s.afterGets find (k + 1) = (s.afterGets find k).step find .getSlice := by
  unfold afterGets
  rw [List.replicate_succ', run_concat]

/-- While a pool does what it owes, every call gives out a slice until all should be out. -/
private theorem SlicedUse.afterGets_kept {s : SlicedUse} (hfind : FindsClear find)
    (hs : s.pool.Kept dirty s.held) (hempty : s.held = [])
    (hright : ∀ k, SlicesRight find blockSize (s.afterGets find k)) {k : ℕ}
    (hk : k ≤ blockSize.toNat / s.pool.slice.toNat) :
    (s.afterGets find k).pool.Kept dirty (s.afterGets find k).held ∧
      (s.afterGets find k).held.length = k ∧
      (s.afterGets find k).pool = { s.pool with bitmap := (s.afterGets find k).pool.bitmap } := by
  induction k with
  | zero => exact ⟨hs, congrArg List.length hempty, rfl⟩
  | succ k ih =>
      obtain ⟨hkept, hlength, hsame⟩ := ih (by omega)
      have hslice : (s.afterGets find k).pool.slice = s.pool.slice := by rw [hsame]
      have hsome : (allocateSlice find (s.afterGets find k).pool).1.isSome = true := by
        rw [(hright k).gets, hlength, hslice]
        omega
      rw [afterGets_succ]
      refine ⟨hkept.get hfind, ?_, ?_⟩
      · obtain ⟨x, hx⟩ := Option.isSome_iff_exists.mp hsome
        simp [step, hx, hlength]
      · simp only [step]
        rw [allocateSlice_frame, hsame]

/-- When as many slices are out as there are bits, no bit was dirty. -/
theorem SlicedPool.Kept.clean (h : p.Kept dirty held)
    (hall : p.sizeOfBitMap.toNat ≤ held.length) (hi : i < p.sizeOfBitMap.toNat) :
    dirty i = false := by
  have hfull := h.matched.exists_unmarked_iff fun i hi => hi.1
  by_contra hdirty
  have hless := hfull.mp ⟨i, hi, fun hmarked => hdirty hmarked.2.2⟩
  omega

/-- The number of bits is that of the slices for blocks below 4 GB only. -/
private theorem sizeOfBitMap_lt {blockSize : BitVec 64} {sliceSize : ULONG} (hslice : sliceSize ≠ 0)
    (hlarge : 2 ^ 32 ≤ blockSize.toNat) :
    (blockSize.setWidth 32 / sliceSize).toNat < blockSize.toNat / sliceSize.toNat := by
  have hpos : 0 < sliceSize.toNat := by
    rw [Nat.pos_iff_ne_zero]
    intro hzero
    exact hslice (BitVec.eq_of_toNat_eq hzero)
  have hbound := sliceSize.isLt
  rw [BitVec.toNat_udiv, BitVec.toNat_setWidth]
  calc blockSize.toNat % 2 ^ 32 / sliceSize.toNat
      < blockSize.toNat % 2 ^ 32 / sliceSize.toNat + 1 := Nat.lt_succ_self _
    _ = (blockSize.toNat % 2 ^ 32 + sliceSize.toNat) / sliceSize.toNat :=
        (Nat.add_div_right _ hpos).symm
    _ ≤ blockSize.toNat / sliceSize.toNat := Nat.div_le_div_right (by omega)

end

/-- Whatever calls are made, a pool does all it owes exactly when its block is smaller than 4 GB and
the memory behind the structure happened to hold clear bits. -/
theorem slicedPool_right_iff {find : ULONG → (ℕ → Bool) → ULONG} (hfind : FindsClear find)
    {b b' : Blocks} (hb : b.Sound) {blockSize : BitVec 64} {sliceSize : ULONG}
    (hslice : sliceSize ≠ 0) {passive added : Bool} {memory : Memory} {common : Option (ℕ × ℕ)}
    (hfresh : FreshCommon b blockSize.toNat common) {p : SlicedPool}
    (hmade : virtIOWdfDeviceAllocDmaMemorySliced b blockSize sliceSize passive (some memory) common
      added = (some p, b')) :
    (∀ calls, Guarded (SlicedUse.step find) (ReturnsOwn blockSize) ⟨p, b', []⟩ calls →
      SlicesRight find blockSize (run (SlicedUse.step find) ⟨p, b', []⟩ calls)) ↔
    blockSize.toNat < 2 ^ 32 ∧
      ∀ i, 32 ≤ i → i < blockSize.toNat / sliceSize.toNat → bitmapBits memory i = false := by
  obtain ⟨hsound, hblock, hsize, rfl, hbits⟩ :=
    virtIOWdfDeviceAllocDmaMemorySliced_some hb hfresh hmade
  have hpos : 0 < p.slice.toNat := by
    rw [Nat.pos_iff_ne_zero]
    intro hzero
    exact hslice (BitVec.eq_of_toNat_eq hzero)
  have hcount : p.sizeOfBitMap.toNat = blockSize.toNat % 2 ^ 32 / p.slice.toNat := by
    rw [hsize, BitVec.toNat_udiv, BitVec.toNat_setWidth]
  have hfits : p.slice.toNat * p.sizeOfBitMap.toNat < 2 ^ 32 := by
    rw [hcount]
    exact lt_of_le_of_lt (Nat.mul_div_le _ _) (Nat.mod_lt _ (by norm_num))
  constructor
  · intro hright
    have hnew : p.Kept p.bitmap [] :=
      SlicedPool.kept_nil hpos hfits (fun _ hset => hset) fun _ _ hclear => hclear
    obtain ⟨hkept, hlength, hsame⟩ :=
      SlicedUse.afterGets_kept (s := ⟨p, b', []⟩) hfind hnew rfl
        (fun k => hright _ (getSlices_own _ k)) le_rfl
    -- as many slices are out as should be, so there are that many bits, all of them clear at first
    have hle := hkept.matched.length_le fun i hi => hi.1
    rw [hlength, hsame] at hle
    dsimp only at hle
    have hsmall : blockSize.toNat < 2 ^ 32 := by
      by_contra hlarge
      have hless := sizeOfBitMap_lt hslice (Nat.not_lt.mp hlarge)
      rw [← hsize] at hless
      omega
    refine ⟨hsmall, fun i hi hlt => ?_⟩
    rw [Nat.mod_eq_of_lt hsmall] at hcount
    have hclean : p.bitmap i = false := by
      apply hkept.clean
      · rw [hlength, hsame, ← hcount]
      · rw [hsame]
        exact lt_of_lt_of_le hlt hle
    rwa [hbits, bitmapBits_zero, if_neg (Nat.not_lt.mpr hi)] at hclean
  · intro ⟨hsmall, hclear⟩ calls hown
    rw [Nat.mod_eq_of_lt hsmall] at hcount
    have hnew : p.Kept (fun _ => false) [] := by
      apply SlicedPool.kept_nil hpos hfits
      · intro i hset
        cases hset
      · intro i hi _
        rw [hbits, bitmapBits_zero]
        split_ifs with hlow
        · rfl
        · exact hclear i (Nat.not_lt.mp hlow) (hcount ▸ hi)
    have horder : (run (SlicedUse.step find) ⟨p, b', []⟩ calls).InOrder blockSize :=
      hown.invariant (SlicedUse.step_inOrder hfind) ⟨hnew, hsound, hblock, hsmall, hcount⟩
    exact horder.right hfind

/-- Pool memory that was used before. -/
def usedMemory : Memory := fun _ => 0xff

def clearMemory : Memory := fun _ => 0

/-- A page in 64 slices, the only common buffer of its driver. -/
def pagePool (memory : Memory) : SlicedPool where
  pa := 0x200000
  va := 0x10000
  sizeOfBitMap := 64
  slice := 64
  bitmap := bitmapBits (memory.zero 0 sizeofSliced)

def pageBlocks : Blocks :=
  ((Store.fresh Unit).toBlocks.create 4096 0x10000 0x200000).add 0 0

theorem pagePool_right_iff :
    ((∀ calls, Guarded (SlicedUse.step findLowest) (ReturnsOwn 4096)
        ⟨pagePool usedMemory, pageBlocks, []⟩ calls →
      SlicesRight findLowest 4096
        (run (SlicedUse.step findLowest) ⟨pagePool usedMemory, pageBlocks, []⟩ calls)) ↔
    (4096 : BitVec 64).toNat < 2 ^ 32 ∧ ∀ i, 32 ≤ i →
      i < (4096 : BitVec 64).toNat / (64 : ULONG).toNat → bitmapBits usedMemory i = false) ∧
    ∀ calls, Guarded (SlicedUse.step findLowest) (ReturnsOwn 4096)
        ⟨pagePool clearMemory, pageBlocks, []⟩ calls →
      SlicesRight findLowest 4096
        (run (SlicedUse.step findLowest) ⟨pagePool clearMemory, pageBlocks, []⟩ calls) := by
  have hmade (memory : Memory) : virtIOWdfDeviceAllocDmaMemorySliced (Store.fresh Unit).toBlocks
      4096 64 true (some memory) (some (0x10000, 0x200000)) true =
        (some (pagePool memory), pageBlocks) := rfl
  have hfresh : FreshCommon (Store.fresh Unit).toBlocks (4096 : BitVec 64).toNat
      (some (0x10000, 0x200000)) := fun _ _ o ho => absurd ho (Nat.not_lt_zero o)
  have hclear : ∀ i, bitmapBits clearMemory i = false := by
    simp [bitmapBits, clearMemory]
  constructor
  · exact slicedPool_right_iff findLowest_findsClear (fresh_sound Unit) (by decide) hfresh
      (hmade usedMemory)
  · exact (slicedPool_right_iff findLowest_findsClear (fresh_sound Unit) (by decide) hfresh
      (hmade clearMemory)).mpr ⟨by decide, fun i _ _ => hclear i⟩

/-- The call behind the 32nd slice finds no clear bit, though half of the page is left. -/
theorem pagePool_not_right :
    virtIOWdfDeviceAllocDmaMemorySliced (Store.fresh Unit).toBlocks 4096 64 true
        (some usedMemory) (some (0x10000, 0x200000)) true =
          (some (pagePool usedMemory), pageBlocks) ∧
      Guarded (SlicedUse.step findLowest) (ReturnsOwn 4096) ⟨pagePool usedMemory, pageBlocks, []⟩
        (List.replicate 32 .getSlice) ∧
      ¬ SlicesRight findLowest 4096 (run (SlicedUse.step findLowest)
        ⟨pagePool usedMemory, pageBlocks, []⟩ (List.replicate 32 .getSlice)) := by
  refine ⟨rfl, getSlices_own _ 32, ?_⟩
  intro hright
  have hgets := hright.gets
  revert hgets
  decide +kernel

end Viosnd.Wdf
