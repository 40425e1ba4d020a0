import Mathlib.Data.Multiset.AddSub
import Viosnd.Basic
import Viosnd.Lib.LinkedCells
import Viosnd.Lib.Runs

/-!
# The store of DMA blocks

Every common buffer the device uses has a `VIOSND_DMA_BLOCK` in the list `DmaBlocks`, which is
edited in place. The list translates addresses, and the destruction of the device empties it.
-/

namespace Viosnd.Device

open LinkedCells StepRun

/-- The address of a `VIOSND_DMA_BLOCK` in the pool. -/
abbrev PoolPointer := ULONGLONG

/-- `VIOSND_DMA_BLOCK` without its list entry. -/
structure DmaBlock where
  va : ULONGLONG
  logicalAddress : ULONGLONG
  size : ULONGLONG
  deriving DecidableEq

structure DmaStore where
  /-- `DmaAdapter != NULL`. -/
  dmaAdapter : Bool
  /-- The entry `DmaBlocks` and the `Entry` of each block. -/
  next : Cells PoolPointer
  block : PoolPointer → DmaBlock
  /-- The blocks the pool has handed out and not got back. -/
  pool : List PoolPointer
  /-- What `AllocateCommonBuffer` has handed out, newest first. -/
  allocated : List DmaBlock
  /-- What `FreeCommonBuffer` has been given, newest first. -/
  released : List DmaBlock

/-- The zeroed device after `ViosndInitializeDmaAdapter`. -/
def DmaStore.fresh (dmaAdapter : Bool) : DmaStore where
  dmaAdapter := dmaAdapter
  next := fun _ => none
  block := fun _ => ⟨0, 0, 0⟩
  pool := []
  allocated := []
  released := []

/-! ## The routines -/

/-- `ROUND_TO_PAGES`. -/
def roundToPages (size : ULONGLONG) : ULONGLONG := (size + 0xfff) &&& ~~~0xfff

/-- The answers of the pool and of `AllocateCommonBuffer`; the address 0 is `NULL`. -/
structure AllocateInput where
  node : Option PoolPointer
  va : ULONGLONG
  logicalAddress : ULONGLONG

/-- `ViosndAllocateDmaBuffer`: the address, `*LogicalAddress` and the store. -/
def viosndAllocateDmaBuffer (size : ULONGLONG) (i : AllocateInput) (s : DmaStore) :
    (ULONGLONG × ULONGLONG) × DmaStore :=
  let roundedSize := roundToPages size
  if s.dmaAdapter = false ∨ maxULONG.setWidth 64 < roundedSize then ((0, 0), s)
  else match i.node with
    | none => ((0, 0), s)
    | some node =>
        -- the block goes back to the pool when there is no common buffer for it
        if i.va = 0 then ((0, 0), s)
        else
          let block : DmaBlock := ⟨i.va, i.logicalAddress, roundedSize⟩
          ((i.va, i.logicalAddress), { s with
            next := push s.next node
            block := Function.update s.block node block
            pool := node :: s.pool
            allocated := block :: s.allocated })

/-- `FreeCommonBuffer` with a 32-bit length, when there is an adapter, and `ExFreePoolWithTag`. -/
def releaseBlock (node : PoolPointer) (s : DmaStore) : DmaStore :=
  let block := s.block node
  { s with
    pool := s.pool.erase node
    released := if s.dmaAdapter then { block with size := (block.size.setWidth 32).setWidth 64 } ::
        s.released else s.released }

/-- Both walks along `DmaBlocks`. A walk that does not end after the last block has no result. -/
def walkBlocks (found : DmaBlock → Bool) (s : DmaStore) :
    Option (Option (Option PoolPointer × PoolPointer)) :=
  search s.next (fun node => found (s.block node)) (s.pool.length + 1) none (s.next none)

def viosndFreeDmaBuffer (virt : ULONGLONG) (s : DmaStore) : Option DmaStore :=
  if virt = 0 then some s
  else match walkBlocks (fun block => block.va = virt) s with
    | none => none
    | some none => some s
    | some (some (previous, node)) =>
        some (releaseBlock node { s with next := unlink s.next previous node })

/-- `va >= start && va < end`. -/
def DmaBlock.covers (block : DmaBlock) (va : ULONGLONG) : Bool :=
  block.va ≤ va ∧ va < block.va + block.size

def viosndGetDmaAddress (virt : ULONGLONG) (s : DmaStore) : Option ULONGLONG :=
  match walkBlocks (fun block => block.covers virt) s with
  | none => none
  | some none => some 0
  | some (some (_, node)) =>
      some ((s.block node).logicalAddress + (virt - (s.block node).va))

/-- The last loop of `ViosndDestroyDevice` with `k` passes at most. -/
def popBlocks : ℕ → DmaStore → Option DmaStore
  | 0, _ => none
  | k + 1, s =>
      match s.next none with
      | none => some s
      | some node => popBlocks k (releaseBlock node { s with next := unlink s.next none node })

/-- `ViosndDestroyDevice`; `queues` is the memory that the deletion of the queues frees, `events`
the event buffers. -/
def viosndDestroyDevice (queues events : List ULONGLONG) (s : DmaStore) : Option DmaStore := do
  let s ← (queues ++ events).foldlM (fun s virt => viosndFreeDmaBuffer virt s) s
  let s ← popBlocks (s.pool.length + 1) s
  some { s with dmaAdapter := false }

/-! ## Runs -/

inductive DmaCall where
  | allocate (size : ULONGLONG) (i : AllocateInput)
  | free (virt : ULONGLONG)

/-- A call on a device; after a call without a result there is no device. -/
def dmaStep (s : Option DmaStore) : DmaCall → Option DmaStore
  | .allocate size i => s.map fun s => (viosndAllocateDmaBuffer size i s).2
  | .free virt => s.bind fun s => viosndFreeDmaBuffer virt s

/-- The common buffers that were handed out and not given back. -/
def DmaStore.live (s : DmaStore) : Multiset DmaBlock :=
  (s.allocated : Multiset DmaBlock) - (s.released : Multiset DmaBlock)

def DmaBlock.Contains (block : DmaBlock) (va : ULONGLONG) : Prop :=
  block.va.toNat ≤ va.toNat ∧ va.toNat < block.va.toNat + block.size.toNat

instance (block : DmaBlock) (va : ULONGLONG) : Decidable (block.Contains va) :=
  inferInstanceAs (Decidable (_ ∧ _))

def Apart (a b : DmaBlock) : Prop := ∀ va, a.Contains va → ¬ b.Contains va

/-- What the pool and the adapter promise: the pool does not hand out a block twice, and a common
buffer overlaps no live one. As for every object, the address just behind it exists. -/
def PlatformKeeps (s : Option DmaStore) : DmaCall → Prop
  | .allocate size i => ∀ store, s = some store →
      (∀ node, i.node = some node → node ∉ store.pool) ∧
        (i.va ≠ 0 → i.va.toNat + (roundToPages size).toNat < 2 ^ 64 ∧
          ∀ b ∈ store.live, Apart ⟨i.va, i.logicalAddress, roundToPages size⟩ b)
  | .free _ => True

/-! ## The list -/

/-- A block of the list: what was allocated can be given back with a 32-bit length. -/
structure DmaBlock.Sound (b : DmaBlock) : Prop where
  nonnull : b.va ≠ 0
  small : b.size.toNat < 2 ^ 32
  inside : b.va.toNat + b.size.toNat < 2 ^ 64

/-- The list in the cells is `nodes`, and its blocks are the live common buffers. -/
structure DmaStore.Holds (s : DmaStore) (nodes : List PoolPointer) : Prop where
  chain : Chain s.next none nodes
  nodup : nodes.Nodup
  pool : s.pool.Perm nodes
  sound : ∀ node ∈ nodes, (s.block node).Sound
  apart : (nodes.map s.block).Pairwise Apart
  balance : (s.allocated : Multiset DmaBlock) = ↑(nodes.map s.block) + ↑s.released
  adapter : s.dmaAdapter = false → nodes = []

private theorem DmaStore.fresh_holds (dmaAdapter : Bool) :
    (DmaStore.fresh dmaAdapter).Holds [] where
  chain := rfl
  nodup := List.nodup_nil
  pool := List.Perm.refl []
  sound := fun _ h => absurd h List.not_mem_nil
  apart := List.Pairwise.nil
  balance := rfl
  adapter := fun _ => rfl

namespace DmaStore.Holds

variable {s : DmaStore} {nodes l l' : List PoolPointer} {node : PoolPointer}

private theorem live_eq (h : s.Holds nodes) : s.live = ↑(nodes.map s.block) := by
  unfold DmaStore.live
  rw [h.balance, Multiset.add_sub_cancel_right]

private theorem mem_live (h : s.Holds nodes) {b : DmaBlock} :
    b ∈ s.live ↔ ∃ node ∈ nodes, s.block node = b := by
  rw [h.live_eq, Multiset.mem_coe, List.mem_map]

private theorem length_lt (h : s.Holds nodes) : nodes.length < s.pool.length + 1 := by
  rw [h.pool.length_eq]
  exact Nat.lt_succ_self _

private theorem cells_nodup (h : s.Holds nodes) : (none :: nodes.map some).Nodup := by
  have hsome : (nodes.map some).Nodup := h.nodup.map (Option.some_injective _)
  exact List.nodup_cons.mpr ⟨by simp, hsome⟩

/-! ## What the walks find -/

private theorem walk_absent (h : s.Holds nodes) {found : DmaBlock → Bool}
    (hall : ∀ node ∈ nodes, found (s.block node) = false) : walkBlocks found s = some none :=
  search_absent h.chain hall h.length_lt

private theorem walk_present (h : s.Holds nodes) (found : DmaBlock → Bool)
    (hsome : ∃ node ∈ nodes, found (s.block node) = true) :
    ∃ l node l', nodes = l ++ node :: l' ∧ found (s.block node) = true ∧
      walkBlocks found s = some (some (lastCell none l, node)) := by
  obtain ⟨first, hfirst⟩ := Option.isSome_iff_exists.mp (List.find?_isSome.mpr hsome)
  obtain ⟨hfound, l, l', hsplit, hbefore⟩ := List.find?_eq_some_iff_append.mp hfirst
  have hall : ∀ m ∈ l, found (s.block m) = false := by
    intro m hm
    simpa using hbefore m hm
  have hlength := h.length_lt
  subst hsplit
  rw [List.length_append] at hlength
  exact ⟨l, first, l', rfl, hfound, search_present h.chain hall hfound (by omega)⟩

/-! ## What the routines do to the list -/

private theorem sound_release {b : DmaBlock} (h : b.Sound) :
    { b with size := (b.size.setWidth 32).setWidth 64 } = b := by
  have hsize : (b.size.setWidth 32).setWidth 64 = b.size := by
    apply BitVec.eq_of_toNat_eq
    rw [BitVec.toNat_setWidth, BitVec.toNat_setWidth, Nat.mod_eq_of_lt h.small,
      Nat.mod_eq_of_lt b.size.isLt]
  rw [hsize]

theorem push (h : s.Holds nodes) (hnode : node ∉ nodes) {b : DmaBlock} (hb : b.Sound)
    (hapart : ∀ c ∈ s.live, Apart b c) (hadapter : s.dmaAdapter ≠ false) :
    DmaStore.Holds { s with
      next := LinkedCells.push s.next node
      block := Function.update s.block node b
      pool := node :: s.pool
      allocated := b :: s.allocated } (node :: nodes) := by
  have hold : ∀ m ∈ nodes, Function.update s.block node b m = s.block m := by
    intro m hm
    apply Function.update_of_ne
    rintro rfl
    exact hnode hm
  have hself : Function.update s.block node b node = b := Function.update_self _ _ _
  have hmap : (node :: nodes).map (Function.update s.block node b) = b :: nodes.map s.block := by
    rw [List.map_cons, hself, List.map_congr_left hold]
  exact {
    chain := h.chain.push hnode
    nodup := List.nodup_cons.mpr ⟨hnode, h.nodup⟩
    pool := h.pool.cons node
    sound := by
      intro m hm
      dsimp only
      rcases List.mem_cons.mp hm with rfl | hm
      · rw [hself]
        exact hb
      · rw [hold m hm]
        exact h.sound m hm
    apart := by
      dsimp only
      rw [hmap, List.pairwise_cons]
      refine ⟨fun c hc => hapart c ?_, h.apart⟩
      rw [h.live_eq]
      exact hc
    balance := by
      dsimp only
      rw [hmap, ← Multiset.cons_coe, ← Multiset.cons_coe, h.balance, Multiset.cons_add]
    adapter := fun hnone => absurd hnone hadapter }

theorem allocate (h : s.Holds nodes) (size : ULONGLONG) {i : AllocateInput}
    (hkeeps : PlatformKeeps (some s) (.allocate size i)) :
    ∃ nodes', (viosndAllocateDmaBuffer size i s).2.Holds nodes' := by
  obtain ⟨hfresh, hbuffer⟩ := hkeeps s rfl
  unfold viosndAllocateDmaBuffer
  dsimp only
  split
  · exact ⟨nodes, h⟩
  rename_i hgo
  obtain ⟨hadapter, hsmall⟩ := not_or.mp hgo
  have hmax : (maxULONG.setWidth 64 : ULONGLONG).toNat = 2 ^ 32 - 1 := rfl
  rw [BitVec.lt_def, hmax] at hsmall
  cases hnode : i.node with
  | none => exact ⟨nodes, h⟩
  | some node =>
      dsimp only
      split
      · exact ⟨nodes, h⟩
      · rename_i hva
        obtain ⟨hinside, hapart⟩ := hbuffer hva
        have hnew : node ∉ nodes := fun hmem => hfresh node hnode (h.pool.mem_iff.mpr hmem)
        exact ⟨node :: nodes, h.push hnew ⟨hva, by dsimp only; omega, hinside⟩ hapart hadapter⟩

theorem release (h : s.Holds (l ++ node :: l')) :
    (releaseBlock node { s with
      next := unlink s.next (lastCell none l) node }).Holds (l ++ l') := by
  have hadapter : s.dmaAdapter = true := by
    by_contra hnone
    exact absurd (h.adapter (Bool.eq_false_of_not_eq_true hnone)) (by simp)
  have hrelease := sound_release (h.sound node (List.mem_append_right l List.mem_cons_self))
  have hless : (l ++ l').Sublist (l ++ node :: l') :=
    (List.Sublist.refl l).append (List.sublist_cons_self node l')
  have hout : node ∉ l := by
    intro hmem
    have hnodup := h.nodup
    rw [List.nodup_append] at hnodup
    exact hnodup.2.2 node hmem node List.mem_cons_self rfl
  unfold releaseBlock
  dsimp only
  rw [hadapter, if_pos rfl, hrelease]
  exact {
    chain := h.chain.unlink h.cells_nodup
    nodup := h.nodup.sublist hless
    pool := by
      have herase := h.pool.erase node
      rwa [List.erase_append_right _ hout, List.erase_cons_head] at herase
    sound := fun m hm => h.sound m (hless.mem hm)
    apart := h.apart.sublist (hless.map s.block)
    balance := by
      have hbalance := h.balance
      dsimp only
      rw [hbalance, List.map_append, List.map_append, List.map_cons, ← Multiset.coe_add,
        ← Multiset.coe_add, ← Multiset.cons_coe, ← Multiset.cons_coe, Multiset.add_cons,
        Multiset.add_cons, Multiset.cons_add]
    adapter := fun hnone => by
      dsimp only at hnone
      exact absurd hnone (by simp) }

private theorem free_other (h : s.Holds nodes) {virt : ULONGLONG}
    (hother : ∀ b ∈ s.live, b.va ≠ virt) :
    viosndFreeDmaBuffer virt s = some s := by
  have hwalk : walkBlocks (fun block => block.va = virt) s = some none := by
    apply h.walk_absent
    intro m hm
    simpa using hother _ (h.mem_live.mpr ⟨m, hm, rfl⟩)
  unfold viosndFreeDmaBuffer
  rw [hwalk]
  split <;> rfl

theorem free (h : s.Holds nodes) (virt : ULONGLONG) :
    ∃ s' nodes', viosndFreeDmaBuffer virt s = some s' ∧ s'.Holds nodes' ∧
      s'.allocated = s.allocated ∧ s'.dmaAdapter = s.dmaAdapter := by
  by_cases hfound : ∃ node ∈ nodes, (decide ((s.block node).va = virt)) = true
  · obtain ⟨l, node, l', rfl, hnode, hwalk⟩ :=
      h.walk_present (fun block => block.va = virt) hfound
    have hva : (s.block node).va = virt := of_decide_eq_true hnode
    have hnull : virt ≠ 0 :=
      hva ▸ (h.sound node (List.mem_append_right l List.mem_cons_self)).nonnull
    refine ⟨_, l ++ l', ?_, h.release, rfl, rfl⟩
    unfold viosndFreeDmaBuffer
    rw [if_neg hnull, hwalk]
  · refine ⟨s, nodes, h.free_other fun b hb hva => hfound ?_, h, rfl, rfl⟩
    obtain ⟨node, hmem, rfl⟩ := h.mem_live.mp hb
    exact ⟨node, hmem, decide_eq_true hva⟩

private theorem frees (h : s.Holds nodes) (virts : List ULONGLONG) :
    ∃ s' nodes', virts.foldlM (fun s virt => viosndFreeDmaBuffer virt s) s = some s' ∧
      s'.Holds nodes' ∧ s'.allocated = s.allocated := by
  induction virts generalizing s nodes with
  | nil => exact ⟨s, nodes, rfl, h, rfl⟩
  | cons virt virts ih =>
      obtain ⟨s', nodes', hfree, hholds, hsame, -⟩ := h.free virt
      obtain ⟨s'', nodes'', hrest, hholds', hsame'⟩ := ih hholds
      refine ⟨s'', nodes'', ?_, hholds', hsame'.trans hsame⟩
      rw [List.foldlM_cons, hfree]
      exact hrest

private theorem popAll (h : s.Holds nodes) {k : ℕ} (hk : nodes.length < k) :
    ∃ s', popBlocks k s = some s' ∧ s'.Holds [] ∧ s'.allocated = s.allocated := by
  induction nodes generalizing s k with
  | nil =>
      obtain ⟨k, rfl⟩ := Nat.exists_eq_succ_of_ne_zero (Nat.ne_of_gt hk)
      have hend : s.next none = none := h.chain
      refine ⟨s, ?_, h, rfl⟩
      rw [popBlocks, hend]
  | cons node nodes ih =>
      obtain ⟨k, rfl⟩ := Nat.exists_eq_succ_of_ne_zero (Nat.ne_zero_of_lt hk)
      have hfirst : s.next none = some node := h.chain.1
      have hholds := DmaStore.Holds.release (l := []) h
      obtain ⟨s', hpop, hempty, hsame⟩ := ih hholds (Nat.lt_of_succ_lt_succ hk)
      refine ⟨s', ?_, hempty, hsame⟩
      rw [popBlocks, hfirst]
      exact hpop

/-- The comparisons of `ViosndGetDmaAddress` do not wrap. -/
private theorem covers_iff {b : DmaBlock} (hb : b.Sound) (va : ULONGLONG) :
    b.covers va = true ↔ b.Contains va := by
  have hend : (b.va + b.size).toNat = b.va.toNat + b.size.toNat := by
    rw [BitVec.toNat_add, Nat.mod_eq_of_lt hb.inside]
  unfold DmaBlock.covers DmaBlock.Contains
  rw [decide_eq_true_eq, BitVec.le_def, BitVec.lt_def, hend]

private theorem block_unique (h : s.Holds nodes) {first second : PoolPointer}
    (hfirst : first ∈ nodes) (hsecond : second ∈ nodes) {va : ULONGLONG}
    (hin : (s.block first).Contains va) (hin' : (s.block second).Contains va) : first = second := by
  have hsymm : Std.Symm fun m n => Apart (s.block m) (s.block n) :=
    ⟨fun m n hapart va hn hm => hapart va hm hn⟩
  by_contra hne
  exact (List.pairwise_map.mp h.apart).forall hfirst hsecond hne va hin hin'

private theorem getDmaAddress_inside (h : s.Holds nodes) {b : DmaBlock} (hb : b ∈ s.live)
    {va : ULONGLONG} (hva : b.Contains va) :
    viosndGetDmaAddress va s = some (b.logicalAddress + (va - b.va)) := by
  obtain ⟨node, hmem, rfl⟩ := h.mem_live.mp hb
  have hcovers := (covers_iff (h.sound node hmem) va).mpr hva
  obtain ⟨l, first, l', hsplit, hfound, hwalk⟩ :=
    h.walk_present (fun block => block.covers va) ⟨node, hmem, hcovers⟩
  have hfirst : first ∈ nodes := by
    rw [hsplit]
    exact List.mem_append_right l List.mem_cons_self
  have hsame := h.block_unique hfirst hmem ((covers_iff (h.sound first hfirst) va).mp hfound) hva
  unfold viosndGetDmaAddress
  rw [hwalk, hsame]

private theorem getDmaAddress_outside (h : s.Holds nodes) {va : ULONGLONG}
    (hva : ∀ b ∈ s.live, ¬ b.Contains va) : viosndGetDmaAddress va s = some 0 := by
  have hwalk : walkBlocks (fun block => block.covers va) s = some none := by
    apply h.walk_absent
    intro m hm
    rw [← Bool.not_eq_true, covers_iff (h.sound m hm)]
    exact hva _ (h.mem_live.mpr ⟨m, hm, rfl⟩)
  unfold viosndGetDmaAddress
  rw [hwalk]

/-- At the end every common buffer has been given back as often as it was handed out. -/
private theorem destroy (h : s.Holds nodes) (queues events : List ULONGLONG) :
    ∃ s', viosndDestroyDevice queues events s = some s' ∧ s'.allocated = s.allocated ∧
      s'.released.Perm s'.allocated ∧ s'.dmaAdapter = false := by
  obtain ⟨s₁, nodes₁, hfrees, hholds, hsame⟩ := h.frees (queues ++ events)
  obtain ⟨s₂, hpop, hempty, hsame'⟩ := hholds.popAll hholds.length_lt
  refine ⟨{ s₂ with dmaAdapter := false }, ?_, hsame'.trans hsame, ?_, rfl⟩
  · unfold viosndDestroyDevice
    rw [hfrees]
    exact congrArg (Option.bind · _) hpop
  · have hbalance := hempty.balance
    rw [List.map_nil, Multiset.coe_nil, Multiset.zero_add] at hbalance
    exact (Multiset.coe_eq_coe.mp hbalance).symm

end DmaStore.Holds

/-! ## Runs of the store -/

private theorem dmaStep_holds {o : Option DmaStore} (call : DmaCall)
    (h : ∃ s nodes, o = some s ∧ s.Holds nodes) (hkeeps : PlatformKeeps o call) :
    ∃ s nodes, dmaStep o call = some s ∧ s.Holds nodes := by
  obtain ⟨s, nodes, rfl, hholds⟩ := h
  cases call with
  | allocate size i =>
      obtain ⟨nodes', hholds'⟩ := hholds.allocate size hkeeps
      exact ⟨_, nodes', rfl, hholds'⟩
  | free virt =>
      obtain ⟨s', nodes', hfree, hholds', -⟩ := hholds.free virt
      exact ⟨s', nodes', hfree, hholds'⟩

/-- After any calls on a device the address map is exact, a free of anything but the start of a
live buffer does nothing, and the destruction of the device gives back what is left: every common
buffer once. -/
theorem dmaStore_exact (dmaAdapter : Bool) (calls : List DmaCall)
    (hplatform : Guarded dmaStep PlatformKeeps (some (.fresh dmaAdapter)) calls) :
    ∃ s, run dmaStep (some (.fresh dmaAdapter)) calls = some s ∧
      (s.released : Multiset DmaBlock) ≤ s.allocated ∧
      (∀ b ∈ s.live, ∀ va, b.Contains va →
        viosndGetDmaAddress va s = some (b.logicalAddress + (va - b.va))) ∧
      (∀ va, (∀ b ∈ s.live, ¬ b.Contains va) → viosndGetDmaAddress va s = some 0) ∧
      (∀ virt, (∀ b ∈ s.live, b.va ≠ virt) → viosndFreeDmaBuffer virt s = some s) ∧
      (∀ queues events, ∃ s', viosndDestroyDevice queues events s = some s' ∧
        s'.allocated = s.allocated ∧ s'.released.Perm s'.allocated) := by
  have hrun := hplatform.invariant (P := fun o => ∃ s nodes, o = some s ∧ s.Holds nodes)
    (fun _ call h hkeeps => dmaStep_holds call h hkeeps)
    ⟨_, [], rfl, DmaStore.fresh_holds dmaAdapter⟩
  obtain ⟨s, nodes, hs, hholds⟩ := hrun
  refine ⟨s, hs, ?_, fun b hb va => hholds.getDmaAddress_inside hb,
    fun va => hholds.getDmaAddress_outside, fun virt => hholds.free_other, ?_⟩
  · rw [hholds.balance]
    exact Multiset.le_add_left _ _
  · intro queues events
    obtain ⟨s', hdestroy, hsame, hperm, -⟩ := hholds.destroy queues events
    exact ⟨s', hdestroy, hsame, hperm⟩

/-- Two buffers, of which the first, now last in the list, is freed. -/
theorem dmaStore_exact_two :
    ∃ s, run dmaStep (some (.fresh true))
        [.allocate 5000 ⟨some 16, 0x10000, 0x50000⟩, .allocate 100 ⟨some 32, 0x20000, 0x80000⟩,
          .free 0x10000] = some s ∧
      viosndGetDmaAddress 0x20004 s = some 0x80004 ∧ viosndGetDmaAddress 0x10004 s = some 0 := by
  have hplatform : Guarded dmaStep PlatformKeeps (some (.fresh true))
      [.allocate 5000 ⟨some 16, 0x10000, 0x50000⟩, .allocate 100 ⟨some 32, 0x20000, 0x80000⟩,
        .free 0x10000] := by
    refine ⟨?_, ?_, trivial, trivial⟩
    · rintro store ⟨⟩
      exact ⟨fun _ _ => List.not_mem_nil,
        fun _ => ⟨by decide, fun b hb => absurd hb (Multiset.notMem_zero b)⟩⟩
    · rintro store ⟨⟩
      have hlive : ∀ b ∈ DmaStore.live (viosndAllocateDmaBuffer 5000 ⟨some 16, 0x10000, 0x50000⟩
          (.fresh true)).2, b = ⟨0x10000, 0x50000, 0x2000⟩ := by decide
      have hnode : (32 : PoolPointer) ∉ [(16 : PoolPointer)] := by decide
      refine ⟨?_, fun _ => ⟨by decide, fun b hb va hnew hold => ?_⟩⟩
      · rintro node ⟨⟩
        exact hnode
      obtain rfl := hlive b hb
      have hlow : 0x20000 ≤ va.toNat := hnew.1
      have hhigh : va.toNat < 0x10000 + 0x2000 := hold.2
      omega
  obtain ⟨s, hrun, -, hinside, houtside, -⟩ := dmaStore_exact true _ hplatform
  obtain rfl := Option.some.inj hrun
  refine ⟨_, hrun, hinside ⟨0x20000, 0x80000, 0x1000⟩ (by decide) _ (by decide), ?_⟩
  exact houtside _ (by decide)

end Viosnd.Device
