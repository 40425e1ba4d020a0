import Viosnd.Lib.Runs
import Viosnd.VirtIO.Layout

/-!
# A split ring between driver and device

The driver adds, fetches and detaches buffers, the device takes entries from the available ring and
returns them through the used ring. Counters say how many entries were published and how many the
device has taken, without wrapping.
-/

namespace Viosnd.VirtIO

open Paths StepRun

variable {β : Type}

/-- A chain as the device read it when it took the entry. -/
structure TakenChain where
  head : ℕ
  descs : List ℕ
  deriving DecidableEq

structure LiveQueue (β : Type) where
  ring : SplitRing β
  /-- The available index the device has come to. -/
  lastAvail : U16
  /-- Chains the device has taken and not returned. -/
  held : List TakenChain
  /-- Heads the device has returned and the driver has not fetched. -/
  returned : List ℕ
  /-- Entries published and not withdrawn. -/
  published : ℕ
  taken : ℕ
  /-- An entry was withdrawn and there are still entries the device has not taken. -/
  withdrawn : Bool
  /-- A routine of the driver follows a chain that does not end. -/
  hung : Bool

def LiveQueue.new (β : Type) (num : ℕ) : LiveQueue β where
  ring := vringNewVirtqueueSplit β num false
  lastAvail := 0
  held := []
  returned := []
  published := 0
  taken := 0
  withdrawn := false
  hung := false

inductive QueueStep (β : Type) where
  /-- `virtqueue_add_buf` with one part for each direction. -/
  | submit (request status : Scatter) (io : β)
  | reclaim
  | detach
  | take
  /-- The device returns the `k`-th chain it holds. -/
  | giveBack (k : ℕ) (len : BitVec 32)

def LiveQueue.nextHead (w : LiveQueue β) : ℕ :=
  w.ring.availRing (descIndex w.ring.num w.lastAvail)

/-- The device follows the links up to the end of the chain, or for as long as the table is. -/
def deviceWalk (q : SplitRing β) (head : ℕ) : List ℕ :=
  match walkTo q.link q.more q.num head with
  | some walked => walked.1 ++ [walked.2]
  | none => List.iterate q.link head q.num

def submitBuf (request status : Scatter) (io : β) (w : LiveQueue β) : LiveQueue β :=
  match virtqueueAddBufSplit request [status] 1 io none w.ring with
  | none => w
  | some ring => { w with ring, published := w.published + 1 }

def reclaimBuf (w : LiveQueue β) : LiveQueue β :=
  match virtqueueGetBufSplit w.ring with
  | none => { w with hung := true }
  | some (none, _) => w
  | some (some _, ring) => { w with ring, returned := w.returned.tail }

def detachBuf (w : LiveQueue β) : LiveQueue β :=
  match virtqueueDetachUnusedBufSplit w.ring with
  | none => { w with hung := true }
  | some (none, _) => w
  | some (some _, ring) =>
      { w with
        ring, published := w.published - 1, withdrawn := decide (w.published - 1 ≠ w.taken) }

def takeEntry (w : LiveQueue β) : LiveQueue β :=
  if w.ring.availIdx = w.lastAvail then w
  else { w with
    lastAvail := w.lastAvail + 1
    held := w.held ++ [⟨w.nextHead, deviceWalk w.ring w.nextHead⟩]
    taken := w.taken + 1
    withdrawn := w.withdrawn && decide (w.published ≠ w.taken + 1) }

def giveBackChain (k : ℕ) (len : BitVec 32) (w : LiveQueue β) : LiveQueue β :=
  match w.held[k]? with
  | none => w
  | some c => { w with
      held := w.held.eraseIdx k
      returned := w.returned ++ [c.head]
      ring := { w.ring with
        usedRing := Function.update w.ring.usedRing (descIndex w.ring.num w.ring.usedIdx)
          ⟨BitVec.ofNat 32 c.head, len⟩
        usedIdx := w.ring.usedIdx + 1 } }

/-- A routine that hangs keeps the mutex of its queue, so the driver does no more with it. -/
def LiveQueue.step (w : LiveQueue β) : QueueStep β → LiveQueue β
  | .submit request status io => if w.hung then w else submitBuf request status io w
  | .reclaim => if w.hung then w else reclaimBuf w
  | .detach => if w.hung then w else detachBuf w
  | .take => takeEntry w
  | .giveBack k len => giveBackChain k len w

/-- The first `num_unused` descriptors from `first_unused` on. -/
def freeDescs (q : SplitRing β) : List ℕ := List.iterate q.link q.firstUnused q.numUnused

/-- The available index is not behind the device, and what the device holds is not free. -/
structure LiveQueue.Sound (w : LiveQueue β) : Prop where
  running : w.hung = false
  index : w.ring.availIdx = BitVec.ofNat 16 w.published
  behind : w.taken ≤ w.published
  kept : ∀ c ∈ w.held, ∀ d ∈ c.descs, d ∉ freeDescs w.ring

/-- The chain is in flight and the device has not taken it. -/
def LiveQueue.Untaken (w : LiveQueue β) (head : ℕ) : Prop :=
  (w.ring.data head).isSome = true ∧ head ∉ w.held.map TakenChain.head ∧ head ∉ w.returned

instance (w : LiveQueue β) (head : ℕ) : Decidable (w.Untaken head) :=
  inferInstanceAs (Decidable (_ ∧ _))

/-- Only untaken chains are withdrawn, and until all others are taken or withdrawn as well the
device takes no entry of a chain that was. -/
def WithdrawGuard (w : LiveQueue β) : QueueStep β → Prop
  | .detach => ∀ head ∈ firstInUse w.ring, w.Untaken head
  | .take => w.withdrawn = true → w.ring.availIdx ≠ w.lastAvail → w.Untaken w.nextHead
  | _ => True

/-! ## Slots of the rings -/

private theorem descIndex_add {num : ℕ} (hnum : num ∣ 2 ^ 15) (x : U16) (k : ℕ) :
    descIndex num (x + BitVec.ofNat 16 k) = (x.toNat + k) % num := by
  have hdvd : num ∣ 2 ^ 16 := hnum.trans (by decide)
  unfold descIndex
  rw [BitVec.toNat_add, BitVec.toNat_ofNat, Nat.mod_mod_of_dvd _ hdvd, Nat.add_mod,
    Nat.mod_mod_of_dvd _ hdvd, ← Nat.add_mod]

/-- Up to `num` consecutive indices select different slots. -/
private theorem descIndex_ne {num : ℕ} (hnum : num ∣ 2 ^ 15) (x : U16) {j k : ℕ} (hj : j < num)
    (hk : k < num) (hne : j ≠ k) :
    descIndex num (x + BitVec.ofNat 16 j) ≠ descIndex num (x + BitVec.ofNat 16 k) := by
  rw [descIndex_add hnum, descIndex_add hnum]
  intro heq
  have hmod : j ≡ k [MOD num] := Nat.ModEq.add_left_cancel' x.toNat heq
  exact hne (hmod.eq_of_lt_of_lt hj hk)

theorem ofNat_succ (x : U16) (n : ℕ) :
    x + BitVec.ofNat 16 n + 1 = x + BitVec.ofNat 16 (n + 1) := by
  rw [BitVec.add_assoc]
  congr 1
  exact (BitVec.ofNat_add n 1).symm

/-- A ring holds the heads `l` from `idx` on, read through `slot`. -/
def HoldsFrom (slot : ℕ → ℕ) (num : ℕ) (idx : U16) (l : List ℕ) : Prop :=
  ∀ k head, l[k]? = some head → slot (descIndex num (idx + BitVec.ofNat 16 k)) = head

section

variable {slot : ℕ → ℕ} {num : ℕ} {idx : U16} {head : ℕ} {l : List ℕ}

theorem HoldsFrom.first (h : HoldsFrom slot num idx (head :: l)) :
    slot (descIndex num idx) = head := by
  have hzero := h 0 head rfl
  rwa [BitVec.add_zero] at hzero

theorem HoldsFrom.rest (h : HoldsFrom slot num idx (head :: l)) :
    HoldsFrom slot num (idx + 1) l := by
  intro k head' hk
  have hnext := h (k + 1) head' (by simpa using hk)
  have hsucc : idx + 1 + BitVec.ofNat 16 k = idx + BitVec.ofNat 16 (k + 1) := by
    rw [← ofNat_succ, BitVec.add_assoc, BitVec.add_comm 1, ← BitVec.add_assoc]
  rwa [hsucc]

theorem HoldsFrom.concat {slot' : ℕ → ℕ} (hnum : num ∣ 2 ^ 15) (h : HoldsFrom slot num idx l)
    (hroom : l.length < num)
    (hnew : slot' (descIndex num (idx + BitVec.ofNat 16 l.length)) = head)
    (hother : ∀ i, i ≠ descIndex num (idx + BitVec.ofNat 16 l.length) → slot' i = slot i) :
    HoldsFrom slot' num idx (l ++ [head]) := by
  intro k head' hk
  rcases Nat.lt_trichotomy k l.length with hlt | heq | hgt
  · rw [List.getElem?_append_left hlt] at hk
    rw [hother _ (descIndex_ne hnum idx (by omega) hroom (by omega))]
    exact h k head' hk
  · subst heq
    simp only [List.getElem?_concat_length, Option.some.injEq] at hk
    rw [hnew, hk]
  · rw [List.getElem?_eq_none (by simp; omega)] at hk
    cases hk

end

/-! ## The invariant -/

/-- What the used ring holds, as the driver reads it. -/
def SplitRing.usedHead (q : SplitRing β) (i : ℕ) : ℕ := ((q.usedRing i).id.setWidth 16).toNat

/-- Every chain in flight is untaken, held by the device or returned, and until an entry is
withdrawn the available ring holds the untaken ones in order. -/
structure Consistent (w : LiveQueue β) (free : List ℕ) (untaken held returned : List (Chain β)) :
    Prop where
  layout : Layout w.ring free (untaken ++ (held ++ returned))
  size : w.ring.num ∣ 2 ^ 15
  held_eq : w.held = held.map fun c => ⟨c.head, c.descs⟩
  returned_eq : w.returned = returned.map Chain.head
  shared : w.ring.availIdx = w.ring.masterIdx
  available : w.ring.masterIdx = w.lastAvail + BitVec.ofNat 16 untaken.length
  aligned : w.withdrawn = false →
    HoldsFrom w.ring.availRing w.ring.num w.lastAvail (untaken.map Chain.head)
  used : w.ring.usedIdx = w.ring.lastUsed + BitVec.ofNat 16 returned.length
  filled : HoldsFrom w.ring.usedHead w.ring.num w.ring.lastUsed (returned.map Chain.head)
  published : w.published = w.taken + untaken.length
  position : w.lastAvail = BitVec.ofNat 16 w.taken
  running : w.hung = false

section

variable {w w' : LiveQueue β} {free : List ℕ} {untaken held returned : List (Chain β)}

theorem Layout.freeDescs_eq {q : SplitRing β} {chains : List (Chain β)}
    (h : Layout q free chains) : freeDescs q = free := by
  obtain ⟨e, hlinked⟩ := h.linked
  unfold freeDescs
  rw [h.unused]
  exact hlinked.iterate_eq

theorem Consistent.sound (h : Consistent w free untaken held returned) : w.Sound := by
  refine ⟨h.running, ?_, ?_, ?_⟩
  · rw [h.shared, h.available, h.position, h.published, BitVec.ofNat_add]
  · rw [h.published]
    omega
  · intro taken htaken d hd
    rw [h.held_eq, List.mem_map] at htaken
    obtain ⟨c, hc, rfl⟩ := htaken
    rw [h.layout.freeDescs_eq]
    apply h.layout.free_disjoint (c := c) ?_ hd
    simp [hc]

theorem LiveQueue.new_consistent (num : ℕ) (hnum : num ∣ 2 ^ 15) :
    Consistent (LiveQueue.new β num) (List.range num) [] [] [] where
  layout := Layout.new β num false
  size := hnum
  held_eq := rfl
  returned_eq := rfl
  shared := rfl
  available := rfl
  aligned _ k head hk := by simp at hk
  used := rfl
  filled k head hk := by simp at hk
  published := rfl
  position := rfl
  running := rfl

theorem Consistent.mem_untaken (h : Consistent w free untaken held returned) {head : ℕ}
    (huntaken : w.Untaken head) : ∃ c ∈ untaken, c.head = head := by
  obtain ⟨hused, hheld, hreturned⟩ := huntaken
  obtain ⟨c, hc, rfl⟩ := (h.layout.inUse_iff head).mp hused
  rcases List.mem_append.mp hc with hc | hc
  · exact ⟨c, hc, rfl⟩
  rcases List.mem_append.mp hc with hc | hc
  · rw [h.held_eq] at hheld
    exact absurd (List.mem_map.mpr ⟨_, List.mem_map.mpr ⟨c, hc, rfl⟩, rfl⟩) hheld
  · rw [h.returned_eq] at hreturned
    exact absurd (List.mem_map.mpr ⟨c, hc, rfl⟩) hreturned

/-! ## The steps -/

theorem addBuf_consistent (h : Consistent w free untaken held returned) {sg : Scatter}
    {rest : List Scatter} {out : ℕ} {io : β} {indirect : Option IndirectPage} {ring : SplitRing β}
    (hadd : virtqueueAddBufSplit sg rest out io indirect w.ring = some ring) :
    ∃ c free', c.data = io ∧ c.descs.length = addCost rest indirect ∧
      Consistent { w with ring, published := w.published + 1 } free' (untaken ++ [c]) held
        returned ∧
      ring.num = w.ring.num ∧ ring.lastUsed = w.ring.lastUsed ∧
      ring.usedRing = w.ring.usedRing := by
  obtain ⟨c, free', hdata, hcost, -, hlayout, hring⟩ := h.layout.add sg rest out io indirect hadd
  have hperm : (c :: (untaken ++ (held ++ returned))).Perm
      ((untaken ++ [c]) ++ (held ++ returned)) := by
    rw [List.append_assoc]
    exact List.perm_middle.symm
  have hroom : untaken.length < w.ring.num := by
    have hlength := hlayout.chains_length_le
    rw [hring] at hlength
    simp [publish] at hlength
    omega
  refine ⟨c, free', hdata, hcost, ⟨hlayout.of_perm hperm, ?_, h.held_eq, h.returned_eq, ?_, ?_, ?_,
    ?_, ?_, ?_, h.position, h.running⟩, ?_, ?_, ?_⟩
  · rw [hring]
    exact h.size
  · rw [hring]
    rfl
  · rw [hring, List.length_append]
    change w.ring.masterIdx + 1 = _
    rw [h.available]
    exact ofNat_succ _ _
  · intro hwithdrawn
    rw [hring, List.map_append]
    apply (h.aligned hwithdrawn).concat h.size
    · simpa using hroom
    · simp [publish, h.available]
    · intro i hi
      rw [List.length_map, ← h.available] at hi
      simp [publish, Function.update_of_ne hi]
  · rw [hring]
    exact h.used
  · rw [hring]
    exact h.filled
  · change w.published + 1 = w.taken + (untaken ++ [c]).length
    rw [h.published, List.length_append]
    rfl
  · rw [hring]
    rfl
  · rw [hring]
    rfl
  · rw [hring]
    rfl

private theorem submitBuf_consistent (request status : Scatter) (io : β)
    (h : Consistent w free untaken held returned) :
    ∃ free' untaken', Consistent (submitBuf request status io w) free' untaken' held returned := by
  unfold submitBuf
  cases hadd : virtqueueAddBufSplit request [status] 1 io none w.ring with
  | none => exact ⟨free, untaken, h⟩
  | some ring =>
      obtain ⟨c, free', -, -, hnext, -⟩ := addBuf_consistent h hadd
      exact ⟨free', untaken ++ [c], hnext⟩

theorem getBuf_some (ring : SplitRing β) (c : Chain β) (others : List (Chain β)) {free : List ℕ}
    (hlayout : Layout ring free (c :: others)) (hpending : ring.lastUsed ≠ ring.usedIdx)
    (hhead : ring.usedHead (descIndex ring.num ring.lastUsed) = c.head) :
    ∃ next, virtqueueGetBufSplit ring = some (some (some c.data,
        (ring.usedRing (descIndex ring.num ring.lastUsed)).len), next) ∧
      Layout next (c.descs ++ free) others ∧
      next = { ring with
        desc := next.desc, data := next.data, numUnused := next.numUnused
        firstUnused := next.firstUnused, lastUsed := ring.lastUsed + 1
        usedEvent := next.usedEvent } := by
  obtain ⟨hput, hfreed⟩ := hlayout.put
  have hdata := (hlayout.has c List.mem_cons_self).data
  unfold virtqueueGetBufSplit
  rw [if_neg hpending]
  dsimp only
  change ((ring.usedRing _).id.setWidth 16).toNat = c.head at hhead
  rw [hhead, hput, hdata]
  refine ⟨_, rfl, ?_, ?_⟩
  · split
    · exact hfreed.congr rfl rfl rfl rfl rfl
    · exact hfreed.congr rfl rfl rfl rfl rfl
  · split <;> rfl

theorem firstInUse_data {q : SplitRing β} {head : ℕ} (h : firstInUse q = some head) :
    (q.data head).isSome = true := by
  have hfound := List.find?_some h
  exact hfound

theorem detach_some (ring : SplitRing β) (c : Chain β) (others : List (Chain β)) {free : List ℕ}
    (hlayout : Layout ring free (c :: others)) (hfirst : firstInUse ring = some c.head) :
    ∃ next, virtqueueDetachUnusedBufSplit ring = some (some c.data, next) ∧
      Layout next (c.descs ++ free) others ∧
      next = { ring with
        desc := next.desc, data := next.data, numUnused := next.numUnused
        firstUnused := next.firstUnused, availIdx := ring.masterIdx - 1
        masterIdx := ring.masterIdx - 1 } := by
  obtain ⟨hput, hfreed⟩ := hlayout.put
  have hdata := (hlayout.has c List.mem_cons_self).data
  simp only [virtqueueDetachUnusedBufSplit, hfirst, hput, hdata, Option.map_some]
  exact ⟨_, rfl, hfreed.congr rfl rfl rfl rfl rfl, rfl⟩

theorem getBuf_consistent {c : Chain β} (h : Consistent w free untaken held (c :: returned)) :
    ∃ next, virtqueueGetBufSplit w.ring = some (some (some c.data,
        (w.ring.usedRing (descIndex w.ring.num w.ring.lastUsed)).len), next) ∧
      Consistent { w with ring := next, returned := w.returned.tail } (c.descs ++ free) untaken
        held returned ∧
      next.num = w.ring.num ∧ next.lastUsed = w.ring.lastUsed + 1 ∧
      next.usedRing = w.ring.usedRing := by
  have hperm : (untaken ++ (held ++ c :: returned)).Perm
      (c :: (untaken ++ (held ++ returned))) := by
    rw [← List.append_assoc, ← List.append_assoc]
    exact List.perm_middle
  have hlayout := h.layout.of_perm hperm
  have hcount : returned.length + 1 < 2 ^ 16 := by
    have hfull := h.layout.chains_length_le
    have hle := Nat.le_of_dvd (by decide) h.size
    simp only [List.length_append, List.length_cons] at hfull
    omega
  have hpending : w.ring.lastUsed ≠ w.ring.usedIdx := by
    rw [h.used, List.length_cons]
    intro heq
    have hnat := congrArg BitVec.toNat heq
    rw [BitVec.toNat_add, BitVec.toNat_ofNat] at hnat
    omega
  obtain ⟨next, hget, hlayout', hnext⟩ := getBuf_some w.ring c (untaken ++ (held ++ returned))
    hlayout hpending h.filled.first
  refine ⟨next, hget, ⟨hlayout', ?_, h.held_eq, ?_, ?_, ?_, ?_, ?_, ?_, h.published, h.position,
    h.running⟩, ?_, ?_, ?_⟩
  · rw [hnext]
    exact h.size
  · rw [h.returned_eq]
    rfl
  · rw [hnext]
    exact h.shared
  · rw [hnext]
    exact h.available
  · rw [hnext]
    exact h.aligned
  · rw [hnext]
    change w.ring.usedIdx = w.ring.lastUsed + 1 + BitVec.ofNat 16 returned.length
    rw [h.used, List.length_cons, ← ofNat_succ, BitVec.add_assoc, BitVec.add_assoc,
      BitVec.add_comm 1]
  · rw [hnext]
    exact h.filled.rest
  · rw [hnext]
  · rw [hnext]
  · rw [hnext]

theorem getBuf_none (h : Consistent w free untaken held []) :
    virtqueueGetBufSplit w.ring = some (none, w.ring) := by
  have hused := h.used
  rw [List.length_nil, BitVec.add_zero] at hused
  unfold virtqueueGetBufSplit
  rw [if_pos hused.symm]

private theorem reclaimBuf_consistent (h : Consistent w free untaken held returned) :
    ∃ free' returned', Consistent (reclaimBuf w) free' untaken held returned' := by
  unfold reclaimBuf
  cases returned with
  | nil =>
      rw [getBuf_none h]
      exact ⟨free, [], h⟩
  | cons c rest =>
      obtain ⟨next, hget, hnext, -⟩ := getBuf_consistent h
      rw [hget]
      exact ⟨c.descs ++ free, rest, hnext⟩

private theorem detachBuf_consistent (h : Consistent w free untaken held returned)
    (hg : WithdrawGuard w .detach) :
    ∃ free' untaken', Consistent (detachBuf w) free' untaken' held returned := by
  unfold detachBuf virtqueueDetachUnusedBufSplit
  cases hfound : firstInUse w.ring with
  | none => exact ⟨free, untaken, h⟩
  | some head =>
      obtain ⟨c, hc, rfl⟩ := h.mem_untaken (hg head hfound)
      obtain ⟨front, back, rfl⟩ := List.append_of_mem hc
      have hperm : ((front ++ c :: back) ++ (held ++ returned)).Perm
          (c :: ((front ++ back) ++ (held ++ returned))) := by
        rw [← List.cons_append]
        exact List.perm_middle.append_right _
      have hlayout := h.layout.of_perm hperm
      obtain ⟨hput, hfreed⟩ := hlayout.put
      have hdata := (hlayout.has c List.mem_cons_self).data
      have hcount : (front ++ c :: back).length = (front ++ back).length + 1 := by
        simp
        omega
      have hpublished : w.published - 1 = w.taken + (front ++ back).length := by
        rw [h.published, hcount]
        omega
      refine ⟨c.descs ++ free, front ++ back, ?_⟩
      simp only [hput, hdata, Option.map_some]
      refine ⟨hfreed.congr rfl rfl rfl rfl rfl, h.size, h.held_eq, h.returned_eq, rfl, ?_, ?_,
        h.used, h.filled, hpublished, h.position, h.running⟩
      · change w.ring.masterIdx - 1 = _
        rw [h.available, hcount, ← ofNat_succ, BitVec.add_sub_cancel]
      · -- entries left over keep the queue marked as withdrawn
        intro hnone k head hk
        have hempty : (front ++ back).length = 0 := by
          have hall : w.published - 1 = w.taken := by simpa using hnone
          omega
        rw [List.length_eq_zero_iff.mp hempty] at hk
        simp at hk

/-- Detaching a chain the device holds is never sound. -/
theorem detachBuf_held_not_sound (h : Consistent w free untaken held returned) {head : ℕ}
    (hfound : firstInUse w.ring = some head) (hheld : head ∈ w.held.map TakenChain.head) :
    ¬ (detachBuf w).Sound := by
  rw [h.held_eq, List.map_map, List.mem_map] at hheld
  obtain ⟨c, hc, rfl⟩ := hheld
  change firstInUse w.ring = some c.head at hfound
  obtain ⟨front, back, rfl⟩ := List.append_of_mem hc
  have hperm : (untaken ++ ((front ++ c :: back) ++ returned)).Perm
      (c :: (untaken ++ ((front ++ back) ++ returned))) := by
    rw [List.append_assoc, List.append_assoc, ← List.append_assoc, ← List.append_assoc untaken]
    exact List.perm_middle
  obtain ⟨next, hdetach, hnext, -⟩ := detach_some _ c _ (h.layout.of_perm hperm) hfound
  intro hsound
  unfold detachBuf at hsound
  rw [hdetach] at hsound
  have hmem : (⟨c.head, c.descs⟩ : TakenChain) ∈ w.held := by
    rw [h.held_eq]
    exact List.mem_map_of_mem hc
  apply hsound.kept _ hmem c.last c.last_mem
  change c.last ∈ freeDescs next
  rw [hnext.freeDescs_eq]
  exact List.mem_append_left _ c.last_mem

theorem deviceWalk_eq {q : SplitRing β} {c : Chain β} {others : List (Chain β)}
    (hlayout : Layout q free (c :: others)) : deviceWalk q c.head = c.descs := by
  unfold deviceWalk
  rw [hlayout.walkTo_head List.mem_cons_self]
  rfl

private theorem takeEntry_consistent_of {c : Chain β} {front back : List (Chain β)}
    (h : Consistent w free (front ++ c :: back) held returned) (hhead : w.nextHead = c.head)
    (hpending : w.ring.availIdx ≠ w.lastAvail)
    (haligned : w.withdrawn = false →
      HoldsFrom w.ring.availRing w.ring.num (w.lastAvail + 1) ((front ++ back).map Chain.head)) :
    Consistent (takeEntry w) free (front ++ back) (held ++ [c]) returned := by
  have hmiddle : ((front ++ c :: back) ++ (held ++ returned)).Perm
      (c :: ((front ++ back) ++ (held ++ returned))) := by
    rw [← List.cons_append]
    exact List.perm_middle.append_right _
  have hperm : (c :: ((front ++ back) ++ (held ++ returned))).Perm
      ((front ++ back) ++ ((held ++ [c]) ++ returned)) := by
    rw [List.append_assoc held, List.singleton_append, ← List.append_assoc, ← List.append_assoc]
    exact List.perm_middle.symm
  have hcount : (front ++ c :: back).length = (front ++ back).length + 1 := by
    simp
    omega
  unfold takeEntry
  rw [if_neg hpending, hhead, deviceWalk_eq (h.layout.of_perm hmiddle)]
  refine ⟨h.layout.of_perm (hmiddle.trans hperm), h.size, ?_, h.returned_eq, h.shared, ?_, ?_,
    h.used, h.filled, ?_, ?_, h.running⟩
  · rw [h.held_eq, List.map_append]
    rfl
  · change w.ring.masterIdx = w.lastAvail + 1 + _
    rw [h.available, hcount, ← ofNat_succ, BitVec.add_assoc, BitVec.add_assoc, BitVec.add_comm 1]
  · intro hnone
    by_cases hold : w.withdrawn = false
    · exact haligned hold
    · -- the last entry was taken: nothing is left that could be out of place
      have hwas : w.withdrawn = true := by simpa using hold
      have hall : w.published = w.taken + 1 := by simpa [hwas] using hnone
      have hempty : (front ++ back).length = 0 := by
        have hpublished := h.published
        omega
      intro k head hk
      rw [List.length_eq_zero_iff.mp hempty] at hk
      simp at hk
  · change w.published = w.taken + 1 + _
    rw [h.published, hcount]
    omega
  · change w.lastAvail + 1 = BitVec.ofNat 16 (w.taken + 1)
    rw [h.position, BitVec.ofNat_add]
    rfl

/-- As long as no entry was withdrawn the device takes the untaken chains in order. -/
theorem takeEntry_inOrder (h : Consistent w free untaken held returned)
    (hnone : w.withdrawn = false) :
    ∃ untaken' held', held' ++ untaken' = held ++ untaken ∧
      Consistent (takeEntry w) free untaken' held' returned ∧
      (untaken' ≠ [] → held.length + 1 ≤ held'.length) := by
  have havailable := h.available
  rw [← h.shared] at havailable
  cases untaken with
  | nil =>
      rw [List.length_nil, BitVec.add_zero] at havailable
      unfold takeEntry
      rw [if_pos havailable]
      exact ⟨[], held, rfl, h, fun hne => absurd rfl hne⟩
  | cons c rest =>
      have hpending : w.ring.availIdx ≠ w.lastAvail := by
        have hfull := h.layout.chains_length_le
        have hle := Nat.le_of_dvd (by decide) h.size
        simp only [List.length_append, List.length_cons] at hfull
        rw [havailable, List.length_cons]
        intro heq
        have hnat := congrArg BitVec.toNat heq
        rw [BitVec.toNat_add, BitVec.toNat_ofNat] at hnat
        omega
      have hnext : Consistent w free ([] ++ c :: rest) held returned := h
      exact ⟨rest, held ++ [c], by simp, takeEntry_consistent_of hnext (h.aligned hnone).first
        hpending fun _ => (h.aligned hnone).rest, fun _ => by simp⟩

private theorem takeEntry_consistent (h : Consistent w free untaken held returned)
    (hg : WithdrawGuard w .take) :
    ∃ untaken' held', Consistent (takeEntry w) free untaken' held' returned := by
  by_cases hpending : w.ring.availIdx = w.lastAvail
  · unfold takeEntry
    rw [if_pos hpending]
    exact ⟨untaken, held, h⟩
  by_cases hwithdrawn : w.withdrawn = true
  · obtain ⟨c, hc, hhead⟩ := h.mem_untaken (hg hwithdrawn hpending)
    obtain ⟨front, back, rfl⟩ := List.append_of_mem hc
    exact ⟨_, _, takeEntry_consistent_of h hhead.symm hpending
      fun hfalse => absurd hwithdrawn (by simp [hfalse])⟩
  · obtain ⟨untaken', held', -, hnext, -⟩ := takeEntry_inOrder h (by simpa using hwithdrawn)
    exact ⟨untaken', held', hnext⟩

theorem giveBackChain_none (h : Consistent w free untaken held returned) {k : ℕ}
    (hk : held[k]? = none) (len : BitVec 32) : giveBackChain k len w = w := by
  unfold giveBackChain
  rw [h.held_eq, List.getElem?_map, hk]
  rfl

theorem giveBackChain_consistent_of {c : Chain β} (h : Consistent w free untaken held returned)
    {k : ℕ} (hk : held[k]? = some c) (len : BitVec 32) :
    Consistent (giveBackChain k len w) free untaken (held.eraseIdx k) (returned ++ [c]) ∧
      (giveBackChain k len w).ring.num = w.ring.num ∧
      (giveBackChain k len w).ring.lastUsed = w.ring.lastUsed ∧
      (giveBackChain k len w).ring.usedRing = Function.update w.ring.usedRing
        (descIndex w.ring.num (w.ring.lastUsed + BitVec.ofNat 16 returned.length))
        ⟨BitVec.ofNat 32 c.head, len⟩ ∧
      returned.length < w.ring.num := by
  have hget : w.held[k]? = some ⟨c.head, c.descs⟩ := by
    rw [h.held_eq, List.getElem?_map, hk]
    rfl
  unfold giveBackChain
  rw [hget]
  have hmem : c ∈ held := List.mem_of_getElem? hk
  have hperm : (untaken ++ (held ++ returned)).Perm
      (untaken ++ (held.eraseIdx k ++ (returned ++ [c]))) := by
    apply List.Perm.append_left
    have hsplit : held.Perm (c :: held.eraseIdx k) := by
      obtain ⟨hlt, rfl⟩ := List.getElem?_eq_some_iff.mp hk
      exact (List.getElem_cons_eraseIdx_perm hlt).symm
    rw [← List.append_assoc]
    exact (hsplit.append_right returned).trans (List.perm_append_singleton c _).symm
  have hlayout := h.layout.of_perm hperm
  have hroom : returned.length < w.ring.num := by
    have hlength := hlayout.chains_length_le
    simp at hlength
    omega
  have hnum : w.ring.num < 2 ^ 16 := by
    have hle := Nat.le_of_dvd (by decide) h.size
    omega
  have hhead : c.head < w.ring.num :=
    h.layout.lt_num (List.mem_append_right _ (List.mem_append_left _ hmem)) c.head_mem
  refine ⟨⟨hlayout.congr rfl rfl rfl rfl rfl, h.size, ?_, ?_, h.shared, h.available, h.aligned,
    ?_, ?_, h.published, h.position, h.running⟩, rfl, rfl, by rw [← h.used], hroom⟩
  · rw [h.held_eq]
    exact List.eraseIdx_map _ _ _
  · rw [h.returned_eq, List.map_append]
    rfl
  · change w.ring.usedIdx + 1 = _
    rw [h.used, List.length_append]
    exact ofNat_succ _ _
  · rw [List.map_append]
    apply h.filled.concat h.size
    · simpa using hroom
    · rw [List.length_map, ← h.used]
      simp only [SplitRing.usedHead, Function.update_self, BitVec.toNat_setWidth,
        BitVec.toNat_ofNat]
      omega
    · intro i hi
      rw [List.length_map, ← h.used] at hi
      simp [SplitRing.usedHead, Function.update_of_ne hi]

private theorem giveBackChain_consistent (k : ℕ) (len : BitVec 32)
    (h : Consistent w free untaken held returned) :
    ∃ held' returned', Consistent (giveBackChain k len w) free untaken held' returned' := by
  cases hk : held[k]? with
  | none =>
      rw [giveBackChain_none h hk]
      exact ⟨held, returned, h⟩
  | some c =>
      obtain ⟨hnext, -⟩ := giveBackChain_consistent_of h hk len
      exact ⟨held.eraseIdx k, returned ++ [c], hnext⟩

/-- Some account of the queue's chains is consistent. -/
def LiveQueue.Accounted (w : LiveQueue β) : Prop :=
  ∃ free untaken held returned, Consistent w free untaken held returned

theorem LiveQueue.step_accounted (w : LiveQueue β) (s : QueueStep β) (hw : w.Accounted)
    (hg : WithdrawGuard w s) : (w.step s).Accounted := by
  obtain ⟨free, untaken, held, returned, h⟩ := hw
  cases s with
  | submit request status io =>
      obtain ⟨free', untaken', h'⟩ := submitBuf_consistent request status io h
      refine ⟨free', untaken', held, returned, ?_⟩
      have hstep : w.step (.submit request status io) = submitBuf request status io w :=
        if_neg (by simp [h.running])
      rw [hstep]
      exact h'
  | reclaim =>
      obtain ⟨free', returned', h'⟩ := reclaimBuf_consistent h
      refine ⟨free', untaken, held, returned', ?_⟩
      have hstep : w.step .reclaim = reclaimBuf w := if_neg (by simp [h.running])
      rw [hstep]
      exact h'
  | detach =>
      obtain ⟨free', untaken', h'⟩ := detachBuf_consistent h hg
      refine ⟨free', untaken', held, returned, ?_⟩
      have hstep : w.step .detach = detachBuf w := if_neg (by simp [h.running])
      rw [hstep]
      exact h'
  | take =>
      obtain ⟨untaken', held', h'⟩ := takeEntry_consistent h hg
      exact ⟨free, untaken', held', returned, h'⟩
  | giveBack k len =>
      obtain ⟨held', returned', h'⟩ := giveBackChain_consistent k len h
      exact ⟨free, untaken, held', returned', h'⟩

end

end Viosnd.VirtIO
