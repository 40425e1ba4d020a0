import Viosnd.Wdf.CommonBuffers

/-!
# Safety of the common buffers

The objects are sound as long as only objects that are not deleted are touched, and only objects
that have left the collection are deleted. The threads keep it so when no two of them are going to
delete the same object.
-/

namespace Viosnd.Wdf

open StepRun

/-! ## The objects -/

def CommonBuffer.Apart (c d : CommonBuffer) : Prop :=
  c.virtualAddress + c.length ≤ d.virtualAddress ∨ d.virtualAddress + d.length ≤ c.virtualAddress

/-- The context was filled in for the buffer. -/
structure MemoryBlockContext.Describes (c : MemoryBlockContext) (d : CommonBuffer) : Prop where
  physical : c.physicalAddress = d.logicalAddress
  virtual : c.pVirtualAddress = d.virtualAddress
  length : c.length = d.length

/-- The buffers of objects that are not deleted do not overlap. -/
def Blocks.Disjoint (b : Blocks) : Prop :=
  ∀ o p, o < b.created → p < b.created → o ≠ p → b.deletions o = 0 → b.deletions p = 0 →
    (b.buffer o).Apart (b.buffer p)

structure Blocks.Sound (b : Blocks) : Prop where
  once : ∀ o, b.deletions o ≤ 1
  unborn : ∀ o, b.created ≤ o → b.deletions o = 0
  untouched : b.touchedDeleted = false
  nodup : b.collection.Nodup
  listed : ∀ o ∈ b.collection, o < b.created ∧ b.deletions o = 0
  described : ∀ o ∈ b.collection, (b.context o).Describes (b.buffer o)
  apart : b.Disjoint
  live : ∀ o, b.live o = true ↔ o ∈ b.collection ∧ (b.context o).bToBeDeleted = false

section

variable {b : Blocks} {o : ℕ}

private theorem touch_eq {objs : List ℕ} (h : ∀ o ∈ objs, b.deletions o = 0) :
    b.touch objs = b := by
  have hnone : (objs.any fun o => decide (b.deletions o ≠ 0)) = false := by
    rw [List.any_eq_false]
    intro o ho
    simp [h o ho]
  unfold Blocks.touch
  rw [hnone, Bool.or_false]

theorem touch_one (h : b.deletions o = 0) : b.touch [o] = b := by
  apply touch_eq
  intro p hp
  rw [List.mem_singleton.mp hp]
  exact h

private theorem visited_subset (p : ℕ → Bool) (l : List ℕ) : visited p l ⊆ l := by
  induction l with
  | nil => exact List.Subset.refl []
  | cons o l ih =>
      rw [visited]
      split_ifs
      · exact List.cons_subset_cons o (List.nil_subset l)
      · exact List.cons_subset_cons o ih

private theorem Blocks.Sound.touch_visited (h : b.Sound) (p : ℕ → Bool) :
    b.touch (visited p b.collection) = b := by
  apply touch_eq
  intro o ho
  exact (h.listed o (visited_subset p _ ho)).2

theorem fresh_sound (τ : Type) : (Store.fresh τ).Sound where
  once _ := Nat.zero_le 1
  unborn _ _ := rfl
  untouched := rfl
  nodup := List.nodup_nil
  listed _ ho := absurd ho List.not_mem_nil
  described _ ho := absurd ho List.not_mem_nil
  apart _ _ ho := absurd ho (Nat.not_lt_zero _)
  live o := by simp [Store.fresh]

/-- New memory is apart from all that is in use. -/
theorem Blocks.Sound.create (h : b.Sound) {size virtual : ℕ} (logical : ℕ)
    (hfresh : ∀ o < b.created, b.deletions o = 0 →
      virtual + size ≤ (b.buffer o).virtualAddress ∨
        (b.buffer o).virtualAddress + (b.buffer o).length ≤ virtual) :
    (b.create size virtual logical).Sound where
  once := h.once
  unborn o ho := h.unborn o (Nat.le_of_succ_le ho)
  untouched := h.untouched
  nodup := h.nodup
  listed o ho := ⟨Nat.lt_succ_of_lt (h.listed o ho).1, (h.listed o ho).2⟩
  described o ho := by
    have hne : o ≠ b.created := Nat.ne_of_lt (h.listed o ho).1
    change (b.context o).Describes (Function.update b.buffer b.created _ o)
    rw [Function.update_of_ne hne]
    exact h.described o ho
  apart o p ho hp hne hdeleted hdeleted' := by
    change (Function.update b.buffer b.created ⟨virtual, logical, size⟩ o).Apart
      (Function.update b.buffer b.created ⟨virtual, logical, size⟩ p)
    have hold : ∀ q < b.created + 1, q ≠ b.created → q < b.created := by
      intro q hq hqne
      omega
    by_cases hnew : o = b.created
    · have hpold := hold p hp fun heq => hne (hnew.trans heq.symm)
      rw [hnew, Function.update_self, Function.update_of_ne (Nat.ne_of_lt hpold)]
      exact hfresh p hpold hdeleted'
    · have hoold := hold o ho hnew
      rw [Function.update_of_ne hnew]
      by_cases hnew' : p = b.created
      · rw [hnew', Function.update_self]
        exact (hfresh o hoold hdeleted).symm
      · rw [Function.update_of_ne hnew']
        exact h.apart o p hoold (hold p hp hnew') hne hdeleted hdeleted'
  live := h.live

theorem Blocks.Sound.add (h : b.Sound) (hborn : o < b.created) (hdeleted : b.deletions o = 0)
    (hnew : o ∉ b.collection) (tag : BitVec 32) : (b.add o tag).Sound where
  once := h.once
  unborn := h.unborn
  untouched := h.untouched
  nodup := by
    change (b.collection ++ [o]).Nodup
    rw [(List.perm_append_singleton o b.collection).nodup_iff]
    exact List.nodup_cons.mpr ⟨hnew, h.nodup⟩
  listed p hp := by
    rcases List.mem_append.mp hp with hold | hself
    · exact h.listed p hold
    · rw [List.mem_singleton.mp hself]
      exact ⟨hborn, hdeleted⟩
  described p hp := by
    change (Function.update b.context o _ p).Describes (b.buffer p)
    by_cases hself : p = o
    · rw [hself, Function.update_self]
      exact ⟨rfl, rfl, rfl⟩
    · rw [Function.update_of_ne hself]
      rcases List.mem_append.mp hp with hold | heq
      · exact h.described p hold
      · exact absurd (List.mem_singleton.mp heq) hself
  apart := h.apart
  live p := by
    change Function.update b.live o true p = true ↔
      p ∈ b.collection ++ [o] ∧ (Function.update b.context o _ p).bToBeDeleted = false
    by_cases hself : p = o
    · simp [hself]
    · rw [Function.update_of_ne hself, Function.update_of_ne hself, h.live p]
      simp [hself]

theorem Blocks.Sound.mark (h : b.Sound) (o : ℕ) : (b.mark o).Sound where
  once := h.once
  unborn := h.unborn
  untouched := h.untouched
  nodup := h.nodup
  listed := h.listed
  described p hp := by
    change (Function.update b.context o _ p).Describes (b.buffer p)
    by_cases hself : p = o
    · rw [hself, Function.update_self]
      obtain ⟨hphysical, hvirtual, hlength⟩ := h.described o (hself ▸ hp)
      exact ⟨hphysical, hvirtual, hlength⟩
    · rw [Function.update_of_ne hself]
      exact h.described p hp
  apart := h.apart
  live p := by
    change Function.update b.live o false p = true ↔
      p ∈ b.collection ∧ (Function.update b.context o _ p).bToBeDeleted = false
    by_cases hself : p = o
    · simp [hself]
    · rw [Function.update_of_ne hself, Function.update_of_ne hself]
      exact h.live p

theorem Blocks.Sound.remove (h : b.Sound) (hdeleted : b.deletions o = 0) : (b.remove o).Sound := by
  unfold Blocks.remove
  rw [touch_one hdeleted]
  refine ⟨h.once, h.unborn, h.untouched, h.nodup.erase o, ?_, ?_, h.apart, ?_⟩
  · intro p hp
    exact h.listed p (List.mem_of_mem_erase hp)
  · intro p hp
    exact h.described p (List.mem_of_mem_erase hp)
  · intro p
    change Function.update b.live o false p = true ↔
      p ∈ b.collection.erase o ∧ (b.context p).bToBeDeleted = false
    rw [h.nodup.mem_erase_iff]
    by_cases hself : p = o
    · simp [hself]
    · rw [Function.update_of_ne hself, h.live p]
      simp [hself]

theorem Blocks.Sound.delete (h : b.Sound) (hborn : o < b.created) (hdeleted : b.deletions o = 0)
    (hnot : o ∉ b.collection) : (b.delete o).Sound := by
  unfold Blocks.delete
  rw [touch_one hdeleted]
  have hother : ∀ p, p ≠ o →
      Function.update b.deletions o (b.deletions o + 1) p = b.deletions p :=
    fun p hp => Function.update_of_ne hp _ _
  have hzero : ∀ p, Function.update b.deletions o (b.deletions o + 1) p = 0 →
      b.deletions p = 0 := by
    intro p hp
    by_cases hself : p = o
    · rw [hself]
      exact hdeleted
    · rwa [hother p hself] at hp
  refine ⟨?_, ?_, h.untouched, h.nodup, ?_, h.described, ?_, h.live⟩
  · intro p
    change Function.update b.deletions o (b.deletions o + 1) p ≤ 1
    by_cases hself : p = o
    · rw [hself, Function.update_self, hdeleted]
    · rw [hother p hself]
      exact h.once p
  · intro p hp
    have hne : p ≠ o := by
      intro hself
      rw [hself] at hp
      exact absurd hborn (Nat.not_lt.mpr hp)
    exact (hother p hne).trans (h.unborn p hp)
  · intro p hp
    have hne : p ≠ o := fun hself => hnot (hself ▸ hp)
    exact ⟨(h.listed p hp).1, (hother p hne).trans (h.listed p hp).2⟩
  · intro p q hp hq hne hp0 hq0
    exact h.apart p q hp hq hne (hzero p hp0) (hzero q hq0)

private theorem Blocks.Sound.matches_iff (h : b.Sound) (ho : o ∈ b.collection) (va : ℕ) :
    (b.context o).matches va false = true ↔ b.live o = true ∧ (b.buffer o).covers va := by
  obtain ⟨-, hvirtual, hlength⟩ := h.described o ho
  unfold MemoryBlockContext.matches CommonBuffer.covers
  rw [h.live o, hvirtual, hlength]
  simp [ho, and_assoc]

private theorem Blocks.Sound.covers_unique (h : b.Sound) {p va : ℕ} (ho : b.live o = true)
    (hp : b.live p = true) (hcovers : (b.buffer o).covers va) (hcovers' : (b.buffer p).covers va) :
    o = p := by
  have hlisted := h.listed o ((h.live o).mp ho).1
  have hlisted' := h.listed p ((h.live p).mp hp).1
  by_contra hne
  have hapart := h.apart o p hlisted.1 hlisted'.1 hne hlisted.2 hlisted'.2
  unfold CommonBuffer.covers at hcovers hcovers'
  unfold CommonBuffer.Apart at hapart
  omega

theorem Blocks.Sound.find_eq_some_iff (h : b.Sound) (va : ℕ) :
    b.find va false = some o ↔ b.live o = true ∧ (b.buffer o).covers va := by
  have hfound : ∀ p, b.find va false = some p → b.live p = true ∧ (b.buffer p).covers va := by
    intro p hp
    have hmem := List.mem_of_find?_eq_some hp
    have hmatch := List.find?_some (p := fun o => (b.context o).matches va false) hp
    exact (h.matches_iff hmem va).mp hmatch
  constructor
  · exact hfound o
  · intro ⟨hlive, hcovers⟩
    have hmem := ((h.live o).mp hlive).1
    have hsome : (b.find va false).isSome = true := by
      unfold Blocks.find
      rw [List.find?_isSome]
      exact ⟨o, hmem, (h.matches_iff hmem va).mpr ⟨hlive, hcovers⟩⟩
    obtain ⟨p, hp⟩ := Option.isSome_iff_exists.mp hsome
    obtain ⟨hlive', hcovers'⟩ := hfound p hp
    rw [hp, h.covers_unique hlive' hlive hcovers' hcovers]

theorem Blocks.Sound.right (h : b.Sound) : BlocksRight b where
  once := h.once
  untouched := h.untouched
  located va pa := by
    unfold getPhysicalAddress
    rw [Option.map_eq_some_iff]
    apply exists_congr
    intro o
    rw [h.find_eq_some_iff, and_assoc]
    apply and_congr_right
    intro hlive
    obtain ⟨hphysical, hvirtual, -⟩ := h.described o ((h.live o).mp hlive).1
    rw [hphysical, hvirtual, eq_comm]

end

/-! ## The threads -/

def Place.adds : Place → Option ℕ
  | .adding obj _ => some obj
  | _ => none

/-- The object of a thread that is not yet in the collection, or not any more. -/
def Place.outside : Place → Option ℕ
  | .adding obj _ | .deleting obj | .dropping obj _ => some obj
  | _ => none

/-- No two threads are going to delete the same object, and every object that a thread is still to
touch is there. -/
structure ThreadsSound {τ : Type} (b : Blocks) (places : τ → Place) : Prop where
  owned : ∀ t o, (places t).owns = some o → o < b.created ∧ b.deletions o = 0
  used : ∀ t o, (places t).uses = some o → o < b.created ∧ b.deletions o = 0
  alone : ∀ t u o, (places t).owns = some o → (places u).owns = some o → t = u
  outside : ∀ t o, (places t).outside = some o → o ∉ b.collection
  unused : ∀ t u o, (places t).adds = some o → (places u).uses ≠ some o

/-- The thread may go on to the place. -/
structure Allowed {τ : Type} (b : Blocks) (places : τ → Place) (t : τ) (p : Place) : Prop where
  owned : ∀ o, p.owns = some o →
    o < b.created ∧ b.deletions o = 0 ∧ ∀ u, u ≠ t → (places u).owns ≠ some o
  used : ∀ o, p.uses = some o →
    o < b.created ∧ b.deletions o = 0 ∧ ∀ u, u ≠ t → (places u).adds ≠ some o
  outside : ∀ o, p.outside = some o → o ∉ b.collection
  unused : ∀ o, p.adds = some o → ∀ u, u ≠ t → (places u).uses ≠ some o

private theorem Place.owns_of_adds {p : Place} {o : ℕ} (h : p.adds = some o) : p.owns = some o := by
  cases p <;> first | exact h | cases h

private theorem Place.owns_of_outside {p : Place} {o : ℕ} (h : p.outside = some o) :
    p.owns = some o := by
  cases p <;> first | exact h | cases h

private theorem Place.uses_of_adds {p : Place} {o : ℕ} (h : p.adds = some o) : p.uses = none := by
  cases p <;> first | rfl | cases h

section

variable {τ : Type} {b b' : Blocks} {places : τ → Place} {t : τ} {p : Place} {o : ℕ}

theorem ThreadsSound.goTo [DecidableEq τ] (h : ThreadsSound b places)
    (hp : Allowed b places t p) : ThreadsSound b (Function.update places t p) := by
  refine ⟨?_, ?_, ?_, ?_, ?_⟩
  · intro u o ho
    by_cases hu : u = t
    · rw [hu, Function.update_self] at ho
      obtain ⟨hborn, hdeleted, -⟩ := hp.owned o ho
      exact ⟨hborn, hdeleted⟩
    · rw [Function.update_of_ne hu] at ho
      exact h.owned u o ho
  · intro u o ho
    by_cases hu : u = t
    · rw [hu, Function.update_self] at ho
      obtain ⟨hborn, hdeleted, -⟩ := hp.used o ho
      exact ⟨hborn, hdeleted⟩
    · rw [Function.update_of_ne hu] at ho
      exact h.used u o ho
  · intro u v o hu hv
    by_cases hut : u = t
    · by_cases hvt : v = t
      · rw [hut, hvt]
      · rw [hut, Function.update_self] at hu
        rw [Function.update_of_ne hvt] at hv
        exact absurd hv ((hp.owned o hu).2.2 v hvt)
    · rw [Function.update_of_ne hut] at hu
      by_cases hvt : v = t
      · rw [hvt, Function.update_self] at hv
        exact absurd hu ((hp.owned o hv).2.2 u hut)
      · rw [Function.update_of_ne hvt] at hv
        exact h.alone u v o hu hv
  · intro u o ho
    by_cases hu : u = t
    · rw [hu, Function.update_self] at ho
      exact hp.outside o ho
    · rw [Function.update_of_ne hu] at ho
      exact h.outside u o ho
  · intro u v o hu hv
    by_cases hut : u = t
    · rw [hut, Function.update_self] at hu
      by_cases hvt : v = t
      · rw [hvt, Function.update_self, Place.uses_of_adds hu] at hv
        cases hv
      · rw [Function.update_of_ne hvt] at hv
        exact hp.unused o hu v hvt hv
    · rw [Function.update_of_ne hut] at hu
      by_cases hvt : v = t
      · rw [hvt, Function.update_self] at hv
        exact (hp.used o hv).2.2 u hut hu
      · rw [Function.update_of_ne hvt] at hv
        exact h.unused u v o hu hv

/-- The objects change, but none that the threads own or use. -/
private theorem ThreadsSound.of_blocks (h : ThreadsSound b places)
    (hcreated : b.created ≤ b'.created)
    (hdeletions : ∀ u o, (places u).owns = some o ∨ (places u).uses = some o →
      b'.deletions o = b.deletions o)
    (hcollection : ∀ u o, (places u).outside = some o → o ∈ b'.collection → o ∈ b.collection) :
    ThreadsSound b' places where
  owned u o ho := by
    obtain ⟨hborn, hdeleted⟩ := h.owned u o ho
    exact ⟨Nat.lt_of_lt_of_le hborn hcreated, (hdeletions u o (Or.inl ho)).trans hdeleted⟩
  used u o ho := by
    obtain ⟨hborn, hdeleted⟩ := h.used u o ho
    exact ⟨Nat.lt_of_lt_of_le hborn hcreated, (hdeletions u o (Or.inr ho)).trans hdeleted⟩
  alone := h.alone
  outside u o ho hmem := h.outside u o ho (hcollection u o ho hmem)
  unused := h.unused

private theorem allowed_free (b : Blocks) (places : τ → Place) (t : τ) (howns : p.owns = none)
    (huses : p.uses = none) : Allowed b places t p where
  owned o ho := by
    rw [howns] at ho
    cases ho
  used o ho := by
    rw [huses] at ho
    cases ho
  outside o ho := by
    rw [Place.owns_of_outside ho] at howns
    cases howns
  unused o ho := by
    rw [Place.owns_of_adds ho] at howns
    cases howns

/-- A thread owns an object that no other thread owns, and that has left the collection where it
must. -/
private theorem allowed_owner (hborn : o < b.created) (hdeleted : b.deletions o = 0)
    (halone : ∀ u, u ≠ t → (places u).owns ≠ some o) (hp : p.owns = some o)
    (huses : p.uses = none) (hadds : p.adds = none)
    (houtside : p.outside = none ∨ o ∉ b.collection) : Allowed b places t p where
  owned q hq := by
    rw [hp] at hq
    rw [← Option.some.inj hq]
    exact ⟨hborn, hdeleted, halone⟩
  used q hq := by
    rw [huses] at hq
    cases hq
  outside q hq := by
    rcases houtside with hnone | hnot
    · rw [hnone] at hq
      cases hq
    · have hsame := Place.owns_of_outside hq
      rw [hp] at hsame
      rw [← Option.some.inj hsame]
      exact hnot
  unused q hq := by
    rw [hadds] at hq
    cases hq

/-- A thread uses an object that no other thread is still to add. -/
private theorem allowed_user (hborn : o < b.created) (hdeleted : b.deletions o = 0)
    (hadded : ∀ u, u ≠ t → (places u).adds ≠ some o) (hp : p.uses = some o)
    (howns : p.owns = none) : Allowed b places t p where
  owned q hq := by
    rw [howns] at hq
    cases hq
  used q hq := by
    rw [hp] at hq
    rw [← Option.some.inj hq]
    exact ⟨hborn, hdeleted, hadded⟩
  outside q hq := by
    rw [Place.owns_of_outside hq] at howns
    cases howns
  unused q hq := by
    rw [Place.owns_of_adds hq] at howns
    cases howns

private theorem ThreadsSound.allowed_owned (h : ThreadsSound b places)
    (howns : (places t).owns = some o) (hp : p.owns = some o) (huses : p.uses = none)
    (hadds : p.adds = none) (houtside : p.outside = none ∨ o ∉ b.collection) :
    Allowed b places t p := by
  obtain ⟨hborn, hdeleted⟩ := h.owned t o howns
  apply allowed_owner hborn hdeleted _ hp huses hadds houtside
  intro u hu hother
  exact hu (h.alone u t o hother howns)

end

/-! ## Runs -/

structure StoreSound {τ : Type} (s : Store τ) : Prop where
  blocks : s.toBlocks.Sound
  threads : ThreadsSound s.toBlocks s.places

section

variable {τ : Type} [DecidableEq τ] {s : Store τ} {t : τ} {o : ℕ}

theorem StoreSound.goTo (h : StoreSound s) {p : Place} (hp : Allowed s.toBlocks s.places t p) :
    StoreSound (s.goTo t s.toBlocks p) :=
  ⟨h.blocks, h.threads.goTo hp⟩

theorem StoreSound.finish (h : StoreSound s) (answer : Option ℕ) :
    StoreSound (s.finish t s.toBlocks answer) :=
  ⟨h.blocks, h.threads.goTo (allowed_free _ _ t rfl rfl)⟩

private theorem allocate_sound (h : StoreSound s) (size : ℕ) (tag : BitVec 32)
    (memory : Option (ℕ × ℕ)) (hfresh : ∀ m ∈ memory, ∀ o < s.created, s.deletions o = 0 →
      m.1 + size ≤ (s.buffer o).virtualAddress ∨
        (s.buffer o).virtualAddress + (s.buffer o).length ≤ m.1) :
    StoreSound (allocate s t size tag memory) := by
  cases memory with
  | none => exact h.finish none
  | some m =>
      have hcreate := h.blocks.create m.2 (hfresh m rfl)
      refine ⟨hcreate, ?_⟩
      have hthreads : ThreadsSound (s.create size m.1 m.2) s.places :=
        h.threads.of_blocks (Nat.le_succ _) (fun _ _ _ => rfl) fun _ _ _ hmem => hmem
      apply hthreads.goTo
      have hnew : ∀ o, (Place.adding s.created tag).owns = some o → o = s.created :=
        fun o ho => (Option.some.inj ho).symm
      refine ⟨?_, ?_, ?_, ?_⟩
      · intro o ho
        rw [hnew o ho]
        refine ⟨Nat.lt_succ_self _, h.blocks.unborn _ (Nat.le_refl _), ?_⟩
        intro u _ hu
        exact absurd (h.threads.owned u _ hu).1 (Nat.lt_irrefl _)
      · intro o ho
        cases ho
      · intro o ho hmem
        rw [hnew o (Place.owns_of_outside ho)] at hmem
        exact absurd (h.blocks.listed _ hmem).1 (Nat.lt_irrefl _)
      · intro o ho u _ hu
        rw [hnew o (Place.owns_of_adds ho)] at hu
        exact absurd (h.threads.used u _ hu).1 (Nat.lt_irrefl _)

private theorem delete_threads (h : StoreSound s) (howns : (s.places t).owns = some o)
    (hused : ∀ u, (s.places u).uses ≠ some o) {p : Place} (hp : p.owns = none)
    (huses : p.uses = none) : ThreadsSound (s.delete o) (Function.update s.places t p) := by
  have hmoved := h.threads.goTo (allowed_free _ _ t hp huses)
  refine hmoved.of_blocks ?_ ?_ fun _ _ _ hmem => hmem
  · exact Nat.le_refl _
  · intro u q hq
    have hne : q ≠ o := by
      intro hsame
      rw [hsame] at hq
      by_cases hu : u = t
      · rw [hu, Function.update_self, hp, huses] at hq
        rcases hq with hq | hq <;> cases hq
      · rw [Function.update_of_ne hu] at hq
        rcases hq with hother | hother
        · exact hu (h.threads.alone u t o hother howns)
        · exact hused u hother
    exact Function.update_of_ne hne _ _

omit [DecidableEq τ] in
private theorem delete_blocks (h : StoreSound s) (houtside : (s.places t).outside = some o) :
    (s.delete o).Sound := by
  obtain ⟨hborn, hdeleted⟩ := h.threads.owned t o (Place.owns_of_outside houtside)
  exact h.blocks.delete hborn hdeleted (h.threads.outside t o houtside)

private theorem add_sound (h : StoreSound s) {tag : BitVec 32} (hplace : s.places t = .adding o tag)
    (added : Bool) : StoreSound (add s t o tag added) := by
  have hadds : (s.places t).adds = some o := by
    rw [hplace]
    rfl
  have howns := Place.owns_of_adds hadds
  have houtside : (s.places t).outside = some o := by
    rw [hplace]
    rfl
  obtain ⟨hborn, hdeleted⟩ := h.threads.owned t o howns
  unfold add
  cases added with
  | true =>
      refine ⟨h.blocks.add hborn hdeleted (h.threads.outside t o houtside) tag, ?_⟩
      have hallowed : Allowed s.toBlocks s.places t (.zeroing o) := by
        apply allowed_user hborn hdeleted _ rfl rfl
        intro u hu hother
        exact hu (h.threads.alone u t o (Place.owns_of_adds hother) howns)
      refine (h.threads.goTo hallowed).of_blocks (Nat.le_refl s.created) (fun _ _ _ => rfl) ?_
      intro u q hq hmem
      rcases List.mem_append.mp hmem with hold | hself
      · exact hold
      · rw [List.mem_singleton.mp hself] at hq
        by_cases hu : u = t
        · rw [hu, Function.update_self] at hq
          cases hq
        · rw [Function.update_of_ne hu] at hq
          exact absurd (h.threads.alone u t o (Place.owns_of_outside hq) howns) hu
  | false =>
      refine ⟨delete_blocks h houtside, ?_⟩
      exact delete_threads h howns (h.threads.unused t · o hadds) rfl rfl

private theorem toFree_mem {b : Blocks} {va : ℕ} (ho : o ∈ b.toFree va) : o ∈ b.collection := by
  obtain ⟨hfind, -⟩ := Option.filter_eq_some_iff.mp ho
  exact List.mem_of_find?_eq_some hfind

private theorem free_sound (h : StoreSound s) {va : ℕ} {passive : Bool}
    (hplace : s.places t = .freeing va passive)
    (hunraced : passive = true → ∀ o ∈ s.toFree va, ∀ u, (s.places u).owns ≠ some o) :
    StoreSound (free s t va passive) := by
  unfold free
  rw [h.blocks.touch_visited]
  dsimp only
  cases hfound : s.toFree va with
  | none => exact h.finish none
  | some o =>
      obtain ⟨hborn, hdeleted⟩ := h.blocks.listed o (toFree_mem hfound)
      refine ⟨h.blocks.mark o, ?_⟩
      have hthreads : ThreadsSound (s.mark o) s.places :=
        h.threads.of_blocks (Nat.le_refl _) (fun _ _ _ => rfl) fun _ _ _ hmem => hmem
      apply hthreads.goTo
      cases passive with
      | false => exact allowed_free _ _ t rfl rfl
      | true =>
          have halone : ∀ u, u ≠ t → (s.places u).owns ≠ some o :=
            fun u _ => hunraced rfl o hfound u
          exact allowed_owner hborn hdeleted halone rfl rfl rfl (Or.inl rfl)

private theorem seek_sound (h : StoreSound s) {tag : BitVec 32}
    (hunraced : ∀ o ∈ s.tagged tag, ∀ u, (s.places u).owns ≠ some o) :
    StoreSound (seek s t tag) := by
  unfold seek
  rw [h.blocks.touch_visited]
  dsimp only
  cases hfound : s.tagged tag with
  | none => exact h.finish none
  | some o =>
      obtain ⟨hborn, hdeleted⟩ := h.blocks.listed o (List.mem_of_find?_eq_some hfound)
      apply h.goTo
      apply allowed_owner hborn hdeleted _ rfl rfl rfl (Or.inl rfl)
      intro u _
      exact hunraced o hfound u

private theorem remove_sound (h : StoreSound s) (howns : (s.places t).owns = some o) {p : Place}
    (hp : p.owns = some o) (huses : p.uses = none) (hadds : p.adds = none) :
    StoreSound (s.goTo t (s.remove o) p) := by
  have hdeleted := (h.threads.owned t o howns).2
  refine ⟨h.blocks.remove hdeleted, ?_⟩
  have hthreads : ThreadsSound (s.remove o) s.places :=
    h.threads.of_blocks (Nat.le_refl _) (fun _ _ _ => rfl)
      fun _ _ _ hmem => List.mem_of_mem_erase hmem
  apply hthreads.goTo
  apply hthreads.allowed_owned howns hp huses hadds
  right
  exact h.blocks.nodup.not_mem_erase

private theorem enter_free (c : Call) : c.enter.owns = none ∧ c.enter.uses = none := by
  cases c with
  | allocDmaMemory size tag passive => cases passive <;> exact ⟨rfl, rfl⟩
  | freeDmaMemory va passive => exact ⟨rfl, rfl⟩
  | freeDmaMemoryByTag tag passive =>
      change (if passive = true ∧ tag ≠ 0 then Place.seeking tag else .idle).owns = none ∧
        (if passive = true ∧ tag ≠ 0 then Place.seeking tag else .idle).uses = none
      split_ifs <;> exact ⟨rfl, rfl⟩
  | getPhysicalAddress va => exact ⟨rfl, rfl⟩

theorem step_sound (h : StoreSound s) {i : Input τ} (hfresh : FreshMemory s i)
    (hunraced : Unraced s i) : StoreSound (step s i) := by
  cases i with
  | call t c =>
      unfold step
      dsimp only
      split_ifs
      · exact h.goTo (allowed_free _ _ t (enter_free c).1 (enter_free c).2)
      · exact h
  | next t memory added =>
      unfold step
      dsimp only
      unfold FreshMemory at hfresh
      unfold Unraced at hunraced
      dsimp only at hfresh hunraced
      cases hplace : s.places t with
      | idle => exact h
      | allocating size tag =>
          rw [hplace] at hfresh
          apply allocate_sound h
          intro m hm
          rw [Option.mem_def.mp hm] at hfresh
          exact hfresh
      | adding obj tag => exact add_sound h hplace added
      | zeroing obj =>
          have huses : (s.places t).uses = some obj := by
            rw [hplace]
            rfl
          obtain ⟨hborn, hdeleted⟩ := h.threads.used t obj huses
          change StoreSound (s.goTo t (s.touch [obj]) (.returning obj))
          rw [touch_one hdeleted]
          apply h.goTo
          apply allowed_user hborn hdeleted _ rfl rfl
          intro u _ hadds
          exact h.threads.unused u t obj hadds huses
      | returning obj =>
          have huses : (s.places t).uses = some obj := by
            rw [hplace]
            rfl
          change StoreSound (s.finish t (s.touch [obj]) _)
          rw [touch_one (h.threads.used t obj huses).2]
          exact h.finish _
      | locating va =>
          change StoreSound (locate s t va)
          unfold locate
          rw [h.blocks.touch_visited]
          exact h.finish _
      | freeing va passive =>
          rw [hplace] at hunraced
          apply free_sound h hplace
          intro hpassive
          rw [hpassive] at hunraced
          exact hunraced
      | removing obj =>
          apply remove_sound h _ rfl rfl rfl
          rw [hplace]
          rfl
      | deleting obj =>
          rw [hplace] at hunraced
          have houtside : (s.places t).outside = some obj := by
            rw [hplace]
            rfl
          exact ⟨delete_blocks h houtside,
            delete_threads h (Place.owns_of_outside houtside) hunraced rfl rfl⟩
      | seeking tag =>
          rw [hplace] at hunraced
          exact seek_sound h hunraced
      | printing obj tag =>
          have howns : (s.places t).owns = some obj := by
            rw [hplace]
            rfl
          change StoreSound (s.goTo t (s.touch [obj]) (.taking obj tag))
          rw [touch_one (h.threads.owned t obj howns).2]
          exact h.goTo (h.threads.allowed_owned howns rfl rfl rfl (Or.inl rfl))
      | taking obj tag =>
          apply remove_sound h _ rfl rfl rfl
          rw [hplace]
          rfl
      | dropping obj tag =>
          rw [hplace] at hunraced
          have houtside : (s.places t).outside = some obj := by
            rw [hplace]
            rfl
          exact ⟨delete_blocks h houtside,
            delete_threads h (Place.owns_of_outside houtside) hunraced rfl rfl⟩

theorem run_storeSound (h : StoreSound s) {inputs : List (Input τ)}
    (hguard : Guarded step (fun s i => FreshMemory s i ∧ Unraced s i) s inputs) :
    StoreSound (run step s inputs) := by
  apply Guarded.invariant _ hguard h
  intro s i hs hboth
  exact step_sound hs hboth.1 hboth.2

private theorem step_buffer (i : Input τ) (ho : o < s.created) :
    (step s i).buffer o = s.buffer o ∧ s.created ≤ (step s i).created := by
  cases i with
  | call t c =>
      simp only [step]
      split_ifs <;> exact ⟨rfl, le_rfl⟩
  | next t memory added =>
      simp only [step]
      cases s.places t with
      | allocating size tag =>
          cases memory with
          | none => exact ⟨rfl, le_rfl⟩
          | some m => exact ⟨Function.update_of_ne ho.ne _ _, Nat.le_succ _⟩
      | adding obj tag => cases added <;> exact ⟨rfl, le_rfl⟩
      | freeing va passive =>
          simp only [move, free]
          split <;> exact ⟨rfl, le_rfl⟩
      | seeking tag =>
          simp only [move, seek]
          split <;> exact ⟨rfl, le_rfl⟩
      | _ => exact ⟨rfl, le_rfl⟩

theorem run_buffer (inputs : List (Input τ)) (ho : o < s.created) :
    (run step s inputs).buffer o = s.buffer o := by
  have hkept : (run step s inputs).buffer o = s.buffer o ∧ o < (run step s inputs).created := by
    apply run_invariant (P := fun r : Store τ => r.buffer o = s.buffer o ∧ o < r.created) _ inputs
    · exact ⟨rfl, ho⟩
    · intro r i hr
      obtain ⟨hsame, hmore⟩ := step_buffer i hr.2
      exact ⟨hsame.trans hr.1, lt_of_lt_of_le hr.2 hmore⟩
  exact hkept.1

end

private theorem fresh_threads (τ : Type) :
    ThreadsSound (Store.fresh τ).toBlocks (Store.fresh τ).places where
  owned _ _ ho := nomatch ho
  used _ _ ho := nomatch ho
  alone _ _ _ ho := nomatch ho
  outside _ _ ho := nomatch ho
  unused _ _ _ ho := nomatch ho

/-- In every run in which WDF finds unused memory and the threads do not race for an object, no
object is deleted twice or touched when it is deleted, and addresses are translated. -/
theorem run_blocks_right {τ : Type} [DecidableEq τ] {inputs : List (Input τ)}
    (hfresh : Guarded step FreshMemory (Store.fresh τ) inputs)
    (hunraced : Guarded step Unraced (Store.fresh τ) inputs) :
    BlocksRight (run step (Store.fresh τ) inputs).toBlocks := by
  have hboth := (guarded_and _ _).mpr ⟨hfresh, hunraced⟩
  exact (run_storeSound ⟨fresh_sound τ, fresh_threads τ⟩ hboth).blocks.right

/-- A block of 16 bytes with tag 7 at the address `va`. -/
def allocateAt (t : Bool) (va : ℕ) : List (Input Bool) :=
  [.call t (.allocDmaMemory 16 7 true), .next t (some (va, 5000 + va)) true, .next t none true,
    .next t none true, .next t none true]

/-- One thread frees a block by its address while the other frees the rest by tag. -/
def orderlyFrees : List (Input Bool) :=
  allocateAt false 100 ++ allocateAt true 200 ++
    [.call false (.freeDmaMemory 100 true), .call true (.freeDmaMemoryByTag 7 true),
      .next false none true, .next false none true, .next true none true, .next false none true,
      .next true none true, .next true none true, .next true none true, .next true none true]

theorem run_blocks_right_orderly :
    BlocksRight (run step (Store.fresh Bool) orderlyFrees).toBlocks := by
  apply run_blocks_right
  · refine ⟨trivial, ?_, trivial, trivial, trivial, trivial, ?_, trivial, trivial, trivial,
      trivial, trivial, trivial, trivial, trivial, trivial, trivial, trivial, trivial, trivial,
      trivial⟩
    · intro o ho
      exact absurd ho (Nat.not_lt_zero o)
    · intro o ho _
      rw [Nat.lt_one_iff.mp ho]
      exact Or.inr (by decide)
  · refine ⟨trivial, trivial, trivial, trivial, trivial, trivial, trivial, trivial, trivial,
      trivial, trivial, trivial, ?_, trivial, ?_, ?_, trivial, trivial, ?_, ?_, trivial⟩
    · intro o _ u
      cases u <;> exact nofun
    · intro o ho u
      have hsecond : 1 = o := Option.some.inj ho
      rw [← hsecond]
      cases u <;> decide
    · intro u
      cases u <;> exact nofun
    · intro u
      cases u <;> exact nofun
    · exact nofun

/-- While the first thread allocates a block, the second frees its tag. -/
def allocateWhileFreed : List (Input Bool) :=
  [.call false (.allocDmaMemory 16 7 true), .next false (some (100, 5100)) true,
    .next false none true, .call true (.freeDmaMemoryByTag 7 true), .next true none true,
    .next true none true, .next true none true, .next true none true, .next false none true]

/-- Both threads free the tag of a block. -/
def tagFreedTwice : List (Input Bool) :=
  allocateAt false 100 ++
    [.call false (.freeDmaMemoryByTag 7 true), .call true (.freeDmaMemoryByTag 7 true),
      .next false none true, .next true none true, .next false none true, .next false none true,
      .next false none true, .next true none true, .next true none true, .next true none true]

/-- No address is freed twice, but the first run zeroes a deleted block and the second deletes one
twice. -/
theorem races_not_right :
    (Guarded step (fun s i => FreshMemory s i ∧ FreedOnce s i) (Store.fresh Bool)
        allocateWhileFreed ∧
      ¬ BlocksRight (run step (Store.fresh Bool) allocateWhileFreed).toBlocks) ∧
    (Guarded step (fun s i => FreshMemory s i ∧ FreedOnce s i) (Store.fresh Bool) tagFreedTwice ∧
      ¬ BlocksRight (run step (Store.fresh Bool) tagFreedTwice).toBlocks) := by
  refine ⟨⟨?_, fun h => ?_⟩, ?_, fun h => ?_⟩
  · refine (guarded_and _ _).mpr ⟨?_, ?_⟩
    · refine ⟨trivial, ?_, trivial, trivial, trivial, trivial, trivial, trivial, trivial, trivial⟩
      intro o ho
      exact absurd ho (Nat.not_lt_zero o)
    · exact ⟨trivial, trivial, trivial, trivial, trivial, trivial, trivial, trivial, trivial,
        trivial⟩
  · have huntouched := h.untouched
    revert huntouched
    decide
  · refine (guarded_and _ _).mpr ⟨?_, ?_⟩
    · refine ⟨trivial, ?_, trivial, trivial, trivial, trivial, trivial, trivial, trivial, trivial,
        trivial, trivial, trivial, trivial, trivial, trivial⟩
      intro o ho
      exact absurd ho (Nat.not_lt_zero o)
    · exact ⟨trivial, trivial, trivial, trivial, trivial, trivial, trivial, trivial, trivial,
        trivial, trivial, trivial, trivial, trivial, trivial, trivial⟩
  · have honce := h.once 0
    revert honce
    decide

end Viosnd.Wdf
