import Mathlib.Tactic
import Viosnd.VirtIO.Layout
import Viosnd.VirtIO.PackedRing

/-!
# Buffer ids of a packed ring

Every id is on the free list or belongs to one chain in flight, which has as many ids as
descriptors. A chain keeps its number of ids and its last one, so that it is freed without a walk.
-/

namespace Viosnd.VirtIO

open Paths

variable {β : Type}

/-- The ids of the chain are linked, and the first one has its record. -/
structure PackedRing.Has (q : PackedRing β) (c : Chain β) : Prop where
  linked : Leads q.nextId c.head c.body c.last
  data : (q.descState c.head).data = some c.data
  count : (q.descState c.head).num = c.descs.length
  last : (q.descState c.head).last = c.last

/-- The free list and the chains in flight share out the ids. The free list leads to an id even
when it is empty. -/
structure IdLayout (q : PackedRing β) (free : List ℕ) (chains : List (Chain β)) : Prop where
  linked : ∃ e, e < q.num ∧ Leads q.nextId q.freeHead free e
  unused : q.numFree = free.length
  has : ∀ c ∈ chains, q.Has c
  cover : (free ++ chains.flatMap Chain.descs).Perm (List.range q.num)

variable {q q' : PackedRing β} {free rest : List ℕ} {c : Chain β} {chains others : List (Chain β)}

theorem PackedRing.Has.congr (h : q.Has c)
    (hstate : ∀ d ∈ c.descs, q'.descState d = q.descState d) : q'.Has c := by
  have hhead := hstate c.head c.head_mem
  refine ⟨h.linked.congr fun d hd => ?_, ?_, ?_, ?_⟩
  · simp only [PackedRing.nextId, hstate d (c.mem_of_body hd)]
  · rw [hhead, h.data]
  · rw [hhead, h.count]
  · rw [hhead, h.last]

/-- Ids taken in chains, each chain with all of its own. -/
def chainSize (chains : List (Chain β)) : ℕ := (chains.map fun c => c.descs.length).sum

@[simp] theorem chainSize_nil : chainSize ([] : List (Chain β)) = 0 := rfl

@[simp] theorem chainSize_cons (c : Chain β) (chains : List (Chain β)) :
    chainSize (c :: chains) = c.descs.length + chainSize chains := by
  simp [chainSize]

@[simp] theorem chainSize_append (first second : List (Chain β)) :
    chainSize (first ++ second) = chainSize first + chainSize second := by
  simp [chainSize]

theorem chainSize_perm (h : chains.Perm others) : chainSize chains = chainSize others :=
  (h.map _).sum_eq

theorem length_flatMap_descs (chains : List (Chain β)) :
    (chains.flatMap Chain.descs).length = chainSize chains := by
  rw [List.length_flatMap]
  rfl

namespace IdLayout

theorem of_perm (h : IdLayout q free chains) (hperm : chains.Perm others) :
    IdLayout q free others := by
  refine ⟨h.linked, h.unused, fun c hc => h.has c (hperm.mem_iff.mpr hc), ?_⟩
  exact ((hperm.symm.flatMap_right _).append_left free).trans h.cover

theorem congr (h : IdLayout q free chains) (hnum : q'.num = q.num)
    (hstate : q'.descState = q.descState) (hfirst : q'.freeHead = q.freeHead)
    (hunused : q'.numFree = q.numFree) : IdLayout q' free chains := by
  obtain ⟨e, he, hlinked⟩ := h.linked
  have hnext : q'.nextId = q.nextId := by
    funext d
    simp only [PackedRing.nextId, hstate]
  refine ⟨⟨e, hnum ▸ he, ?_⟩, hunused.trans h.unused, fun c hc => ?_, hnum ▸ h.cover⟩
  · rw [hnext, hfirst]
    exact hlinked
  · exact (h.has c hc).congr fun d _ => by rw [hstate]

theorem nodup (h : IdLayout q free chains) : (free ++ chains.flatMap Chain.descs).Nodup :=
  h.cover.nodup_iff.mpr List.nodup_range

theorem lt_num (h : IdLayout q free chains) (hc : c ∈ chains) {d : ℕ} (hd : d ∈ c.descs) :
    d < q.num := by
  have hmem : d ∈ free ++ chains.flatMap Chain.descs :=
    List.mem_append_right _ (List.mem_flatMap.mpr ⟨c, hc, hd⟩)
  exact List.mem_range.mp (h.cover.mem_iff.mp hmem)

theorem size_eq (h : IdLayout q free chains) : q.numFree + chainSize chains = q.num := by
  have hlength := h.cover.length_eq
  rw [List.length_append, length_flatMap_descs, List.length_range] at hlength
  rw [h.unused]
  exact hlength

theorem freeHead_lt (h : IdLayout q free chains) : q.freeHead < q.num := by
  obtain ⟨e, he, hlinked⟩ := h.linked
  cases free with
  | nil =>
      obtain rfl : q.freeHead = e := hlinked
      exact he
  | cons d free =>
      obtain ⟨hfirst, -⟩ := hlinked
      rw [hfirst]
      have hmem : d ∈ (d :: free) ++ chains.flatMap Chain.descs := by simp
      exact List.mem_range.mp (h.cover.mem_iff.mp hmem)

theorem new (β : Type) {num : ℕ} (hnum : 0 < num) :
    IdLayout (vringNewVirtqueuePacked β num) (List.range num) [] := by
  have hlink : ∀ n a, 0 < n → a + n = num →
      Leads (vringNewVirtqueuePacked β num).nextId a (List.range' a n) 0 := by
    intro n
    induction n with
    | zero => intro a hn; exact absurd hn (Nat.lt_irrefl 0)
    | succ n ih =>
        intro a _ ha
        rw [List.range'_succ, leads_cons]
        refine ⟨rfl, ?_⟩
        rcases Nat.eq_zero_or_pos n with rfl | hn
        · show (if a < num - 1 then a + 1 else 0) = 0
          exact if_neg (by omega)
        · have hnext : (vringNewVirtqueuePacked β num).nextId a = a + 1 :=
            if_pos (by omega)
          rw [hnext]
          exact ih (a + 1) hn (by omega)
  refine ⟨⟨0, hnum, ?_⟩, by simp [vringNewVirtqueuePacked], by simp, ?_⟩
  · rw [List.range_eq_range']
    exact hlink num 0 hnum (by omega)
  · simp [vringNewVirtqueuePacked]

/-- The ids met on the way from the head of the free list become a chain. -/
theorem take (h : IdLayout q (c.descs ++ rest) chains) {curr : ℕ}
    (hwalk : Leads q.nextId q.freeHead c.descs curr) (hnum : q'.num = q.num)
    (hhead : c.head = q.freeHead)
    (hstate : q'.descState = Function.update q.descState q.freeHead
      { q.descState q.freeHead with
        num := c.descs.length, data := some c.data, last := c.last })
    (hfirst : q'.freeHead = curr) (hunused : q'.numFree = q.numFree - c.descs.length) :
    IdLayout q' rest (c :: chains) := by
  obtain ⟨e, he, hlinked⟩ := h.linked
  obtain ⟨tail, htail, hcurr⟩ := Leads.split hlinked hwalk (by simp)
  obtain rfl : rest = tail := List.append_cancel_left htail
  have hnext : q'.nextId = q.nextId := by
    funext d
    simp only [PackedRing.nextId, hstate]
    by_cases hd : d = q.freeHead
    · rw [hd, Function.update_self]
    · rw [Function.update_of_ne hd]
  have hnodup := h.nodup
  refine ⟨⟨e, hnum ▸ he, ?_⟩, ?_, fun c' hc' => ?_, ?_⟩
  · rw [hnext, hfirst]
    exact hcurr
  · rw [hunused, h.unused, List.length_append]
    omega
  · rcases List.mem_cons.mp hc' with rfl | hold
    · refine ⟨?_, ?_, ?_, ?_⟩
      · rw [hnext, hhead]
        exact (leads_concat.mp hwalk).1
      · rw [hhead, hstate, Function.update_self]
      · rw [hhead, hstate, Function.update_self]
      · rw [hhead, hstate, Function.update_self]
    · apply (h.has c' hold).congr
      intro d hd
      have hne : d ≠ q.freeHead := by
        rintro rfl
        rw [← hhead] at hd
        have hfree : c.head ∈ c.descs ++ rest := List.mem_append_left _ c.head_mem
        exact (List.nodup_append.mp hnodup).2.2 c.head hfree c.head
          (List.mem_flatMap.mpr ⟨c', hold, hd⟩) rfl
      rw [hstate, Function.update_of_ne hne]
  · rw [hnum, List.flatMap_cons]
    have hcover := h.cover
    rw [List.append_assoc] at hcover
    exact (List.perm_append_comm_assoc _ _ _).trans hcover

theorem put (h : IdLayout q free (c :: others)) (hsize : q.num ≤ 2 ^ 16) :
    IdLayout (detachBufPacked c.head q) (c.descs ++ free) others := by
  have hc := h.has c List.mem_cons_self
  obtain ⟨e, he, hlinked⟩ := h.linked
  have hfirst : q.freeHead % 2 ^ 16 = q.freeHead :=
    Nat.mod_eq_of_lt (by have := h.freeHead_lt; omega)
  have hnodup := h.nodup
  rw [List.flatMap_cons] at hnodup
  have hchain := (List.nodup_append.mp (List.nodup_append.mp hnodup).2.1).1
  have hlast : c.last ∉ c.body := fun hmem =>
    (List.nodup_append.mp hchain).2.2 c.last hmem c.last (by simp) rfl
  have hoff : ∀ d ∈ free, d ∉ c.descs := fun d hd hd' =>
    (List.nodup_append.mp hnodup).2.2 d hd d (List.mem_append_left _ hd') rfl
  have hother : ∀ d, d ∉ c.descs → (detachBufPacked c.head q).descState d = q.descState d := by
    intro d hd
    have hhead : d ≠ c.head := fun heq => hd (heq ▸ c.head_mem)
    have hlast : d ≠ c.last := fun heq => hd (heq ▸ c.last_mem)
    simp only [detachBufPacked, hc.last, Function.update_of_ne hlast, Function.update_of_ne hhead]
  have hbody : ∀ d ∈ c.body, (detachBufPacked c.head q).nextId d = q.nextId d := by
    intro d hd
    have hne : d ≠ c.last := fun heq => hlast (heq ▸ hd)
    simp only [PackedRing.nextId, detachBufPacked, hc.last, Function.update_of_ne hne]
    by_cases hhead : d = c.head
    · rw [hhead, Function.update_self]
    · rw [Function.update_of_ne hhead]
  refine ⟨⟨e, he, ?_⟩, ?_, fun c' hc' => ?_, ?_⟩
  · apply leads_append.mpr
    refine ⟨q.freeHead, leads_concat.mpr ⟨hc.linked.congr hbody, ?_⟩, hlinked.congr ?_⟩
    · simp only [PackedRing.nextId, detachBufPacked, hc.last, Function.update_self, hfirst]
    · intro d hd
      simp only [PackedRing.nextId, hother d (hoff d hd)]
  · show q.numFree + (q.descState c.head).num = _
    rw [hc.count, h.unused, List.length_append, Nat.add_comm]
  · apply (h.has c' (List.mem_cons_of_mem _ hc')).congr
    intro d hd
    apply hother
    intro hmem
    have hboth := (List.nodup_append.mp (List.nodup_append.mp hnodup).2.1).2.2
    exact hboth d hmem d (List.mem_flatMap.mpr ⟨c', hc', hd⟩) rfl
  · have hcover := h.cover
    rw [List.flatMap_cons] at hcover
    rw [List.append_assoc]
    exact (List.perm_append_comm_assoc _ _ _).trans hcover

end IdLayout

end Viosnd.VirtIO
