import Mathlib.Tactic
import Viosnd.VirtIO.SplitRing

/-!
# Layout of the descriptor table

Every descriptor of a split ring is on the free list or in one chain in flight. Adding a buffer
moves descriptors from the head of the free list to a new chain, freeing a chain moves them back.
-/

namespace Viosnd.VirtIO

open Paths

variable {β : Type}

/-- A chain in flight: all its descriptors but the last, the last, and what it was added for. -/
structure Chain (β : Type) where
  body : List ℕ
  last : ℕ
  data : β

namespace Chain

def descs (c : Chain β) : List ℕ := c.body ++ [c.last]

def head (c : Chain β) : ℕ := c.body.headD c.last

theorem head_mem (c : Chain β) : c.head ∈ c.descs := by
  unfold head descs
  cases c.body <;> simp

theorem last_mem (c : Chain β) : c.last ∈ c.descs := by
  simp [descs]

theorem mem_of_body (c : Chain β) {d : ℕ} (hd : d ∈ c.body) : d ∈ c.descs := by
  simp [descs, hd]

theorem head_eq (c : Chain β) {next : ℕ → ℕ} {a b : ℕ} (h : Leads next a c.descs b) :
    c.head = a := by
  unfold descs at h
  unfold head
  cases hbody : c.body with
  | nil =>
      rw [hbody] at h
      exact h.1.symm
  | cons d body =>
      rw [hbody] at h
      exact h.1.symm

@[simp] theorem length_descs (c : Chain β) : c.descs.length = c.body.length + 1 := by
  simp [descs]

end Chain

/-- The chain is linked in the descriptor table and ends at its last descriptor. -/
structure SplitRing.Has (q : SplitRing β) (c : Chain β) : Prop where
  linked : Leads q.link c.head c.body c.last
  more : ∀ d ∈ c.body, q.more d = true
  ends : q.more c.last = false
  data : q.data c.head = some c.data

/-- The free list and the chains in flight share out the descriptor table. -/
structure Layout (q : SplitRing β) (free : List ℕ) (chains : List (Chain β)) : Prop where
  linked : ∃ e, Leads q.link q.firstUnused free e
  unused : q.numUnused = free.length
  has : ∀ c ∈ chains, q.Has c
  vacant : ∀ h, (∀ c ∈ chains, c.head ≠ h) → q.data h = none
  cover : (free ++ chains.flatMap Chain.descs).Perm (List.range q.num)

variable {q q' : SplitRing β} {free : List ℕ} {c : Chain β} {chains others : List (Chain β)}

theorem SplitRing.Has.congr (h : q.Has c) (hdesc : ∀ d ∈ c.descs, q'.desc d = q.desc d)
    (hdata : q'.data c.head = q.data c.head) : q'.Has c := by
  have hbody : ∀ d ∈ c.body, q'.desc d = q.desc d := fun d hd => hdesc d (c.mem_of_body hd)
  refine ⟨h.linked.congr ?_, ?_, ?_, hdata.trans h.data⟩
  · intro d hd
    simp [link, hbody d hd]
  · intro d hd
    simpa [SplitRing.more, hbody d hd] using h.more d hd
  · simpa [SplitRing.more, hdesc c.last c.last_mem] using h.ends

namespace Layout

theorem nodup (h : Layout q free chains) : (free ++ chains.flatMap Chain.descs).Nodup :=
  h.cover.nodup_iff.mpr List.nodup_range

theorem of_perm (h : Layout q free chains) (hperm : chains.Perm others) :
    Layout q free others := by
  refine ⟨h.linked, h.unused, ?_, ?_, ?_⟩
  · intro c hc
    exact h.has c (hperm.mem_iff.mpr hc)
  · intro d hd
    apply h.vacant
    intro c hc
    exact hd c (hperm.mem_iff.mp hc)
  · exact ((hperm.symm.flatMap_right _).append_left free).trans h.cover

theorem congr (h : Layout q free chains) (hnum : q'.num = q.num) (hdesc : q'.desc = q.desc)
    (hdata : q'.data = q.data) (hfirst : q'.firstUnused = q.firstUnused)
    (hunused : q'.numUnused = q.numUnused) : Layout q' free chains := by
  obtain ⟨e, hlinked⟩ := h.linked
  have hlink : q'.link = q.link := by
    funext d
    simp [SplitRing.link, hdesc]
  refine ⟨⟨e, by rw [hlink, hfirst]; exact hlinked⟩, hunused.trans h.unused, ?_, ?_, ?_⟩
  · intro c hc
    exact (h.has c hc).congr (fun d _ => by rw [hdesc]) (by rw [hdata])
  · intro d hd
    rw [hdata]
    exact h.vacant d hd
  · rw [hnum]
    exact h.cover

theorem free_disjoint (h : Layout q free chains) (hc : c ∈ chains) {d : ℕ} (hd : d ∈ c.descs) :
    d ∉ free := by
  intro hfree
  have hnodup := (List.nodup_append.mp h.nodup).2.2
  exact hnodup d hfree d (List.mem_flatMap.mpr ⟨c, hc, hd⟩) rfl

theorem chain_nodup (h : Layout q free (c :: others)) : c.descs.Nodup := by
  have hnodup := (List.nodup_append.mp h.nodup).2.1
  rw [List.flatMap_cons] at hnodup
  exact (List.nodup_append.mp hnodup).1

theorem others_disjoint (h : Layout q free (c :: others)) {c' : Chain β} (hc' : c' ∈ others)
    {d : ℕ} (hd : d ∈ c.descs) : d ∉ c'.descs := by
  intro hd'
  have hnodup := (List.nodup_append.mp h.nodup).2.1
  rw [List.flatMap_cons] at hnodup
  exact (List.nodup_append.mp hnodup).2.2 d hd d (List.mem_flatMap.mpr ⟨c', hc', hd'⟩) rfl

theorem lt_num (h : Layout q free chains) (hc : c ∈ chains) {d : ℕ} (hd : d ∈ c.descs) :
    d < q.num := by
  have hmem : d ∈ free ++ chains.flatMap Chain.descs :=
    List.mem_append_right _ (List.mem_flatMap.mpr ⟨c, hc, hd⟩)
  exact List.mem_range.mp (h.cover.mem_iff.mp hmem)

theorem length_le (h : Layout q free chains) (hc : c ∈ chains) : c.descs.length ≤ q.num := by
  have hlength := h.cover.length_eq
  rw [List.length_append, List.length_range] at hlength
  have hsub : c.descs.length ≤ (chains.flatMap Chain.descs).length :=
    (List.sublist_flatten_of_mem (List.mem_map_of_mem hc)).length_le
  omega

theorem chains_length_le (h : Layout q free chains) : chains.length ≤ q.num := by
  have hlength := h.cover.length_eq
  rw [List.length_append, List.length_range] at hlength
  have hsub : ∀ l : List (Chain β), l.length ≤ (l.flatMap Chain.descs).length := by
    intro l
    induction l with
    | nil => simp
    | cons c l ih => simp; omega
  have hchains := hsub chains
  omega

theorem inUse_iff (h : Layout q free chains) (d : ℕ) :
    (q.data d).isSome = true ↔ ∃ c ∈ chains, c.head = d := by
  constructor
  · intro hsome
    by_contra hnone
    have hvacant := h.vacant d fun c hc heq => hnone ⟨c, hc, heq⟩
    simp [hvacant] at hsome
  · rintro ⟨c, hc, rfl⟩
    simp [(h.has c hc).data]

private theorem new_linked (β : Type) (num : ℕ) (eventSuppression : Bool) (n a : ℕ) (hn : 0 < n)
    (ha : a + n = num) :
    Leads (vringNewVirtqueueSplit β num eventSuppression).link a (List.range' a n) 0 := by
  induction n generalizing a with
  | zero => omega
  | succ n ih =>
      rw [List.range'_succ, leads_cons]
      refine ⟨rfl, ?_⟩
      by_cases hlast : n = 0
      · subst hlast
        have hlink : ¬ a < num - 1 := by omega
        simp [SplitRing.link, vringNewVirtqueueSplit, hlink]
      · have hlink : a < num - 1 := by omega
        have hnext : (vringNewVirtqueueSplit β num eventSuppression).link a = a + 1 := by
          simp [SplitRing.link, vringNewVirtqueueSplit, hlink]
        rw [hnext]
        exact ih (a + 1) (by omega) (by omega)

theorem new (β : Type) (num : ℕ) (eventSuppression : Bool) :
    Layout (vringNewVirtqueueSplit β num eventSuppression) (List.range num) [] := by
  refine ⟨⟨0, ?_⟩, by simp [vringNewVirtqueueSplit], by simp, fun _ _ => rfl, ?_⟩
  · by_cases hnum : num = 0
    · subst hnum
      rfl
    · rw [List.range_eq_range']
      exact new_linked β num eventSuppression num 0 (by omega) (by omega)
  · simp [vringNewVirtqueueSplit]

theorem walkTo_head (h : Layout q free chains) (hc : c ∈ chains) :
    walkTo q.link q.more q.num c.head = some (c.body, c.last) := by
  have hhas := h.has c hc
  have hlength := h.length_le hc
  rw [c.length_descs] at hlength
  exact walkTo_eq hhas.linked hhas.more hhas.ends (by omega)

/-! ## Freeing a chain -/

/-- The chain walk ends and the chain is back at the head of the free list. -/
theorem put (h : Layout q free (c :: others)) :
    putUnusedDescChain q c.head = some (freeChain c.head c.body.length c.last q) ∧
      Layout (freeChain c.head c.body.length c.last q) (c.descs ++ free) others := by
  have hc := h.has c List.mem_cons_self
  have hwalk := h.walkTo_head List.mem_cons_self
  obtain ⟨e, hfree⟩ := h.linked
  have hnodup := h.chain_nodup
  refine ⟨by unfold putUnusedDescChain; rw [hwalk]; rfl, ?_⟩
  have hlast : c.last ∉ c.body := by
    intro hmem
    exact (List.nodup_append.mp hnodup).2.2 c.last hmem c.last (by simp) rfl
  refine ⟨⟨e, ?_⟩, ?_, ?_, ?_, ?_⟩
  · apply leads_append.mpr
    refine ⟨q.firstUnused, leads_concat.mpr ⟨hc.linked.congr ?_, ?_⟩, hfree.congr ?_⟩
    · intro d hd
      have hne : d ≠ c.last := fun heq => hlast (heq ▸ hd)
      simp [SplitRing.link, freeChain, Function.update_of_ne hne]
    · simp [SplitRing.link, freeChain]
    · intro d hd
      have hne : d ≠ c.last := by
        rintro rfl
        exact h.free_disjoint List.mem_cons_self c.last_mem hd
      simp [SplitRing.link, freeChain, Function.update_of_ne hne]
  · simp [freeChain, h.unused]
    omega
  · intro c' hc'
    apply (h.has c' (List.mem_cons_of_mem _ hc')).congr
    · intro d hd
      have hne : d ≠ c.last := by
        rintro rfl
        exact h.others_disjoint hc' c.last_mem hd
      simp [freeChain, Function.update_of_ne hne]
    · have hne : c'.head ≠ c.head := by
        intro heq
        exact h.others_disjoint hc' c.head_mem (heq ▸ c'.head_mem)
      simp [freeChain, Function.update_of_ne hne]
  · intro d hd
    by_cases hhead : d = c.head
    · simp [freeChain, hhead]
    · simp only [freeChain, Function.update_of_ne hhead]
      apply h.vacant
      intro c' hc'
      rcases List.mem_cons.mp hc' with rfl | hother
      · exact fun heq => hhead heq.symm
      · exact hd c' hother
  · have hcover := h.cover
    rw [List.flatMap_cons] at hcover
    rw [List.append_assoc]
    exact (List.perm_append_comm_assoc _ _ _).trans hcover

end Layout

/-! ## Taking descriptors for a chain -/

/-- The descriptors `l` were taken from the head of the free list and changed, but for links. -/
structure Taken (q : SplitRing β) (l : List ℕ) (q' : SplitRing β) : Prop where
  taken : Leads q.link q.firstUnused l q'.firstUnused
  link : q'.link = q.link
  unused : q'.numUnused = q.numUnused - l.length
  other : ∀ d, d ∉ l → q'.desc d = q.desc d

/-- They are also all marked as continued. -/
structure Filled (q : SplitRing β) (l : List ℕ) (q' : SplitRing β) : Prop extends
    Taken q l q' where
  more : ∀ d ∈ l, q'.more d = true

theorem Filled.trans {q'' : SplitRing β} {l l' : List ℕ} (first : Filled q l q')
    (second : Filled q' l' q'') : Filled q (l ++ l') q'' := by
  refine ⟨⟨?_, second.link.trans first.link, ?_, ?_⟩, ?_⟩
  · apply leads_append.mpr
    refine ⟨q'.firstUnused, first.taken, ?_⟩
    rw [← first.link]
    exact second.taken
  · rw [second.unused, first.unused, List.length_append]
    omega
  · intro d hd
    rw [List.mem_append, not_or] at hd
    rw [second.other d hd.2, first.other d hd.1]
  · intro d hd
    by_cases hd' : d ∈ l'
    · exact second.more d hd'
    · have hmore := first.more d ((List.mem_append.mp hd).resolve_right hd')
      simpa [SplitRing.more, second.other d hd'] using hmore

private theorem fillDesc_filled (sg : Scatter) (write : Bool) (q : SplitRing β) :
    Filled q [q.firstUnused] (fillDesc sg write q).2 := by
  refine ⟨⟨⟨rfl, rfl⟩, ?_, rfl, ?_⟩, ?_⟩
  · funext d
    by_cases hd : d = q.firstUnused
    · subst hd
      simp [SplitRing.link, fillDesc, getUnusedDesc]
    · simp [SplitRing.link, fillDesc, getUnusedDesc, Function.update_of_ne hd]
  · intro d hd
    have hne : d ≠ q.firstUnused := by simpa using hd
    simp [fillDesc, getUnusedDesc, Function.update_of_ne hne]
  · intro d hd
    rw [List.mem_singleton.mp hd]
    simp [SplitRing.more, fillDesc, getUnusedDesc]

private theorem fillDescs_filled (out i : ℕ) (sgs : List Scatter) (lastIdx : ℕ) (q : SplitRing β) :
    ∃ l, l.length = sgs.length ∧ Filled q l (fillDescs out i sgs lastIdx q).2 ∧
      (fillDescs out i sgs lastIdx q).1 = l.getLast?.getD lastIdx := by
  induction sgs generalizing i lastIdx q with
  | nil => exact ⟨[], rfl, ⟨⟨rfl, rfl, rfl, fun _ _ => rfl⟩, by simp⟩, rfl⟩
  | cons sg sgs ih =>
      have hfirst := fillDesc_filled sg (decide (out ≤ i)) q
      obtain ⟨l, hlength, hfilled, hlast⟩ :=
        ih (i + 1) (fillDesc sg (decide (out ≤ i)) q).1 (fillDesc sg (decide (out ≤ i)) q).2
      refine ⟨q.firstUnused :: l, by simp [hlength], hfirst.trans hfilled, ?_⟩
      unfold fillDescs
      dsimp only
      rw [hlast, List.getLast?_cons]
      rfl

theorem fillDescs_frame (out i : ℕ) (sgs : List Scatter) (lastIdx : ℕ) (q : SplitRing β) :
    (fillDescs out i sgs lastIdx q).2 = { q with
      desc := (fillDescs out i sgs lastIdx q).2.desc
      firstUnused := (fillDescs out i sgs lastIdx q).2.firstUnused
      numUnused := (fillDescs out i sgs lastIdx q).2.numUnused } := by
  induction sgs generalizing i lastIdx q with
  | nil => rfl
  | cons sg sgs ih =>
      unfold fillDescs
      dsimp only
      rw [ih]
      rfl

namespace Layout

/-- Descriptors taken from the free list become a chain once its last one ends it. -/
private theorem chain_of_taken (h : Layout q free chains) (hfilled : Taken q c.descs q')
    (hmore : ∀ d ∈ c.body, q'.more d = true) (hroom : c.descs.length ≤ q.numUnused)
    (hnum : q'.num = q.num) (hdata : q'.data = Function.update q.data q.firstUnused (some c.data)) :
    c.head = q.firstUnused ∧ ∃ rest, free = c.descs ++ rest ∧
      Layout (endChain c.last q') rest (c :: chains) := by
  obtain ⟨e, hfree⟩ := h.linked
  have hhead : c.head = q.firstUnused := c.head_eq hfilled.taken
  rw [← hhead] at hdata
  rw [h.unused] at hroom
  obtain ⟨rest, rfl, hrest⟩ := hfree.split hfilled.taken hroom
  have hnodup := h.nodup
  have hlink : (endChain c.last q').link = q.link := by
    rw [← hfilled.link]
    funext d
    by_cases hd : d = c.last
    · subst hd
      simp [SplitRing.link, endChain]
    · simp [SplitRing.link, endChain, Function.update_of_ne hd]
  have hother : ∀ d, d ∉ c.descs → (endChain c.last q').desc d = q.desc d := by
    intro d hd
    have hne : d ≠ c.last := fun heq => hd (heq ▸ c.last_mem)
    simp [endChain, Function.update_of_ne hne, hfilled.other d hd]
  have hoff : ∀ c' ∈ chains, ∀ d ∈ c'.descs, d ∉ c.descs := by
    intro c' hc' d hd hd'
    exact h.free_disjoint hc' hd (List.mem_append_left _ hd')
  refine ⟨hhead, rest, rfl, ⟨e, ?_⟩, ?_, ?_, ?_, ?_⟩
  · rw [hlink]
    exact hrest
  · change q'.numUnused = rest.length
    rw [hfilled.unused, h.unused, List.length_append]
    omega
  · intro c' hc'
    rcases List.mem_cons.mp hc' with rfl | hc'
    · have hlast : c'.last ∉ c'.body := by
        intro hmem
        rw [List.append_assoc] at hnodup
        have hchain := (List.nodup_append.mp hnodup).1
        exact (List.nodup_append.mp hchain).2.2 c'.last hmem c'.last (by simp) rfl
      refine ⟨?_, ?_, ?_, ?_⟩
      · rw [hlink, hhead]
        exact (leads_concat.mp hfilled.taken).1
      · intro d hd
        have hne : d ≠ c'.last := fun heq => hlast (heq ▸ hd)
        simpa [SplitRing.more, endChain, Function.update_of_ne hne]
          using hmore d hd
      · simp [SplitRing.more, endChain]
      · simp [endChain, hdata]
    · apply (h.has c' hc').congr
      · intro d hd
        exact hother d (hoff c' hc' d hd)
      · have hne : c'.head ≠ c.head := fun heq => hoff c' hc' _ c'.head_mem (heq ▸ c.head_mem)
        simp [endChain, hdata, Function.update_of_ne hne]
  · intro d hd
    have hne : d ≠ c.head := fun heq => hd c List.mem_cons_self heq.symm
    simp only [endChain, hdata, Function.update_of_ne hne]
    exact h.vacant d fun c' hc' => hd c' (List.mem_cons_of_mem _ hc')
  · rw [show (endChain c.last q').num = q.num from hnum, List.flatMap_cons]
    have hcover := h.cover
    rw [List.append_assoc] at hcover
    exact (List.perm_append_comm_assoc _ _ _).trans hcover

theorem publish (h : Layout q free chains) (idx : ℕ) : Layout (publish idx q) free chains :=
  h.congr rfl rfl rfl rfl rfl

theorem addDirect (h : Layout q free chains) (sg : Scatter) (rest : List Scatter) (out : ℕ) (io : β)
    (hadded : virtqueueAddBufSplit.addDirect sg rest out io q = some q') :
    ∃ c free', c.data = io ∧ c.descs.length = rest.length + 1 ∧ free = c.descs ++ free' ∧
      Layout q' free' (c :: chains) ∧
      q' = VirtIO.publish c.head { q with
        desc := q'.desc, data := q'.data, firstUnused := q'.firstUnused
        numUnused := q'.numUnused } := by
  unfold virtqueueAddBufSplit.addDirect at hadded
  dsimp only at hadded
  split at hadded
  · cases hadded
  rename_i hroom
  have hfirst := fillDesc_filled sg (decide (out = 0)) q
  generalize hmid : { (fillDesc sg (decide (out = 0)) q).2 with
    data := Function.update (fillDesc sg (decide (out = 0)) q).2.data
      (fillDesc sg (decide (out = 0)) q).1 (some io) } = mid at hadded
  have hmidFilled : Filled q [q.firstUnused] mid := by
    rw [← hmid]
    exact ⟨⟨hfirst.taken, hfirst.link, hfirst.unused, hfirst.other⟩, hfirst.more⟩
  have hframe := fillDescs_frame out 1 rest (fillDesc sg (decide (out = 0)) q).1 mid
  obtain ⟨l, hlength, hfilled, hlast⟩ :=
    fillDescs_filled out 1 rest (fillDesc sg (decide (out = 0)) q).1 mid
  have hall := hmidFilled.trans hfilled
  generalize fillDescs out 1 rest (fillDesc sg (decide (out = 0)) q).1 mid = filled at *
  obtain ⟨body, last, hsplit⟩ : ∃ body last, q.firstUnused :: l = body ++ [last] :=
    ⟨_, _, (List.dropLast_append_getLast (by simp)).symm⟩
  have hend : filled.1 = last := by
    have hget : (q.firstUnused :: l).getLast? = some last := by simp [hsplit]
    rw [List.getLast?_cons] at hget
    rw [hlast, ← Option.some.inj hget]
    rfl
  rw [List.singleton_append, hsplit] at hall
  have htotal : (body ++ [last]).length = rest.length + 1 := by
    rw [← hsplit, List.length_cons, hlength]
  have hcount : (body ++ [last]).length ≤ q.numUnused := by omega
  have hchain := h.chain_of_taken (c := ⟨body, last, io⟩) hall.toTaken
    (fun d hd => hall.more d (List.mem_append_left _ hd)) hcount
    (by rw [hframe, ← hmid]; rfl) (by rw [hframe, ← hmid]; rfl)
  obtain ⟨hhead, free', hfree, hlayout⟩ := hchain
  obtain rfl := Option.some.inj hadded
  refine ⟨⟨body, last, io⟩, free', rfl, htotal, hfree, ?_, ?_⟩
  · rw [hend]
    exact hlayout.publish _
  · rw [hhead, hframe, ← hmid]
    rfl

/-- An indirect request takes one descriptor. -/
private theorem addIndirect (h : Layout q free chains) (sg : Scatter) (rest : List Scatter)
    (out : ℕ) (io : β) (page : IndirectPage) (hparts : 1 < rest.length + 1 ∧ 0 < q.numUnused)
    (hadded : virtqueueAddBufSplit sg rest out io (some page) q = some q') :
    ∃ c free', c.data = io ∧ c.descs.length = 1 ∧ free = c.descs ++ free' ∧
      Layout q' free' (c :: chains) ∧
      q' = VirtIO.publish c.head { q with
        desc := q'.desc, data := q'.data, firstUnused := q'.firstUnused
        numUnused := q'.numUnused, tables := q'.tables } := by
  unfold virtqueueAddBufSplit at hadded
  dsimp only at hadded
  rw [if_pos hparts] at hadded
  obtain rfl := Option.some.inj hadded
  set taken : SplitRing β := { (getUnusedDesc q).2 with
    tables := Function.update q.tables page.phys (indirectTable out (sg :: rest))
    desc := Function.update q.desc q.firstUnused { q.desc q.firstUnused with
      flags := ⟨false, false, true⟩, addr := page.phys
      len := BitVec.ofNat 32 (16 * (rest.length + 1)) }
    data := Function.update q.data q.firstUnused (some io) } with htaken
  have hlink : taken.link = q.link := by
    funext d
    by_cases hd : d = q.firstUnused
    · subst hd
      simp [SplitRing.link, htaken]
    · simp [SplitRing.link, htaken, Function.update_of_ne hd]
  have hother : ∀ d, d ∉ [q.firstUnused] → taken.desc d = q.desc d := by
    intro d hd
    have hne : d ≠ q.firstUnused := by simpa using hd
    simp [htaken, Function.update_of_ne hne]
  have hend : endChain q.firstUnused taken = taken := by
    simp [endChain, htaken]
  have hfilled : Taken q (Chain.descs ⟨[], q.firstUnused, io⟩) taken :=
    ⟨⟨rfl, rfl⟩, hlink, rfl, hother⟩
  obtain ⟨hhead, free', hfree, hlayout⟩ := h.chain_of_taken hfilled (by simp) hparts.2 rfl rfl
  refine ⟨⟨[], q.firstUnused, io⟩, free', rfl, rfl, hfree, ?_, rfl⟩
  rw [hend] at hlayout
  exact hlayout.publish _

end Layout

def addCost (rest : List Scatter) (indirect : Option IndirectPage) : ℕ :=
  if indirect.isSome then 1 else rest.length + 1

/-- A request is refused when it takes more descriptors than there are on the free list. -/
theorem addBufSplit_eq_none_iff (sg : Scatter) (rest : List Scatter) (out : ℕ) (io : β)
    (indirect : Option IndirectPage) (q : SplitRing β) :
    virtqueueAddBufSplit sg rest out io indirect q = none ↔
      q.numUnused < addCost rest indirect := by
  have hdirect : virtqueueAddBufSplit.addDirect sg rest out io q = none ↔
      q.numUnused < rest.length + 1 := by
    unfold virtqueueAddBufSplit.addDirect
    dsimp only
    split <;> simp_all
  unfold virtqueueAddBufSplit addCost
  cases indirect with
  | none => exact hdirect
  | some page =>
      simp only [Option.isSome_some, if_true]
      split_ifs with hparts
      · simp only [false_iff]
        omega
      · rw [hdirect]
        omega

namespace Layout

theorem add (h : Layout q free chains) (sg : Scatter) (rest : List Scatter) (out : ℕ) (io : β)
    (indirect : Option IndirectPage)
    (hadded : virtqueueAddBufSplit sg rest out io indirect q = some q') :
    ∃ c free', c.data = io ∧ c.descs.length = addCost rest indirect ∧ free = c.descs ++ free' ∧
      Layout q' free' (c :: chains) ∧
      q' = VirtIO.publish c.head { q with
        desc := q'.desc, data := q'.data, firstUnused := q'.firstUnused
        numUnused := q'.numUnused, tables := q'.tables } := by
  have hdirect : virtqueueAddBufSplit.addDirect sg rest out io q = some q' →
      ∃ c free', c.data = io ∧ c.descs.length = rest.length + 1 ∧ free = c.descs ++ free' ∧
      Layout q' free' (c :: chains) ∧
      q' = VirtIO.publish c.head { q with
        desc := q'.desc, data := q'.data, firstUnused := q'.firstUnused
        numUnused := q'.numUnused, tables := q'.tables } := by
    intro hadded
    obtain ⟨c, free', hdata, hcost, hfree, hlayout, hframe⟩ := h.addDirect sg rest out io hadded
    refine ⟨c, free', hdata, hcost, hfree, hlayout, ?_⟩
    rw [hframe]
    rfl
  cases indirect with
  | none => exact hdirect hadded
  | some page =>
      by_cases hparts : 1 < rest.length + 1 ∧ 0 < q.numUnused
      · exact h.addIndirect sg rest out io page hparts hadded
      · have hgranted := (addBufSplit_eq_none_iff sg rest out io (some page) q).not.mp
          (by simp [hadded])
        unfold virtqueueAddBufSplit at hadded
        dsimp only at hadded
        rw [if_neg hparts] at hadded
        obtain ⟨c, free', hdata, hcost, hrest⟩ := hdirect hadded
        refine ⟨c, free', hdata, ?_, hrest⟩
        simp only [addCost, Option.isSome_some, if_true] at hgranted ⊢
        omega

end Layout

end Viosnd.VirtIO
