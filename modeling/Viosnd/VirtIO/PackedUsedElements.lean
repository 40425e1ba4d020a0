import Viosnd.VirtIO.PackedQueue
import Viosnd.VirtIO.Shutdown

/-!
# Used descriptors the device made up

Before `virtqueue_get_buf_packed` frees anything it asks whether the id of the used descriptor is in
range and has a buffer. Here the device writes whatever it likes to the ring, whenever it likes, and
the driver calls what it likes: the driver's books stay in order.
-/

namespace Viosnd.VirtIO

open Paths StepRun Laps

variable {β : Type}

def PackedRing.inFlight (q : PackedRing β) : List β :=
  (List.range q.num).filterMap fun i => (q.descState i).data

structure PackedBooks (β : Type) where
  control : PackedControl β
  accepted : List β
  /-- Got or detached. -/
  returned : List β
  /-- Still in flight when the queue was shut down. -/
  dropped : List β

/-- A call that stops in `BUG_ON` changes nothing more. -/
def PackedBooks.step (b : PackedBooks β) (i : ControlInput β) : PackedBooks β :=
  let r := packedControlStep b.control i
  let b' := { b with
    control := r.1 }
  match i, r.2 with
  | .call (.addBuf _ _ _ io _), .added (some true) => { b' with
      accepted := b.accepted ++ [io] }
  | .call .getBuf, .got (some (some (some io, _))) => { b' with
      returned := b.returned ++ [io] }
  | .detachUnusedBuf, .detached (some (some io)) => { b' with
      returned := b.returned ++ [io] }
  | .shutdown, _ => { b' with
      dropped := b.dropped ++ b.control.vq.ring.inFlight }
  | _, _ => b'

def PackedBooks.made (s : QueueSetup) (m : PackedControl β) : PackedBooks β :=
  ⟨s.makePacked m, [], [], []⟩

/-- What the device cannot disturb. -/
structure PackedBooks.Balanced (b : PackedBooks β) : Prop where
  /-- Every buffer that was accepted is in flight or came back, and none came back twice. -/
  accounts : b.accepted.Perm (b.returned ++ (b.dropped ++ b.control.vq.ring.inFlight))
  /-- The free list and the chains in flight share out the ids, and only heads have a buffer. -/
  ids : ∃ free chains, IdLayout b.control.vq.ring free chains ∧
    ∀ d, (b.control.vq.ring.descState d).data.isSome = true ↔ ∃ c ∈ chains, c.head = d
  /-- The ring is only read and written inside. -/
  lastUsed : b.control.vq.ring.lastUsedIdx < b.control.vq.ring.num
  nextAvail : b.control.vq.ring.nextAvailIdx < b.control.vq.ring.num
  /-- The head of the free list is an id, even when no id is free. -/
  freeHead : b.control.vq.ring.freeHead < b.control.vq.ring.num

/-! ## The ids -/

section

variable {q q' : PackedRing β} {free : List ℕ} {chains others : List (Chain β)} {c : Chain β}

/-- The ids are in order, and the driver knows where it is in the ring. -/
structure PackedRing.Kept (q : PackedRing β) (free : List ℕ) (chains : List (Chain β)) :
    Prop where
  layout : IdLayout q free chains
  heads : ∀ d, (q.descState d).data.isSome = true ↔ ∃ c ∈ chains, c.head = d
  size : q.num ≤ 2 ^ 15
  lastUsed : q.lastUsedIdx < q.num
  nextAvail : ∃ e, At q.num e q.nextAvailIdx q.availUsedFlags.avail
  flipped : q.availUsedFlags.used = !q.availUsedFlags.avail

private theorem IdLayout.head_ne (h : IdLayout q free (c :: others)) {c' : Chain β}
    (hc' : c' ∈ others) :
    c'.head ≠ c.head := by
  intro hsame
  have hnodup := h.nodup
  rw [List.flatMap_cons] at hnodup
  have hapart := (List.nodup_append.mp (List.nodup_append.mp hnodup).2.1).2.2
  apply hapart c.head c.head_mem c.head
  · rw [← hsame]
    exact List.mem_flatMap.mpr ⟨c', hc', c'.head_mem⟩
  · rfl

private theorem IdLayout.eq_of_mem (h : IdLayout q free chains) {c' : Chain β} (hc : c ∈ chains)
    (hc' : c' ∈ chains) {d : ℕ} (hd : d ∈ c.descs) (hd' : d ∈ c'.descs) : c = c' := by
  by_contra hne
  have hnodup := (List.nodup_append.mp h.nodup).2.1
  rw [List.nodup_flatMap] at hnodup
  have hsymm : Std.Symm (Function.onFun List.Disjoint fun c : Chain β => c.descs) :=
    ⟨fun _ _ hab => hab.symm⟩
  have hapart := hnodup.2.forall hc hc' hne
  exact hapart hd hd'

private theorem filterMap_only {l : List ℕ} {f : ℕ → Option β} {a : ℕ} {b : β} (hnodup : l.Nodup)
    (ha : a ∈ l) (hsome : f a = some b) (honly : ∀ d ∈ l, (f d).isSome = true → d = a) :
    l.filterMap f = [b] := by
  induction l with
  | nil => cases ha
  | cons d l ih =>
      obtain ⟨hd, hnodup⟩ := List.nodup_cons.mp hnodup
      by_cases hda : d = a
      · have hrest : l.filterMap f = [] := by
          apply List.filterMap_eq_nil_iff.mpr
          intro x hx
          by_contra hsomex
          have hxa := honly x (List.mem_cons_of_mem d hx) (Option.isSome_iff_ne_none.mpr hsomex)
          exact hd (by rw [hda, ← hxa]; exact hx)
        rw [List.filterMap_cons, hda, hsome, hrest]
      · have hnone : f d = none := by
          by_contra hsomed
          exact hda (honly d List.mem_cons_self (Option.isSome_iff_ne_none.mpr hsomed))
        rw [List.filterMap_cons, hnone]
        apply ih hnodup
        · exact (List.mem_cons.mp ha).resolve_left fun h => hda h.symm
        · exact fun x hx => honly x (List.mem_cons_of_mem d hx)

private theorem PackedRing.Kept.inFlight_perm (h : q.Kept free chains) :
    q.inFlight.Perm (chains.map Chain.data) := by
  have hcover := h.layout.cover.symm.filterMap fun i => (q.descState i).data
  have hfree : free.filterMap (fun i => (q.descState i).data) = [] := by
    apply List.filterMap_eq_nil_iff.mpr
    intro d hd
    by_contra hsome
    obtain ⟨c, hc, rfl⟩ := (h.heads d).mp (Option.isSome_iff_ne_none.mpr hsome)
    apply (List.nodup_append.mp h.layout.nodup).2.2 c.head hd c.head
    · exact List.mem_flatMap.mpr ⟨c, hc, c.head_mem⟩
    · rfl
  have heach : ∀ c ∈ chains, c.descs.filterMap (fun i => (q.descState i).data) = [c.data] := by
    intro c hc
    have hnodup := (List.nodup_flatMap.mp (List.nodup_append.mp h.layout.nodup).2.1).1 c hc
    apply filterMap_only hnodup c.head_mem (h.layout.has c hc).data
    intro d hd hsome
    obtain ⟨c', hc', hhead⟩ := (h.heads d).mp hsome
    rw [← hhead] at hd ⊢
    rw [h.layout.eq_of_mem hc hc' hd c'.head_mem]
  rw [List.filterMap_append, hfree, List.nil_append, List.filterMap_flatMap] at hcover
  have hall : chains.flatMap (fun c => c.descs.filterMap fun i => (q.descState i).data) =
      chains.map Chain.data := by
    rw [List.map_eq_flatMap]
    apply List.flatMap_congr
    exact heach
  rw [hall] at hcover
  exact hcover

theorem PackedRing.Kept.congr (h : q.Kept free chains) (hnum : q'.num = q.num)
    (hstate : q'.descState = q.descState) (hfirst : q'.freeHead = q.freeHead)
    (hunused : q'.numFree = q.numFree) (hlast : q'.lastUsedIdx = q.lastUsedIdx)
    (hnext : q'.nextAvailIdx = q.nextAvailIdx) (hflags : q'.availUsedFlags = q.availUsedFlags) :
    q'.Kept free chains := by
  obtain ⟨e, he⟩ := h.nextAvail
  refine ⟨h.layout.congr hnum hstate hfirst hunused, ?_, hnum ▸ h.size, ?_, ⟨e, ?_⟩, ?_⟩
  · rw [hstate]
    exact h.heads
  · rw [hnum, hlast]
    exact h.lastUsed
  · rw [hnum, hnext, hflags]
    exact he
  · rw [hflags]
    exact h.flipped

theorem PackedRing.Kept.of_perm (h : q.Kept free chains) (hperm : chains.Perm others) :
    q.Kept free others := by
  refine ⟨h.layout.of_perm hperm, fun d => ?_, h.size, h.lastUsed, h.nextAvail, h.flipped⟩
  rw [h.heads d]
  simp only [hperm.mem_iff]

theorem PackedRing.Kept.new (β : Type) (size : QueueSize) :
    (vringNewVirtqueuePacked β size.num).Kept (List.range size.num) [] := by
  refine ⟨IdLayout.new β size.pos, ?_, size.le, size.pos, ⟨0, at_zero size.num⟩, rfl⟩
  intro d
  simp [vringNewVirtqueuePacked]

/-! ## The calls -/

private theorem addPackedDirect_data {sgs : List Scatter} {out id : ℕ} {io : β}
    (h : addPackedDirect sgs out io id q = some q') (d : ℕ) :
    (q'.descState d).data = if d = id then some io else (q.descState d).data := by
  unfold addPackedDirect at h
  dsimp only at h
  by_cases hroom : q.numFree < sgs.length
  · rw [if_pos hroom] at h
    cases h
  · rw [if_neg hroom] at h
    have hframe := fillPackedDescs_frame out sgs.length id 0 sgs ⟨q.nextAvailIdx, id, 0⟩ q
    generalize fillPackedDescs out sgs.length id 0 sgs ⟨q.nextAvailIdx, id, 0⟩ q = filled at *
    rw [← Option.some.inj h, hframe]
    dsimp only
    split
    · rename_i hd
      rw [hd, Function.update_self]
    · rename_i hd
      rw [Function.update_of_ne hd]

private theorem addPackedIndirect_data (sgs : List Scatter) (out id : ℕ) (io : β)
    (page : IndirectPage) (q : PackedRing β) (d : ℕ) :
    ((addPackedIndirect sgs out io page id q).descState d).data =
      if d = id then some io else (q.descState d).data := by
  dsimp only [addPackedIndirect]
  split
  · rename_i hd
    rw [hd, Function.update_self]
  · rename_i hd
    rw [Function.update_of_ne hd]

theorem PackedRing.Kept.add (h : q.Kept free chains) {free' : List ℕ} {e : ℕ} {io : β}
    (hlayout : IdLayout q' free' (c :: chains)) (happ : Appends q q' e c)
    (hdata : ∀ d, (q'.descState d).data = if d = q.freeHead then some io
      else (q.descState d).data) : q'.Kept free' (c :: chains) := by
  have hhead : c.head = q.freeHead := by
    by_contra hne
    have hrecord := (hlayout.has c List.mem_cons_self).data
    rw [hdata, if_neg hne] at hrecord
    obtain ⟨c', hc', hsame⟩ := (h.heads c.head).mp (by rw [hrecord]; rfl)
    exact hlayout.head_ne hc' hsame
  refine ⟨hlayout, fun d => ?_, happ.num ▸ h.size, ?_, ⟨_, happ.num ▸ happ.next⟩, happ.flipped⟩
  · rw [hdata]
    by_cases hd : d = q.freeHead
    · rw [if_pos hd, hd]
      simp [hhead]
    · rw [if_neg hd, h.heads d]
      simp [hhead, Ne.symm hd]
  · rw [happ.num, happ.lastUsedIdx]
    exact h.lastUsed

/-- A request is granted with a chain of its own, or nothing happens; it never stops for its id. -/
theorem PackedRing.Kept.addBuf (h : q.Kept free chains) (sg : Scatter) (rest : List Scatter)
    (out : ℕ) (io : β) (page : Option IndirectPage) :
    (virtqueueAddBufPacked sg rest out io page q).join = none ∨
      ∃ c free' q', virtqueueAddBufPacked sg rest out io page q = some (some q') ∧
        c.data = io ∧ q'.Kept free' (c :: chains) := by
  obtain ⟨e, he⟩ := h.nextAvail
  have hsize := h.size
  have hlt := h.layout.freeHead_lt
  have hid : q.freeHead % 2 ^ 16 = q.freeHead := Nat.mod_eq_of_lt (by omega)
  have hdirect : (some (addPackedDirect (sg :: rest) out io q.freeHead q)).join = none ∨
      ∃ c free' q', some (addPackedDirect (sg :: rest) out io q.freeHead q) = some (some q') ∧
        c.data = io ∧ q'.Kept free' (c :: chains) := by
    rcases Nat.lt_or_ge q.numFree (rest.length + 1) with hfull | hroom
    · left
      unfold addPackedDirect
      rw [if_pos (by simpa using hfull)]
      rfl
    · right
      obtain ⟨c, free', q', hadd, hdata, -, hlayout, happ⟩ :=
        addPackedDirect_appends h.layout h.size he h.flipped sg rest out io hroom
      exact ⟨c, free', q', by rw [hadd], hdata,
        h.add hlayout happ (addPackedDirect_data hadd)⟩
  unfold virtqueueAddBufPacked
  dsimp only
  rw [hid, if_neg (by omega)]
  cases page with
  | none => exact hdirect
  | some page =>
      dsimp only
      split
      · rename_i hroom
        split
        · exact Or.inl rfl
        · right
          obtain ⟨c, free', hdata, -, hlayout, happ⟩ := addPackedIndirect_appends h.layout h.size he
            h.flipped (sg :: rest) out io page hroom
          exact ⟨c, free', _, rfl, hdata,
            h.add hlayout happ (addPackedIndirect_data _ _ _ _ _ _)⟩
      · exact hdirect

private theorem detachBufPacked_data (q : PackedRing β) (id d : ℕ) :
    ((detachBufPacked id q).descState d).data = if d = id then none else (q.descState d).data := by
  simp only [detachBufPacked]
  by_cases hlast : d = (q.descState id).last
  · rw [← hlast, Function.update_self]
    by_cases hid : d = id
    · rw [if_pos hid, hid, Function.update_self]
    · rw [if_neg hid, Function.update_of_ne hid]
  · rw [Function.update_of_ne hlast]
    by_cases hid : d = id
    · rw [if_pos hid, hid, Function.update_self]
    · rw [if_neg hid, Function.update_of_ne hid]

theorem PackedRing.Kept.detach (h : q.Kept free (c :: others)) :
    (detachBufPacked c.head q).Kept (c.descs ++ free) others := by
  obtain ⟨e, he⟩ := h.nextAvail
  have hsize := h.size
  refine ⟨h.layout.put (by omega), fun d => ?_, h.size, h.lastUsed, ⟨e, he⟩, h.flipped⟩
  rw [detachBufPacked_data]
  by_cases hd : d = c.head
  · rw [if_pos hd, hd]
    constructor
    · intro hsome
      cases hsome
    · rintro ⟨c', hc', hsame⟩
      exact absurd hsame (h.layout.head_ne hc')
  · rw [if_neg hd, h.heads d]
    simp [Ne.symm hd]

theorem PackedRing.Kept.exists_head (h : q.Kept free chains) {id : ℕ} {io : β}
    (hio : (q.descState id).data = some io) :
    ∃ c others, c.head = id ∧ c.data = io ∧ chains.Perm (c :: others) ∧
      q.Kept free (c :: others) := by
  obtain ⟨c, hc, hhead⟩ := (h.heads id).mp (by rw [hio]; rfl)
  obtain ⟨others, hperm⟩ := (List.singleton_sublist.mpr hc).exists_perm_append
  have hdata := (h.layout.has c hc).data
  rw [hhead, hio] at hdata
  exact ⟨c, others, hhead, (Option.some.inj hdata).symm, hperm, h.of_perm hperm⟩

/-- The driver's place in the ring passes a chain, whatever id the device wrote. -/
theorem PackedRing.Kept.pass (h : q.Kept free chains) {count : ℕ} (hcount : count ≤ q.num) :
    (expectUsed (passUsed count q)).Kept free chains := by
  have hsize := h.size
  have hlast := h.lastUsed
  have hpass : (passUsed count q).Kept free chains := by
    obtain ⟨e, he⟩ := h.nextAvail
    unfold passUsed
    dsimp only
    split
    · refine ⟨h.layout.congr rfl rfl rfl rfl, h.heads, h.size, ?_, ⟨e, he⟩, h.flipped⟩
      dsimp only
      omega
    · refine ⟨h.layout.congr rfl rfl rfl rfl, h.heads, h.size, ?_, ⟨e, he⟩, h.flipped⟩
      dsimp only
      omega
  unfold expectUsed
  split
  · exact hpass.congr rfl rfl rfl rfl rfl rfl rfl
  · exact hpass

/-- A call that gets a buffer gives back the chain of it, or does nothing. -/
theorem PackedRing.Kept.getBuf (h : q.Kept free chains) :
    virtqueueGetBufPacked q = none ∨ virtqueueGetBufPacked q = some (none, q) ∨
      ∃ c others len q', virtqueueGetBufPacked q = some (some (c.data, len), q') ∧
        chains.Perm (c :: others) ∧ q'.Kept (c.descs ++ free) others := by
  unfold virtqueueGetBufPacked
  split
  · exact Or.inr (Or.inl rfl)
  dsimp only
  split
  · exact Or.inl rfl
  cases hio : (q.descState (q.desc q.lastUsedIdx).id.toNat).data with
  | none => exact Or.inl rfl
  | some io =>
      obtain ⟨c, others, hhead, hdata, hperm, hkept⟩ := h.exists_head hio
      have hcount : ((detachBufPacked c.head q).descState c.head).num = c.descs.length := by
        rw [detachBufPacked_num, (hkept.layout.has c List.mem_cons_self).count]
      have htotal := hkept.layout.size_eq
      rw [chainSize_cons] at htotal
      right
      right
      refine ⟨c, others, (q.desc q.lastUsedIdx).len, _, ?_, hperm,
        (hkept.detach).pass (?_ : c.descs.length ≤ q.num)⟩
      · rw [← hhead, hdata, hcount]
      · omega

private theorem PackedRing.Kept.detachUnused (h : q.Kept free chains) :
    virtqueueDetachUnusedBufPacked q = some (none, q) ∨
      ∃ c others q', virtqueueDetachUnusedBufPacked q = some (some c.data, q') ∧
        chains.Perm (c :: others) ∧ q'.Kept (c.descs ++ free) others := by
  unfold virtqueueDetachUnusedBufPacked
  cases hfind : (List.range q.num).find? fun i => (q.descState i).data.isSome with
  | none =>
      left
      have hnone : chains = [] := by
        by_contra hsome
        obtain ⟨c, hc⟩ := List.exists_mem_of_ne_nil chains hsome
        have hfirst := List.find?_eq_none.mp hfind c.head
          (List.mem_range.mpr (h.layout.lt_num hc c.head_mem))
        exact hfirst ((h.heads c.head).mpr ⟨c, hc, rfl⟩)
      have htotal := h.layout.size_eq
      rw [hnone, chainSize_nil, Nat.add_zero] at htotal
      exact if_neg (not_not.mpr htotal)
  | some i =>
      right
      have hsome := List.find?_some hfind
      obtain ⟨io, hio⟩ := Option.isSome_iff_exists.mp hsome
      obtain ⟨c, others, hhead, hdata, hperm, hkept⟩ := h.exists_head hio
      refine ⟨c, others, _, ?_, hperm, hkept.detach⟩
      dsimp only
      rw [← hhead, (hkept.layout.has c List.mem_cons_self).data]

end

/-! ## Runs -/

section

variable {b : PackedBooks β} {s : QueueSetup}

structure PackedBooks.Kept (s : QueueSetup) (b : PackedBooks β) : Prop where
  made : b.control.Made s
  ring : ∃ free chains, b.control.vq.ring.Kept free chains ∧
    b.accepted.Perm (b.returned ++ (b.dropped ++ chains.map Chain.data))

theorem PackedBooks.Kept.balanced (h : b.Kept s) : b.Balanced := by
  obtain ⟨free, chains, hring, haccounts⟩ := h.ring
  obtain ⟨e, he⟩ := hring.nextAvail
  have hpos : 0 < b.control.vq.ring.num := Nat.lt_of_le_of_lt (Nat.zero_le _) hring.lastUsed
  refine ⟨?_, ⟨free, chains, hring.layout, hring.heads⟩, hring.lastUsed, ?_,
    hring.layout.freeHead_lt⟩
  · exact haccounts.trans ((hring.inFlight_perm.symm.append_left _).append_left _)
  · rw [he.index_eq]
    exact slot_lt hpos e

theorem PackedBooks.Kept.addBuf (h : b.Kept s) (sg : Scatter) (rest : List Scatter) (out : ℕ)
    (io : β) (page : Option IndirectPage) :
    (b.step (.call (.addBuf sg rest out io page))).Kept s := by
  have hmade := packedControlStep_made h.made (.call (.addBuf sg rest out io page))
  obtain ⟨free, chains, hring, haccounts⟩ := h.ring
  rcases hring.addBuf sg rest out io page with hnone | ⟨c, free', q', hadd, hdata, hnext⟩
  · have hstep : b.step (.call (.addBuf sg rest out io page)) = b := by
      cases hadd : virtqueueAddBufPacked sg rest out io page b.control.vq.ring with
      | none => simp [PackedBooks.step, packedControlStep, packedCallbackStep, packedAnswer, hadd]
      | some granted =>
          rw [hadd] at hnone
          obtain rfl : granted = none := hnone
          simp [PackedBooks.step, packedControlStep, packedCallbackStep, packedAnswer, hadd]
    rw [hstep]
    exact h
  · have hstep : b.step (.call (.addBuf sg rest out io page)) = { b with
        control := (packedControlStep b.control (.call (.addBuf sg rest out io page))).1
        accepted := b.accepted ++ [io] } := by
      simp [PackedBooks.step, packedControlStep, packedAnswer, hadd]
    have hq : (packedControlStep b.control
        (.call (.addBuf sg rest out io page))).1.vq.ring = q' := by
      simp [packedControlStep, packedCallbackStep, hadd]
    rw [hstep]
    refine ⟨hmade, free', c :: chains, ?_, ?_⟩
    · rw [hq]
      exact hnext
    · rw [List.map_cons, hdata]
      have hmore := haccounts.append_right [io]
      refine hmore.trans ?_
      rw [List.append_assoc, List.append_assoc]
      exact ((List.perm_append_singleton io _).append_left _).append_left _

private theorem returned_perm {accepted returned dropped inFlight : List β} {io : β} {rest : List β}
    (h : accepted.Perm (returned ++ (dropped ++ inFlight))) (hio : inFlight.Perm (io :: rest)) :
    accepted.Perm ((returned ++ [io]) ++ (dropped ++ rest)) := by
  refine h.trans ?_
  rw [List.append_assoc]
  apply List.Perm.append_left
  refine (hio.append_left dropped).trans ?_
  exact List.perm_middle

theorem PackedBooks.Kept.getBuf (h : b.Kept s) : (b.step (.call .getBuf)).Kept s := by
  have hmade := packedControlStep_made h.made (.call .getBuf)
  obtain ⟨free, chains, hring, haccounts⟩ := h.ring
  rcases hring.getBuf with hget | hget | ⟨c, others, len, q', hget, hperm, hnext⟩
  · have hstep : b.step (.call .getBuf) = b := by
      simp [PackedBooks.step, packedControlStep, packedCallbackStep, packedAnswer, hget]
    rw [hstep]
    exact h
  · have hstep : b.step (.call .getBuf) = b := by
      simp [PackedBooks.step, packedControlStep, packedCallbackStep, packedAnswer, hget]
    rw [hstep]
    exact h
  · have hstep : b.step (.call .getBuf) = { b with
        control := (packedControlStep b.control (.call .getBuf)).1
        returned := b.returned ++ [c.data] } := by
      simp [PackedBooks.step, packedControlStep, packedAnswer, hget]
    have hq : (packedControlStep b.control (.call .getBuf)).1.vq.ring = q' := by
      simp [packedControlStep, packedCallbackStep, hget]
    rw [hstep]
    refine ⟨hmade, c.descs ++ free, others, ?_, ?_⟩
    · rw [hq]
      exact hnext
    · exact returned_perm haccounts (hperm.map Chain.data)

private theorem PackedBooks.Kept.detachUnused (h : b.Kept s) :
    (b.step .detachUnusedBuf).Kept s := by
  have hmade := packedControlStep_made h.made .detachUnusedBuf
  obtain ⟨free, chains, hring, haccounts⟩ := h.ring
  rcases hring.detachUnused with hdetach | ⟨c, others, q', hdetach, hperm, hnext⟩
  · have hstep : b.step .detachUnusedBuf = b := by
      simp [PackedBooks.step, packedControlStep, PackedControl.withRing, hdetach]
    rw [hstep]
    exact h
  · have hstep : b.step .detachUnusedBuf = { b with
        control := (packedControlStep b.control .detachUnusedBuf).1
        returned := b.returned ++ [c.data] } := by
      simp [PackedBooks.step, packedControlStep, hdetach]
    have hq : (packedControlStep b.control .detachUnusedBuf).1.vq.ring = q' := by
      simp [packedControlStep, PackedControl.withRing, hdetach]
    rw [hstep]
    refine ⟨hmade, c.descs ++ free, others, ?_, ?_⟩
    · rw [hq]
      exact hnext
    · exact returned_perm haccounts (hperm.map Chain.data)

private theorem newPackedControl_kept (hsize : QueueSize) {a : NewArgs} (ha : a.num = hsize.num)
    (c : PackedControl β) :
    (newPackedControl a c.zeroPages).vq.ring.Kept (List.range hsize.num) [] := by
  rw [newPackedControl_ring, ha]
  exact (PackedRing.Kept.new β hsize).congr rfl rfl rfl rfl rfl rfl rfl

theorem PackedBooks.Kept.shutdown (h : b.Kept s) : (b.step .shutdown).Kept s := by
  have hmade := packedControlStep_made h.made .shutdown
  obtain ⟨free, chains, hring, haccounts⟩ := h.ring
  refine ⟨hmade, List.range s.size.num, [], newPackedControl_kept s.size h.made.num b.control, ?_⟩
  dsimp only [PackedBooks.step]
  rw [List.map_nil, List.append_nil]
  exact haccounts.trans ((hring.inFlight_perm.symm.append_left _).append_left _)

theorem PackedBooks.Kept.aside (h : b.Kept s) {control : PackedControl β} (hmade : control.Made s)
    (hring : ∀ free chains, b.control.vq.ring.Kept free chains →
      control.vq.ring.Kept free chains) : PackedBooks.Kept s { b with
    control := control } := by
  obtain ⟨free, chains, hold, haccounts⟩ := h.ring
  exact ⟨hmade, free, chains, hring free chains hold, haccounts⟩

theorem PackedBooks.Kept.step (h : b.Kept s) (i : ControlInput β) : (b.step i).Kept s := by
  have hmade := packedControlStep_made h.made i
  cases i with
  | call i =>
      cases i with
      | addBuf sg rest out io page => exact h.addBuf sg rest out io page
      | getBuf => exact h.getBuf
      | enableCb =>
          apply h.aside hmade
          intro free chains hring
          simp only [packedControlStep, packedCallbackStep, virtqueueEnableCbPacked,
            virtqueueEnableCbPreparePacked, await_eq]
          exact hring.congr rfl rfl rfl rfl rfl rfl rfl
      | enableCbDelayed =>
          apply h.aside hmade
          intro free chains hring
          simp only [packedControlStep, packedCallbackStep, virtqueueEnableCbDelayedPacked,
            await_eq]
          exact hring.congr rfl rfl rfl rfl rfl rfl rfl
      | disableCb =>
          apply h.aside hmade
          intro free chains hring
          simp only [packedControlStep, packedCallbackStep, virtqueueDisableCbPacked]
          split
          · exact hring.congr rfl rfl rfl rfl rfl rfl rfl
          · exact hring
      | device usedRing usedIdx desc =>
          apply h.aside hmade
          intro free chains hring
          exact hring.congr rfl rfl rfl rfl rfl rfl rfl
  | detachUnusedBuf => exact h.detachUnused
  | kick =>
      apply h.aside hmade
      intro free chains hring
      exact hring.congr rfl rfl rfl rfl rfl rfl rfl
  | kickAlways =>
      apply h.aside hmade
      intro free chains hring
      exact hring.congr rfl rfl rfl rfl rfl rfl rfl
  | notice split packed => exact h.aside hmade fun _ _ hring => hring
  | shutdown => exact h.shutdown

private theorem PackedBooks.made_kept (s : QueueSetup) (m : PackedControl β) :
    (PackedBooks.made s m).Kept s := by
  refine ⟨⟨rfl, rfl, rfl, rfl, rfl⟩, List.range s.size.num, [],
    newPackedControl_kept s.size rfl m, ?_⟩
  exact List.Perm.refl _

/-- Whatever the device writes and the driver calls, the books of a packed queue balance. -/
theorem packedRun_balanced (s : QueueSetup) (m : PackedControl β)
    (inputs : List (ControlInput β)) :
    (run PackedBooks.step (PackedBooks.made s m) inputs).Balanced := by
  have h := run_invariant (fun b i (h : PackedBooks.Kept s b) => h.step i) inputs
    (PackedBooks.made_kept s m)
  exact h.balanced

end

end Viosnd.VirtIO
