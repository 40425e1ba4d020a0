import Viosnd.VirtIO.LiveQueue
import Viosnd.VirtIO.PackedQueue
import Viosnd.VirtIO.QueueReference

/-!
# Both rings are the same bounded queue

The split and the packed ring, each with its device, answer every sequence of inputs as the bounded
queue of their size does.
-/

namespace Viosnd.VirtIO

open Machine BoundedQueue Paths Laps

variable {β : Type}

/-! ## The split ring -/

/-- One input of a split ring and its device; `none` when a routine of the driver does not end. -/
def splitStep (w : LiveQueue β) : QueueInput β → Option (LiveQueue β × Answer β (BitVec 32))
  | .add r =>
      match virtqueueAddBufSplit r.sg r.rest r.out r.io r.indirect w.ring with
      | none => some (w, .noSpace)
      | some ring => some ({ w with ring, published := w.published + 1 }, .added)
  | .take => some (takeEntry w, .silent)
  | .complete k len =>
      some (giveBackChain k len (takeEntry^[k + 1 - w.held.length] w), .silent)
  | .get =>
      match virtqueueGetBufSplit w.ring with
      | none => none
      | some (none, ring) => some ({ w with ring }, .nothing)
      | some (some (io, len), ring) =>
          let next := { w with ring, returned := w.returned.tail }
          match io with
          | none => some (next, .nothing)
          | some io => some (next, .got io len)

def LiveQueue.ofSize (β : Type) (size : QueueSize) (eventSuppression : Bool) : LiveQueue β :=
  { LiveQueue.new β size.num with
    ring := vringNewVirtqueueSplit β size.num eventSuppression }

/-- The bounded queue has what the split ring and its device hold. -/
def SplitMirrors (w : LiveQueue β) (q : BoundedQueue β (BitVec 32)) : Prop :=
  ∃ free untaken held returned, Consistent w free untaken held (returned.map Prod.fst) ∧
    w.withdrawn = false ∧
    HoldsFrom (fun i => (w.ring.usedRing i).len.toNat) w.ring.num w.ring.lastUsed
      (returned.map fun e => e.2.toNat) ∧
    Mirrors q w.ring.num untaken held returned

private theorem splitMirrors_new (β : Type) (size : QueueSize) (eventSuppression : Bool) :
    SplitMirrors (LiveQueue.ofSize β size eventSuppression) (BoundedQueue.new size.num) := by
  have h := LiveQueue.new_consistent (β := β) size.num size.dvd
  exact ⟨List.range size.num, [], [], [], ⟨Layout.new β size.num eventSuppression, h.size,
    h.held_eq, h.returned_eq, h.shared, h.available, h.aligned, h.used, h.filled, h.published,
    h.position, h.running⟩, rfl, fun k head hk => by simp at hk, mirrors_new β size.num⟩

theorem Layout.size_eq {q : SplitRing β} {free : List ℕ} {chains : List (Chain β)}
    (h : Layout q free chains) : q.numUnused + chainSize chains = q.num := by
  have hlength := h.cover.length_eq
  rw [List.length_append, length_flatMap_descs, List.length_range] at hlength
  rw [h.unused]
  exact hlength

private theorem takeEntry_iterate {w : LiveQueue β} {free : List ℕ}
    {untaken held returned : List (Chain β)} (h : Consistent w free untaken held returned)
    (hnone : w.withdrawn = false) (n : ℕ) :
    ∃ untaken' held', held' ++ untaken' = held ++ untaken ∧
      Consistent (takeEntry^[n] w) free untaken' held' returned ∧
      (takeEntry^[n] w).withdrawn = false ∧ (takeEntry^[n] w).ring = w.ring ∧
      (untaken' ≠ [] → held.length + n ≤ held'.length) := by
  obtain ⟨untaken', held', hkept, ⟨hnext, hwithdrawn, hring⟩, hreach⟩ := take_iterate
    (C := fun untaken held s => Consistent s free untaken held returned ∧ s.withdrawn = false ∧
      s.ring = w.ring) (f := takeEntry) (fun untaken held s hs => by
        obtain ⟨hs, hnone, hring⟩ := hs
        obtain ⟨untaken', held', hkept, hnext, hgrown⟩ := takeEntry_inOrder hs hnone
        refine ⟨untaken', held', hkept, ⟨hnext, ?_, ?_⟩, hgrown⟩
        · unfold takeEntry
          split_ifs
          · exact hnone
          · simp only [hnone, Bool.false_and]
        · unfold takeEntry
          split_ifs <;> exact hring) n ⟨h, hnone, rfl⟩
  exact ⟨untaken', held', hkept, hnext, hwithdrawn, hring, hreach⟩

private theorem split_simulates :
    Simulates (SplitMirrors (β := β)) splitStep fun q i => q.act i.op := by
  rintro w q i ⟨free, untaken, held, returned, h, hnone, hlens, hmirrors⟩
  have hsize := h.layout.size_eq
  cases i with
  | add r =>
      have hrefused := addBufSplit_eq_none_iff r.sg r.rest r.out r.io r.indirect w.ring
      simp only [splitStep, QueueInput.op]
      cases hadd : virtqueueAddBufSplit r.sg r.rest r.out r.io r.indirect w.ring with
      | none =>
          have hfull := hrefused.mp hadd
          rw [hmirrors.add_noSpace r.io (by omega)]
          exact ⟨w, rfl, free, untaken, held, returned, h, hnone, hlens, hmirrors⟩
      | some ring =>
          have hroom := hrefused.not.mp (by simp [hadd])
          obtain ⟨c, free', hdata, hcost, hnext, hnum, hlast, hused⟩ := addBuf_consistent h hadd
          obtain ⟨q', hact, hmirrors'⟩ := hmirrors.add hcost (by omega)
          rw [← hdata, hact]
          refine ⟨_, rfl, free', untaken ++ [c], held, returned, hnext, hnone, ?_, ?_⟩
          · dsimp only
            rw [hnum, hlast, hused]
            exact hlens
          · dsimp only
            rw [hnum]
            exact hmirrors'
  | take =>
      obtain ⟨untaken', held', hkept, hnext, hnone', hring, -⟩ := takeEntry_iterate h hnone 1
      refine ⟨takeEntry w, rfl, free, untaken', held', returned, hnext, hnone', ?_, ?_⟩
      · rw [Function.iterate_one] at hring
        rw [hring]
        exact hlens
      · rw [Function.iterate_one] at hring
        rw [hring]
        exact hmirrors.of_taken hkept
  | complete k len =>
      have hheld : w.held.length = held.length := by
        rw [h.held_eq, List.length_map]
      obtain ⟨untaken', held', hkept, hnext, hnone', hring, hreach⟩ :=
        takeEntry_iterate h hnone (k + 1 - w.held.length)
      have hmirrors' := hmirrors.of_taken hkept
      simp only [splitStep, QueueInput.op, act]
      refine ⟨_, rfl, ?_⟩
      generalize takeEntry^[k + 1 - w.held.length] w = s at *
      rw [← hring] at hlens hmirrors'
      cases hk : held'[k]? with
      | none =>
          have hshort := List.getElem?_eq_none_iff.mp hk
          obtain rfl : untaken' = [] := by
            by_contra hleft
            have hlong := hreach hleft
            omega
          rw [giveBackChain_none hnext hk, hmirrors'.complete_none hk]
          exact ⟨free, [], held', returned, hnext, hnone', hlens, hmirrors'⟩
      | some c =>
          obtain ⟨hdone, hnum, hlast, hused, hroom⟩ := giveBackChain_consistent_of hnext hk len
          rw [List.length_map] at hused hroom
          refine ⟨free, untaken', held'.eraseIdx k, returned ++ [(c, len)], ?_, ?_, ?_, ?_⟩
          · rw [List.map_append]
            exact hdone
          · unfold giveBackChain
            split <;> exact hnone'
          · rw [hnum, hlast, hused, List.map_append]
            apply hlens.concat hnext.size
            · simpa using hroom
            · simp
            · intro i hi
              rw [List.length_map] at hi
              simp only [Function.update_of_ne hi]
          · rw [hnum]
            exact hmirrors'.complete hk len
  | get =>
      simp only [splitStep, QueueInput.op]
      cases returned with
      | nil =>
          rw [getBuf_none h, hmirrors.get_none]
          exact ⟨w, rfl, free, untaken, held, [], h, hnone, hlens, hmirrors⟩
      | cons e returned =>
          obtain ⟨c, len⟩ := e
          obtain ⟨next, hget, hnext, hnum, hlast, hused⟩ := getBuf_consistent h
          obtain ⟨q', hact, hmirrors'⟩ := hmirrors.get_some
          have hlen : (w.ring.usedRing (descIndex w.ring.num w.ring.lastUsed)).len = len :=
            BitVec.eq_of_toNat_eq hlens.first
          rw [hget, hact, hlen]
          refine ⟨_, rfl, c.descs ++ free, untaken, held, returned, hnext, hnone, ?_, ?_⟩
          · dsimp only
            rw [hnum, hlast, hused]
            exact hlens.rest
          · dsimp only
            rw [hnum]
            exact hmirrors'

/-! ## The packed ring -/

/-- One input of a packed ring and its device; `none` when a routine of the driver does not end. -/
def packedStep (w : PackedQueue β) : QueueInput β → Option (PackedQueue β × Answer β (BitVec 32))
  | .add r =>
      match virtqueueAddBufPacked r.sg r.rest r.out r.io r.indirect w.ring with
      | none => none
      | some none => some (w, .noSpace)
      | some (some ring) => some ({ w with ring }, .added)
  | .take => some (takePacked w, .silent)
  | .complete k len =>
      some (giveBackPacked k len (takePacked^[k + 1 - w.held.length] w), .silent)
  | .get =>
      match virtqueueGetBufPacked w.ring with
      | none => none
      | some (none, ring) => some ({ w with ring }, .nothing)
      | some (some (io, len), ring) => some ({ w with ring }, .got io len)

/-- The bounded queue has what the packed ring and its device hold. -/
def PackedMirrors (w : PackedQueue β) (q : BoundedQueue β (BitVec 32)) : Prop :=
  ∃ free untaken held returned start, w.Consistent free untaken held returned start ∧
    Mirrors q w.ring.num untaken held returned

section

variable {w : PackedQueue β} {free : List ℕ} {untaken held : List (Chain β)}
  {returned : List (Chain β × BitVec 32)} {start : ℕ}

/-- A request is granted when it takes no more descriptors than are free. -/
private theorem addBufPacked_granted (h : w.Consistent free untaken held returned start)
    (r : AddRequest β) (hroom : addCost r.rest r.indirect ≤ w.ring.numFree) :
    ∃ c free' ring, virtqueueAddBufPacked r.sg r.rest r.out r.io r.indirect w.ring =
        some (some ring) ∧ c.data = r.io ∧ c.descs.length = addCost r.rest r.indirect ∧
      PackedQueue.Consistent { w with
        ring } free' (untaken ++ [c]) held returned start ∧ ring.num = w.ring.num := by
  have hsize := h.size
  have hfirst := h.layout.freeHead_lt
  have hid : w.ring.freeHead % 2 ^ 16 = w.ring.freeHead := Nat.mod_eq_of_lt (by omega)
  unfold virtqueueAddBufPacked
  simp only [hid, if_neg (Nat.not_le.mpr hfirst)]
  cases hind : r.indirect with
  | none =>
      rw [hind] at hroom
      obtain ⟨c, free', ring, hadd, hdata, hcost, hlayout, happ⟩ :=
        addPackedDirect_appends h.layout hsize h.nextAvail h.flipped r.sg r.rest r.out r.io hroom
      exact ⟨c, free', ring, congrArg some hadd, hdata, hcost, h.append hlayout happ, happ.num⟩
  | some page =>
      have hfits := r.fits (by rw [hind]; rfl)
      rw [hind] at hroom
      have hfree : 0 < w.ring.numFree := hroom
      obtain ⟨c, free', hdata, hcost, hlayout, happ⟩ :=
        addPackedIndirect_appends h.layout hsize h.nextAvail h.flipped (r.sg :: r.rest) r.out r.io
          page hfree
      refine ⟨c, free', _, ?_, hdata, hcost, h.append hlayout happ, happ.num⟩
      dsimp only
      rw [if_pos hfree, if_neg (Nat.not_le.mpr hfits)]

theorem addBufPacked_refused (h : w.Consistent free untaken held returned start)
    (r : AddRequest β) (hfull : w.ring.numFree < addCost r.rest r.indirect) :
    virtqueueAddBufPacked r.sg r.rest r.out r.io r.indirect w.ring = some none := by
  have hsize := h.size
  have hfirst := h.layout.freeHead_lt
  have hid : w.ring.freeHead % 2 ^ 16 = w.ring.freeHead := Nat.mod_eq_of_lt (by omega)
  have hdirect : w.ring.numFree < (r.sg :: r.rest).length →
      addPackedDirect (r.sg :: r.rest) r.out r.io w.ring.freeHead w.ring = none :=
    fun hfull => if_pos hfull
  unfold virtqueueAddBufPacked
  simp only [hid, if_neg (Nat.not_le.mpr hfirst)]
  cases hind : r.indirect with
  | none =>
      rw [hind] at hfull
      exact congrArg some (hdirect hfull)
  | some page =>
      rw [hind] at hfull
      have hempty : w.ring.numFree < 1 := hfull
      have hnot : ¬ 0 < w.ring.numFree := by omega
      dsimp only
      rw [if_neg hnot, hdirect (by rw [List.length_cons]; omega)]

private theorem takePacked_iterate (h : w.Consistent free untaken held returned start) (n : ℕ) :
    ∃ untaken' held', held' ++ untaken' = held ++ untaken ∧
      (takePacked^[n] w).Consistent free untaken' held' returned start ∧
      (takePacked^[n] w).ring = w.ring ∧
      (untaken' ≠ [] → held.length + n ≤ held'.length) := by
  obtain ⟨untaken', held', hkept, ⟨hnext, hring⟩, hreach⟩ := take_iterate
    (C := fun untaken held s => PackedQueue.Consistent s free untaken held returned start ∧
      s.ring = w.ring) (f := takePacked) (fun untaken held s hs => by
        obtain ⟨hs, hring⟩ := hs
        obtain ⟨untaken', held', hkept, hnext, hgrown⟩ := takePacked_consistent hs
        refine ⟨untaken', held', hkept, ⟨hnext, ?_⟩, hgrown⟩
        unfold takePacked
        split_ifs <;> exact hring) n ⟨h, rfl⟩
  exact ⟨untaken', held', hkept, hnext, hring, hreach⟩

end

theorem packed_simulates :
    Simulates (PackedMirrors (β := β)) packedStep fun q i => q.act i.op := by
  rintro w q i ⟨free, untaken, held, returned, start, h, hmirrors⟩
  have hsize := h.layout.size_eq
  cases i with
  | add r =>
      simp only [packedStep, QueueInput.op]
      rcases Nat.lt_or_ge w.ring.numFree (addCost r.rest r.indirect) with hfull | hroom
      · rw [addBufPacked_refused h r hfull, hmirrors.add_noSpace r.io (by omega)]
        exact ⟨w, rfl, free, untaken, held, returned, start, h, hmirrors⟩
      · obtain ⟨c, free', ring, hadd, hdata, hcost, hnext, hnum⟩ := addBufPacked_granted h r hroom
        obtain ⟨q', hact, hmirrors'⟩ := hmirrors.add hcost (by omega)
        rw [hadd, ← hdata, hact]
        refine ⟨_, rfl, free', untaken ++ [c], held, returned, start, hnext, ?_⟩
        dsimp only
        rw [hnum]
        exact hmirrors'
  | take =>
      obtain ⟨untaken', held', hkept, hnext, hring, -⟩ := takePacked_iterate h 1
      rw [Function.iterate_one] at hring
      refine ⟨takePacked w, rfl, free, untaken', held', returned, start, hnext, ?_⟩
      rw [hring]
      exact hmirrors.of_taken hkept
  | complete k len =>
      have hheld : w.held.length = held.length := by
        rw [h.held_eq, List.length_map]
      obtain ⟨untaken', held', hkept, hnext, hring, hreach⟩ :=
        takePacked_iterate h (k + 1 - w.held.length)
      have hmirrors' := hmirrors.of_taken hkept
      simp only [packedStep, QueueInput.op, act]
      refine ⟨_, rfl, ?_⟩
      generalize takePacked^[k + 1 - w.held.length] w = s at *
      rw [← hring] at hmirrors'
      cases hk : held'[k]? with
      | none =>
          have hshort := List.getElem?_eq_none_iff.mp hk
          obtain rfl : untaken' = [] := by
            by_contra hleft
            have hlong := hreach hleft
            omega
          rw [giveBackPacked_none hnext hk, hmirrors'.complete_none hk]
          exact ⟨free, [], held', returned, start, hnext, hmirrors'⟩
      | some c =>
          have hnum : (giveBackPacked k len s).ring.num = s.ring.num := by
            unfold giveBackPacked
            split <;> rfl
          refine ⟨free, untaken', held'.eraseIdx k, returned ++ [(c, len)], start,
            giveBackPacked_consistent hnext hk len, ?_⟩
          rw [hnum]
          exact hmirrors'.complete hk len
  | get =>
      simp only [packedStep, QueueInput.op]
      cases returned with
      | nil =>
          rw [getBufPacked_none h, hmirrors.get_none]
          exact ⟨w, rfl, free, untaken, held, [], start, h, hmirrors⟩
      | cons e returned =>
          obtain ⟨c, len⟩ := e
          obtain ⟨ring, hget, hnext, hnum⟩ := getBufPacked_some h
          obtain ⟨q', hact, hmirrors'⟩ := hmirrors.get_some
          rw [hget, hact]
          refine ⟨_, rfl, c.descs ++ free, untaken, held, returned, start + c.descs.length, hnext,
            ?_⟩
          dsimp only
          rw [hnum]
          exact hmirrors'

/-! ## Both rings -/

/-- The rings give the same answers as the bounded queue of their size. Every accepted buffer is in
the queue or was got back, none twice, and what was got back is the beginning of what the device
completed. -/
theorem rings_boundedQueue (size : QueueSize) (eventSuppression : Bool)
    (inputs : List (QueueInput β)) :
    let ops := inputs.map QueueInput.op
    let q : BoundedQueue β (BitVec 32) := BoundedQueue.new size.num
    let reference := respond act q ops
    answers splitStep (LiveQueue.ofSize β size eventSuppression) inputs = some reference.2 ∧
      answers packedStep (PackedQueue.new β size.num) inputs = some reference.2 ∧
      q.completions ops = fetched reference.2 ++ reference.1.pending ∧
      (accepted ops reference.2).Perm
        ((fetched reference.2).map Prod.fst ++ reference.1.items) := by
  intro ops q reference
  have htranslate : respond (fun q i => act q (QueueInput.op i)) q inputs = reference :=
    respond_map act QueueInput.op q inputs
  refine ⟨?_, ?_, ?_, ?_⟩
  · rw [← htranslate]
    exact split_simulates.answers_eq (splitMirrors_new β size eventSuppression) inputs
  · rw [← htranslate]
    exact packed_simulates.answers_eq
      ⟨List.range size.num, [], [], [], 0, PackedQueue.new_consistent size.pos size.le,
        mirrors_new β size.num⟩ inputs
  · exact respond_completions q ops
  · have hitems := respond_items q ops
    rwa [items_new, List.append_nil] at hitems

end Viosnd.VirtIO
