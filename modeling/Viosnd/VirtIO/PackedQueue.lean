import Viosnd.VirtIO.PackedLayout

/-!
# A packed ring between driver and device

The device has positions and wrap counters of its own. It takes the next chain when the flags of
the first descriptor say that it is available, follows the chain to its end, and returns chains in
any order: one used descriptor for each, at its own place, and past the others of the chain.
-/

namespace Viosnd.VirtIO

open Paths Laps

variable {β : Type}

/-- A chain as the device read it: its buffer id and how many descriptors it has. -/
structure HeldChain where
  id : U16
  count : ℕ
  deriving DecidableEq

structure PackedQueue (β : Type) where
  ring : PackedRing β
  /-- Where the device looks for the next chain, and with which wrap counter. -/
  takeIdx : ℕ
  takeWrap : Bool
  /-- Where the device writes the next used descriptor. -/
  usedIdx : ℕ
  usedWrap : Bool
  held : List HeldChain

def PackedQueue.new (β : Type) (num : ℕ) : PackedQueue β where
  ring := vringNewVirtqueuePacked β num
  takeIdx := 0
  takeWrap := true
  usedIdx := 0
  usedWrap := true
  held := []

/-- The descriptor at an index is available to a device with the given wrap counter. -/
def isAvailDescPacked (q : PackedRing β) (idx : ℕ) (wrap : Bool) : Bool :=
  let flags := (q.desc idx).flags
  flags.avail == wrap && flags.used != wrap

/-- The device follows the flags to the end of the chain, or for as long as the ring is; the last
descriptor has the buffer id. -/
def walkPacked (q : PackedRing β) : (fuel : ℕ) → (idx : ℕ) → HeldChain
  | 0, idx => ⟨(q.desc idx).id, 1⟩
  | fuel + 1, idx =>
      if (q.desc idx).flags.next then
        let rest := walkPacked q fuel (if q.num ≤ idx + 1 then 0 else idx + 1)
        ⟨rest.id, rest.count + 1⟩
      else ⟨(q.desc idx).id, 1⟩

/-- The device takes the next chain if there is one. -/
def takePacked (w : PackedQueue β) : PackedQueue β :=
  if isAvailDescPacked w.ring w.takeIdx w.takeWrap then
    let chain := walkPacked w.ring w.ring.num w.takeIdx
    let next := advance w.ring.num w.takeIdx w.takeWrap chain.count
    { w with
      held := w.held ++ [chain]
      takeIdx := next.1
      takeWrap := next.2 }
  else w

/-- The device returns the `k`-th chain it holds. -/
def giveBackPacked (k : ℕ) (len : BitVec 32) (w : PackedQueue β) : PackedQueue β :=
  match w.held[k]? with
  | none => w
  | some chain =>
      let next := advance w.ring.num w.usedIdx w.usedWrap chain.count
      { w with
        held := w.held.eraseIdx k
        usedIdx := next.1
        usedWrap := next.2
        ring := { w.ring with
          desc := Function.update w.ring.desc w.usedIdx
            ⟨(w.ring.desc w.usedIdx).addr, len, chain.id,
              ⟨false, false, false, w.usedWrap, w.usedWrap⟩⟩ } }

/-! ## What the ring holds -/

def PackedRing.at (q : PackedRing β) (p : ℕ) : PackedDesc := q.desc (slot q.num p)

def PackedRing.ChainAt (q : PackedRing β) (p : ℕ) (c : Chain β) : Prop :=
  ∀ j < c.descs.length, (q.at (p + j)).flags.next = decide (j ≠ c.descs.length - 1) ∧
    (q.at (p + j)).id = BitVec.ofNat 16 c.head

/-- Chains made available one behind the other. -/
def PackedRing.ChainsFrom (q : PackedRing β) : ℕ → List (Chain β) → Prop
  | _, [] => True
  | p, c :: chains => q.ChainAt p c ∧ PackedRing.ChainsFrom q (p + c.descs.length) chains

structure PackedRing.UsedAt (q : PackedRing β) (p : ℕ) (c : Chain β) (len : BitVec 32) : Prop where
  used : (q.at p).flags.used = phase q.num p
  id : (q.at p).id = BitVec.ofNat 16 c.head
  len : (q.at p).len = len

/-- Chains returned one behind the other, with their lengths. -/
def PackedRing.UsedFrom (q : PackedRing β) : ℕ → List (Chain β × BitVec 32) → Prop
  | _, [] => True
  | p, (c, len) :: returned =>
      q.UsedAt p c len ∧ PackedRing.UsedFrom q (p + c.descs.length) returned

/-- Every chain in flight is untaken, held by the device or returned with a length. From `start` on
the ring holds the used descriptors of what was returned, then as many descriptors as the device
holds, then the untaken chains; what follows is from the lap before. -/
structure PackedQueue.Consistent (w : PackedQueue β) (free : List ℕ)
    (untaken held : List (Chain β)) (returned : List (Chain β × BitVec 32)) (start : ℕ) :
    Prop where
  layout : IdLayout w.ring free (untaken ++ (held ++ returned.map Prod.fst))
  size : w.ring.num ≤ 2 ^ 15
  lastUsed : At w.ring.num start w.ring.lastUsedIdx w.ring.usedWrapCounter
  used : At w.ring.num (start + chainSize (returned.map Prod.fst)) w.usedIdx w.usedWrap
  taken : At w.ring.num (start + chainSize (returned.map Prod.fst) + chainSize held) w.takeIdx
    w.takeWrap
  nextAvail : At w.ring.num
    (start + chainSize (untaken ++ (held ++ returned.map Prod.fst))) w.ring.nextAvailIdx
    w.ring.availUsedFlags.avail
  flipped : w.ring.availUsedFlags.used = !w.ring.availUsedFlags.avail
  avail : ∀ p, start ≤ p → p < start + chainSize (untaken ++ (held ++ returned.map Prod.fst)) →
    (w.ring.at p).flags.avail = phase w.ring.num p
  stale : ∀ p, start + chainSize (untaken ++ (held ++ returned.map Prod.fst)) ≤ p →
    p < start + w.ring.num → (w.ring.at p).flags.avail = !phase w.ring.num p
  unused : ∀ p, start + chainSize (returned.map Prod.fst) ≤ p →
    p < start + chainSize (untaken ++ (held ++ returned.map Prod.fst)) →
    (w.ring.at p).flags.used = !phase w.ring.num p
  held_eq : w.held = held.map fun c => ⟨BitVec.ofNat 16 c.head, c.descs.length⟩
  returned_at : w.ring.UsedFrom start returned
  untaken_at : w.ring.ChainsFrom (start + chainSize (returned.map Prod.fst) + chainSize held)
    untaken

theorem PackedQueue.new_consistent {num : ℕ} (hnum : 0 < num) (hsize : num ≤ 2 ^ 15) :
    (PackedQueue.new β num).Consistent (List.range num) [] [] [] 0 where
  layout := IdLayout.new β hnum
  size := hsize
  lastUsed := at_zero num
  used := at_zero num
  taken := at_zero num
  nextAvail := at_zero num
  flipped := rfl
  avail p _ hp := absurd hp (Nat.not_lt_zero p)
  stale p _ hp := by
    have hp : p < num := by simpa [PackedQueue.new, vringNewVirtqueuePacked] using hp
    have hphase : phase num p = true := by
      unfold phase
      rw [Nat.div_eq_of_lt hp]
      rfl
    show false = !phase num p
    rw [hphase]
    rfl
  unused p _ hp := absurd hp (Nat.not_lt_zero p)
  held_eq := rfl
  returned_at := trivial
  untaken_at := trivial

/-! ## What a write leaves alone -/

section

variable {q q' : PackedRing β} {p : ℕ} {c : Chain β} {chains : List (Chain β)}
  {returned : List (Chain β × BitVec 32)} {len : BitVec 32}

theorem PackedRing.ChainAt.congr (h : q.ChainAt p c)
    (hat : ∀ r, p ≤ r → r < p + c.descs.length → q'.at r = q.at r) : q'.ChainAt p c := by
  intro j hj
  rw [hat (p + j) (by omega) (by omega)]
  exact h j hj

theorem PackedRing.ChainsFrom.congr (h : q.ChainsFrom p chains)
    (hat : ∀ r, p ≤ r → r < p + chainSize chains → q'.at r = q.at r) :
    q'.ChainsFrom p chains := by
  induction chains generalizing p with
  | nil => trivial
  | cons c chains ih =>
      rw [chainSize_cons] at hat
      exact ⟨h.1.congr fun r hr hr' => hat r hr (by omega),
        ih h.2 fun r hr hr' => hat r (by omega) (by omega)⟩

theorem PackedRing.ChainsFrom.concat (h : q.ChainsFrom p chains)
    (hc : q.ChainAt (p + chainSize chains) c) : q.ChainsFrom p (chains ++ [c]) := by
  induction chains generalizing p with
  | nil => exact ⟨hc, trivial⟩
  | cons d chains ih =>
      rw [chainSize_cons, ← Nat.add_assoc] at hc
      exact ⟨h.1, ih h.2 hc⟩

theorem PackedRing.UsedFrom.congr (h : q.UsedFrom p returned) (hnum : q'.num = q.num)
    (hat : ∀ r, p ≤ r → r < p + chainSize (returned.map Prod.fst) → q'.at r = q.at r) :
    q'.UsedFrom p returned := by
  induction returned generalizing p with
  | nil => trivial
  | cons e returned ih =>
      rw [List.map_cons, chainSize_cons] at hat
      have hpos : 0 < e.1.descs.length := by simp
      obtain ⟨⟨hused, hid, hlen⟩, hrest⟩ := h
      refine ⟨⟨?_, ?_, ?_⟩, ih hrest fun r hr hr' => hat r (by omega) (by omega)⟩
      · rw [hat p (Nat.le_refl p) (by omega), hnum]
        exact hused
      · rw [hat p (Nat.le_refl p) (by omega)]
        exact hid
      · rw [hat p (Nat.le_refl p) (by omega)]
        exact hlen

theorem PackedRing.UsedFrom.concat (h : q.UsedFrom p returned)
    (hc : q.UsedAt (p + chainSize (returned.map Prod.fst)) c len) :
    q.UsedFrom p (returned ++ [(c, len)]) := by
  induction returned generalizing p with
  | nil => exact ⟨hc, trivial⟩
  | cons e returned ih =>
      rw [List.map_cons, chainSize_cons, ← Nat.add_assoc] at hc
      exact ⟨h.1, ih h.2 hc⟩

end

/-! ## The loop over the parts of a chain -/

/-- The descriptors from position `p` on are those of the parts from the `n`-th on. Only the flags
of the first part are still to be written. -/
structure PartsAt (q : PackedRing β) (p m count id n : ℕ) : Prop where
  id : ∀ j < m, (q.at (p + j)).id = BitVec.ofNat 16 id
  next : ∀ j < m, n + j ≠ 0 → (q.at (p + j)).flags.next = decide (n + j ≠ count - 1)
  avail : ∀ j < m, n + j ≠ 0 → (q.at (p + j)).flags.avail = phase q.num (p + j)
  used : ∀ j < m, n + j ≠ 0 → (q.at (p + j)).flags.used = !phase q.num (p + j)

private theorem fillPackedDesc_spec (out count id n : ℕ) (sg : Scatter) (place : FillPlace)
    (q : PackedRing β) {p : ℕ} (hnum : 0 < q.num)
    (hplace : At q.num p place.i q.availUsedFlags.avail)
    (hflip : q.availUsedFlags.used = !q.availUsedFlags.avail) :
    let r := fillPackedDesc out count id n sg place q
    At q.num (p + 1) r.1.i r.2.availUsedFlags.avail ∧
      r.2.availUsedFlags.used = (!r.2.availUsedFlags.avail) ∧
      r.1.curr = q.nextId place.curr ∧ r.1.prev = place.curr ∧
      r.2 = { q with
        desc := r.2.desc, availUsedFlags := r.2.availUsedFlags } ∧
      r.2.desc = Function.update q.desc (slot q.num p) ⟨sg.physAddr, sg.length,
        BitVec.ofNat 16 id,
        if n = 0 then (q.desc place.i).flags else q.partFlags out count n⟩ := by
  have hnext := hplace.succ hnum
  rw [← hplace.index_eq]
  by_cases hwrap : q.num ≤ place.i + 1
  · simp only [if_pos hwrap] at hnext
    dsimp only [fillPackedDesc]
    rw [if_pos hwrap]
    refine ⟨hnext, ?_, rfl, rfl, rfl, rfl⟩
    simp only [WrapFlags.flip, hflip]
  · simp only [if_neg hwrap] at hnext
    dsimp only [fillPackedDesc]
    rw [if_neg hwrap]
    exact ⟨hnext, hflip, rfl, rfl, rfl, rfl⟩

private theorem fillPackedDescs_spec (out count id n : ℕ) (sgs : List Scatter) (place : FillPlace)
    (q : PackedRing β) {p : ℕ} (hnum : 0 < q.num) (hfit : sgs.length ≤ q.num)
    (hplace : At q.num p place.i q.availUsedFlags.avail)
    (hflip : q.availUsedFlags.used = !q.availUsedFlags.avail) :
    let r := fillPackedDescs out count id n sgs place q
    At q.num (p + sgs.length) r.1.i r.2.availUsedFlags.avail ∧
      r.2.availUsedFlags.used = (!r.2.availUsedFlags.avail) ∧
      (∃ ids, ids.length = sgs.length ∧ Leads q.nextId place.curr ids r.1.curr ∧
        r.1.prev = ids.getLast?.getD place.prev) ∧
      r.2 = { q with
        desc := r.2.desc, availUsedFlags := r.2.availUsedFlags } ∧
      PartsAt r.2 p sgs.length count id n ∧
      ∀ s, (∀ j < sgs.length, s ≠ slot q.num (p + j)) → r.2.desc s = q.desc s := by
  induction sgs generalizing n place q p with
  | nil =>
      refine ⟨hplace, hflip, ⟨[], rfl, rfl, rfl⟩, rfl, ⟨?_, ?_, ?_, ?_⟩, fun s _ => rfl⟩
      all_goals
        intro j hj
        exact absurd hj (Nat.not_lt_zero j)
  | cons sg sgs ih =>
      obtain ⟨hplace', hflip', hcurr, hprev, hframe, hdesc⟩ :=
        fillPackedDesc_spec out count id n sg place q hnum hplace hflip
      simp only [fillPackedDescs]
      generalize fillPackedDesc out count id n sg place q = first at *
      obtain ⟨place', q'⟩ := first
      dsimp only at hplace' hflip' hcurr hprev hframe hdesc ⊢
      have hnum' : q'.num = q.num := by rw [hframe]
      have hnext' : q'.nextId = q.nextId := by rw [hframe]; rfl
      rw [List.length_cons] at hfit
      obtain ⟨hend, hflipEnd, ⟨ids, hids, hleads, hlast⟩, hframeEnd, hparts, hother⟩ :=
        ih (n + 1) place' q' (p := p + 1) (by omega) (by omega) (by rwa [hnum']) hflip'
      generalize fillPackedDescs out count id (n + 1) sgs place' q' = r at *
      have hrnum : r.2.num = q.num := by rw [hframeEnd]; exact hnum'
      rw [hnum', Nat.add_assoc, Nat.add_comm 1] at hend
      refine ⟨hend, hflipEnd, ⟨place.curr :: ids, by simp [hids], ⟨rfl, ?_⟩, ?_⟩, ?_, ?_, ?_⟩
      · rw [← hcurr, ← hnext']
        exact hleads
      · rw [hlast, List.getLast?_cons, hprev]
        rfl
      · rw [hframeEnd, hframe]
      · -- the first part is not written again
        have hat : r.2.at p = q'.at p := by
          unfold PackedRing.at
          rw [hrnum, hnum']
          apply hother
          intro j hj
          rw [hnum', Nat.add_assoc]
          exact (slot_ne (by omega) (by omega)).symm
        have hatFirst : q'.at p = ⟨sg.physAddr, sg.length, BitVec.ofNat 16 id,
            if n = 0 then (q.desc place.i).flags else q.partFlags out count n⟩ := by
          unfold PackedRing.at
          rw [hdesc, hnum', Function.update_self]
        rw [hatFirst] at hat
        have hshift : ∀ j, p + 1 + j = p + (j + 1) := fun j => by omega
        have hcount : ∀ j, n + 1 + j = n + (j + 1) := fun j => by omega
        refine ⟨fun j hj => ?_, fun j hj hne => ?_, fun j hj hne => ?_, fun j hj hne => ?_⟩
        · cases j with
          | zero => rw [Nat.add_zero, hat]
          | succ j =>
              rw [← hshift]
              exact hparts.id j (by simpa using hj)
        · cases j with
          | zero =>
              rw [Nat.add_zero, hat]
              exact congrArg PackedFlags.next (if_neg hne)
          | succ j =>
              rw [← hshift, ← hcount]
              exact hparts.next j (by simpa using hj) (by omega)
        · cases j with
          | zero =>
              rw [Nat.add_zero, hat, hrnum, ← hplace.wrap_eq]
              exact congrArg PackedFlags.avail (if_neg hne)
          | succ j =>
              rw [← hshift]
              exact hparts.avail j (by simpa using hj) (by omega)
        · cases j with
          | zero =>
              rw [Nat.add_zero, hat, hrnum, ← hplace.wrap_eq, ← hflip]
              exact congrArg PackedFlags.used (if_neg hne)
          | succ j =>
              rw [← hshift]
              exact hparts.used j (by simpa using hj) (by omega)
      · intro s hs
        have hrest : ∀ j < sgs.length, s ≠ slot q'.num (p + 1 + j) := by
          intro j hj
          rw [hnum', Nat.add_assoc, Nat.add_comm 1]
          exact hs (j + 1) (by simpa using hj)
        have hfirst : s ≠ slot q.num p := hs 0 (by simp)
        rw [hother s hrest, hdesc, Function.update_of_ne hfirst]

/-! ## Adding a chain -/

/-- A chain is made available at position `e`, where the driver stands. -/
structure Appends (q q' : PackedRing β) (e : ℕ) (c : Chain β) : Prop where
  num : q'.num = q.num
  lastUsedIdx : q'.lastUsedIdx = q.lastUsedIdx
  usedWrapCounter : q'.usedWrapCounter = q.usedWrapCounter
  next : At q.num (e + c.descs.length) q'.nextAvailIdx q'.availUsedFlags.avail
  flipped : q'.availUsedFlags.used = !q'.availUsedFlags.avail
  chain : q'.ChainAt e c
  avail : ∀ j < c.descs.length, (q'.at (e + j)).flags.avail = phase q.num (e + j)
  used : ∀ j < c.descs.length, (q'.at (e + j)).flags.used = !phase q.num (e + j)
  other : ∀ s, (∀ j < c.descs.length, s ≠ slot q.num (e + j)) → q'.desc s = q.desc s

section

variable {q q' : PackedRing β} {free : List ℕ} {chains : List (Chain β)} {e : ℕ}

theorem IdLayout.split (h : IdLayout q free chains) {ids : List ℕ} {curr : ℕ}
    (hwalk : Leads q.nextId q.freeHead ids curr) (hroom : ids.length ≤ q.numFree) :
    ∃ rest, free = ids ++ rest := by
  obtain ⟨e, -, hlinked⟩ := h.linked
  rw [h.unused] at hroom
  obtain ⟨rest, hrest, -⟩ := hlinked.split hwalk hroom
  exact ⟨rest, hrest⟩

theorem addPackedDirect_appends (h : IdLayout q free chains) (hsize : q.num ≤ 2 ^ 15)
    (hplace : At q.num e q.nextAvailIdx q.availUsedFlags.avail)
    (hflip : q.availUsedFlags.used = !q.availUsedFlags.avail) (sg : Scatter) (rest : List Scatter)
    (out : ℕ) (io : β) (hroom : rest.length + 1 ≤ q.numFree) :
    ∃ c free' q', addPackedDirect (sg :: rest) out io q.freeHead q = some q' ∧ c.data = io ∧
      c.descs.length = rest.length + 1 ∧ IdLayout q' free' (c :: chains) ∧ Appends q q' e c := by
  have htotal := h.size_eq
  have hnum : 0 < q.num := by omega
  have hfit : rest.length + 1 ≤ q.num := by omega
  have hnot : ¬ q.numFree < (sg :: rest).length := by
    rw [List.length_cons]
    omega
  obtain ⟨hend, hflipEnd, ⟨ids, hids, hleads, hlast⟩, hframe, hparts, hother⟩ :=
    fillPackedDescs_spec out (sg :: rest).length q.freeHead 0 (sg :: rest)
      ⟨q.nextAvailIdx, q.freeHead, 0⟩ q hnum hfit hplace hflip
  unfold addPackedDirect
  dsimp only
  rw [if_neg hnot]
  generalize fillPackedDescs out (sg :: rest).length q.freeHead 0 (sg :: rest)
    ⟨q.nextAvailIdx, q.freeHead, 0⟩ q = filled at *
  obtain ⟨place, r⟩ := filled
  dsimp only at hend hflipEnd hleads hlast hframe hparts hother ⊢
  have hrnum : r.num = q.num := by rw [hframe]
  have hrstate : r.descState = q.descState := by rw [hframe]
  have hrfree : r.numFree = q.numFree := by rw [hframe]
  have hrlast : r.lastUsedIdx = q.lastUsedIdx := by rw [hframe]
  have hrwrap : r.usedWrapCounter = q.usedWrapCounter := by rw [hframe]
  obtain ⟨body, last, rfl⟩ : ∃ body last, ids = body ++ [last] := by
    cases ids using List.reverseRecOn with
    | nil => simp at hids
    | append_singleton body last => exact ⟨body, last, rfl⟩
  rw [List.getLast?_append_of_ne_nil _ (by simp), List.getLast?_singleton,
    Option.getD_some] at hlast
  set c : Chain β := ⟨body, last, io⟩
  have hdescs : c.descs = body ++ [last] := rfl
  have hlength : c.descs.length = (sg :: rest).length := hids
  have hhead : c.head = q.freeHead := c.head_eq hleads
  obtain ⟨free', rfl⟩ := h.split hleads (by rw [hids, List.length_cons]; exact hroom)
  refine ⟨c, free', _, rfl, rfl, hlength, ?_, ?_⟩
  · refine h.take (c := c) hleads hrnum hhead ?_ rfl ?_
    · show Function.update r.descState q.freeHead _ = _
      rw [hrstate, hlength, hlast, Nat.mod_eq_of_lt (by rw [List.length_cons]; omega)]
    · show r.numFree - _ = _
      rw [hrfree, hlength]
  · -- the flags of the first descriptor were written last
    set q' : PackedRing β := { r with
      availWrapCounter := if place.i < q.nextAvailIdx then !r.availWrapCounter
        else r.availWrapCounter
      numFree := r.numFree - (sg :: rest).length
      nextAvailIdx := place.i
      freeHead := place.curr
      descState := Function.update r.descState q.freeHead { r.descState q.freeHead with
        num := (sg :: rest).length % 2 ^ 16, data := some io, last := place.prev }
      desc := Function.update r.desc q.nextAvailIdx { r.desc q.nextAvailIdx with
        flags := q.partFlags out (sg :: rest).length 0 }
      numAdded := r.numAdded + BitVec.ofNat 32 (sg :: rest).length }
    have hfirst : q'.at e = { r.at e with
        flags := q.partFlags out (sg :: rest).length 0 } := by
      show Function.update r.desc q.nextAvailIdx _ (slot r.num e) = _
      rw [hrnum, ← hplace.index_eq, Function.update_self]
      unfold PackedRing.at
      rw [hrnum, ← hplace.index_eq]
    have hrest : ∀ j < c.descs.length, j ≠ 0 → q'.at (e + j) = r.at (e + j) := by
      intro j hj hne
      show Function.update r.desc q.nextAvailIdx _ (slot r.num (e + j)) = _
      rw [hrnum, hplace.index_eq, Function.update_of_ne]
      · unfold PackedRing.at
        rw [hrnum]
      · rw [hlength, List.length_cons] at hj
        exact slot_ne (by omega) (by omega)
    rw [← hlength] at hparts
    refine ⟨hrnum, hrlast, hrwrap, hlength ▸ hend, hflipEnd, fun j hj => ?_,
      fun j hj => ?_, fun j hj => ?_, fun s hs => ?_⟩
    · rcases Nat.eq_zero_or_pos j with rfl | hpos
      · rw [Nat.add_zero, hfirst, hhead]
        refine ⟨?_, hparts.id 0 hj⟩
        rw [hlength]
        rfl
      · rw [hrest j hj (by omega), hhead]
        have hnext := hparts.next j hj (by omega)
        rw [Nat.zero_add] at hnext
        exact ⟨hnext, hparts.id j hj⟩
    · rcases Nat.eq_zero_or_pos j with rfl | hpos
      · rw [Nat.add_zero, hfirst, ← hplace.wrap_eq]
        rfl
      · rw [hrest j hj (by omega), hparts.avail j hj (by omega), hrnum]
    · rcases Nat.eq_zero_or_pos j with rfl | hpos
      · rw [Nat.add_zero, hfirst, ← hplace.wrap_eq, ← hflip]
        rfl
      · rw [hrest j hj (by omega), hparts.used j hj (by omega), hrnum]
    · have hne : s ≠ q.nextAvailIdx := by
        have hzero := hs 0 (by rw [hlength, List.length_cons]; omega)
        rwa [Nat.add_zero, ← hplace.index_eq] at hzero
      show Function.update r.desc q.nextAvailIdx _ s = _
      rw [Function.update_of_ne hne]
      exact hother s fun j hj => hs j (by rwa [hlength])

theorem addPackedIndirect_appends (h : IdLayout q free chains) (hsize : q.num ≤ 2 ^ 15)
    (hplace : At q.num e q.nextAvailIdx q.availUsedFlags.avail)
    (hflip : q.availUsedFlags.used = !q.availUsedFlags.avail) (sgs : List Scatter)
    (out : ℕ) (io : β) (page : IndirectPage) (hroom : 0 < q.numFree) :
    ∃ c free', c.data = io ∧ c.descs.length = 1 ∧
      IdLayout (addPackedIndirect sgs out io page q.freeHead q) free' (c :: chains) ∧
      Appends q (addPackedIndirect sgs out io page q.freeHead q) e c := by
  have htotal := h.size_eq
  have hnum : 0 < q.num := by omega
  set c : Chain β := ⟨[], q.freeHead, io⟩
  have hleads : Leads q.nextId q.freeHead c.descs (q.nextId q.freeHead) := ⟨rfl, rfl⟩
  obtain ⟨free', rfl⟩ := h.split hleads hroom
  have hnext := hplace.succ hnum
  have hat : (addPackedIndirect sgs out io page q.freeHead q).at e =
      ⟨page.phys, BitVec.ofNat 32 (16 * sgs.length), BitVec.ofNat 16 q.freeHead,
        ⟨false, false, true, q.availUsedFlags.avail, q.availUsedFlags.used⟩⟩ := by
    show Function.update q.desc q.nextAvailIdx _ (slot q.num e) = _
    rw [hplace.index_eq, Function.update_self]
  have honly : ∀ j < c.descs.length, j = 0 := fun j hj => Nat.lt_one_iff.mp hj
  refine ⟨c, free', rfl, rfl, h.take (c := c) hleads rfl rfl rfl rfl rfl, rfl, rfl, rfl, ?_, ?_,
    fun j hj => ?_, fun j hj => ?_, fun j hj => ?_, fun s hs => ?_⟩
  · simp only [addPackedIndirect, decide_eq_true_eq]
    split_ifs at hnext ⊢ <;> exact hnext
  · simp only [addPackedIndirect, decide_eq_true_eq]
    split_ifs
    · simp only [WrapFlags.flip, hflip]
    · exact hflip
  · obtain rfl := honly j hj
    rw [Nat.add_zero, hat]
    exact ⟨rfl, rfl⟩
  · obtain rfl := honly j hj
    rw [Nat.add_zero, hat, ← hplace.wrap_eq]
  · obtain rfl := honly j hj
    rw [Nat.add_zero, hat, ← hplace.wrap_eq, ← hflip]
  · have hne : s ≠ q.nextAvailIdx := by
      have hzero := hs 0 Nat.zero_lt_one
      rwa [Nat.add_zero, ← hplace.index_eq] at hzero
    exact Function.update_of_ne hne _ _

end

/-! ## The steps -/

section

variable {w : PackedQueue β} {free free' : List ℕ} {untaken held : List (Chain β)}
  {returned : List (Chain β × BitVec 32)} {start : ℕ} {q' : PackedRing β} {c : Chain β}

private theorem PackedQueue.Consistent.num_pos (h : w.Consistent free untaken held returned start) :
    0 < w.ring.num :=
  Nat.lt_of_le_of_lt (Nat.zero_le _) h.layout.freeHead_lt

private theorem PackedQueue.Consistent.load_le (h : w.Consistent free untaken held returned start) :
    chainSize (untaken ++ (held ++ returned.map Prod.fst)) ≤ w.ring.num := by
  have htotal := h.layout.size_eq
  omega

private theorem Appends.at_eq {q : PackedRing β} {e p : ℕ} (h : Appends q q' e c)
    (hp : p < e ∨ e + c.descs.length ≤ p) (hnear : p < e + q.num)
    (hnear' : e + c.descs.length ≤ p + q.num) : q'.at p = q.at p := by
  unfold PackedRing.at
  rw [h.num]
  apply h.other
  intro j hj
  rcases hp with hlt | hge
  · exact (slot_ne (by omega) (by omega)).symm
  · exact slot_ne (by omega) (by omega)

theorem PackedQueue.Consistent.append (h : w.Consistent free untaken held returned start)
    (hlayout : IdLayout q' free' (c :: (untaken ++ (held ++ returned.map Prod.fst))))
    (happ : Appends w.ring q'
      (start + chainSize (untaken ++ (held ++ returned.map Prod.fst))) c) :
    PackedQueue.Consistent { w with
      ring := q' } free' (untaken ++ [c]) held returned start := by
  have hperm : (c :: (untaken ++ (held ++ returned.map Prod.fst))).Perm
      ((untaken ++ [c]) ++ (held ++ returned.map Prod.fst)) := by
    rw [List.append_assoc]
    exact List.perm_middle.symm
  have hload : chainSize ((untaken ++ [c]) ++ (held ++ returned.map Prod.fst)) =
      chainSize (untaken ++ (held ++ returned.map Prod.fst)) + c.descs.length := by
    rw [← chainSize_perm hperm, chainSize_cons, Nat.add_comm]
  have htotal := hlayout.size_eq
  have hnum := happ.num
  rw [chainSize_cons, hnum] at htotal
  have hold : ∀ p, start ≤ p →
      p < start + chainSize (untaken ++ (held ++ returned.map Prod.fst)) →
      q'.at p = w.ring.at p := fun p hp hp' => happ.at_eq (Or.inl hp') (by omega) (by omega)
  have hparts := chainSize_append untaken (held ++ returned.map Prod.fst)
  have hparts' := chainSize_append held (returned.map Prod.fst)
  refine ⟨hlayout.of_perm hperm, hnum ▸ h.size, ?_, ?_, ?_, ?_, happ.flipped, fun p hp hp' => ?_,
    fun p hp hp' => ?_, fun p hp hp' => ?_, h.held_eq, ?_, ?_⟩
  · show At q'.num start q'.lastUsedIdx q'.usedWrapCounter
    rw [hnum, happ.lastUsedIdx, happ.usedWrapCounter]
    exact h.lastUsed
  · exact hnum.symm ▸ h.used
  · exact hnum.symm ▸ h.taken
  · show At q'.num _ q'.nextAvailIdx q'.availUsedFlags.avail
    rw [hnum, hload, ← Nat.add_assoc]
    exact happ.next
  · show (q'.at p).flags.avail = phase q'.num p
    rw [hnum]
    rcases Nat.lt_or_ge p
      (start + chainSize (untaken ++ (held ++ returned.map Prod.fst))) with hlt | hge
    · rw [hold p hp hlt]
      exact h.avail p hp hlt
    · obtain ⟨j, rfl⟩ := Nat.exists_eq_add_of_le hge
      exact happ.avail j (by omega)
  · show (q'.at p).flags.avail = !phase q'.num p
    have hp' : p < start + q'.num := hp'
    rw [hnum] at hp' ⊢
    rw [happ.at_eq (Or.inr (by omega)) (by omega) (by omega)]
    exact h.stale p (by omega) hp'
  · show (q'.at p).flags.used = !phase q'.num p
    rw [hnum]
    rcases Nat.lt_or_ge p
      (start + chainSize (untaken ++ (held ++ returned.map Prod.fst))) with hlt | hge
    · rw [hold p (by omega) hlt]
      exact h.unused p hp hlt
    · obtain ⟨j, rfl⟩ := Nat.exists_eq_add_of_le hge
      exact happ.used j (by omega)
  · exact h.returned_at.congr hnum fun r hr hr' => hold r hr (by omega)
  · apply PackedRing.ChainsFrom.concat
    · exact h.untaken_at.congr fun r hr hr' => hold r (by omega) (by omega)
    · have hend : start + chainSize (returned.map Prod.fst) + chainSize held + chainSize untaken =
          start + chainSize (untaken ++ (held ++ returned.map Prod.fst)) := by omega
      show q'.ChainAt _ c
      rw [hend]
      exact happ.chain

private theorem PackedQueue.Consistent.avail_end
    (h : w.Consistent free untaken held returned start) :
    (w.ring.at (start + chainSize (untaken ++ (held ++ returned.map Prod.fst)))).flags.avail =
      !phase w.ring.num (start + chainSize (untaken ++ (held ++ returned.map Prod.fst))) := by
  rcases Nat.lt_or_eq_of_le h.load_le with hlt | hfull
  · exact h.stale _ (Nat.le_refl _) (by omega)
  · have hpos := h.num_pos
    rw [hfull, phase_add_size hpos, Bool.not_not]
    unfold PackedRing.at
    rw [slot_add_size]
    exact h.avail start (Nat.le_refl _) (by omega)

private theorem walkPacked_eq {q : PackedRing β} {p : ℕ} (hnum : 0 < q.num) (hc : q.ChainAt p c)
    {fuel k : ℕ} (hfuel : k ≤ fuel) : ∀ {j : ℕ}, j + k + 1 = c.descs.length →
      walkPacked q fuel (slot q.num (p + j)) = ⟨BitVec.ofNat 16 c.head, k + 1⟩ := by
  induction fuel generalizing k with
  | zero =>
      intro j hj
      obtain rfl : k = 0 := Nat.le_zero.mp hfuel
      obtain ⟨-, hid⟩ := hc j (by omega)
      exact congrArg (HeldChain.mk · 1) hid
  | succ fuel ih =>
      intro j hj
      obtain ⟨hnext, hid⟩ := hc j (by omega)
      unfold PackedRing.at at hnext hid
      rw [walkPacked]
      cases k with
      | zero =>
          have hlast : decide (j ≠ c.descs.length - 1) = false := decide_eq_false (by omega)
          rw [hnext, hlast, if_neg Bool.false_ne_true, hid]
      | succ k =>
          have hmore : decide (j ≠ c.descs.length - 1) = true := decide_eq_true (by omega)
          have hsucc := (At.succ (p := p + j) ⟨rfl, rfl⟩ hnum).index_eq
          rw [hnext, hmore, if_pos rfl, hsucc, Nat.add_assoc,
            ih (Nat.le_of_succ_le_succ hfuel) (j := j + 1) (by omega)]

theorem takePacked_consistent (h : w.Consistent free untaken held returned start) :
    ∃ untaken' held', held' ++ untaken' = held ++ untaken ∧
      (takePacked w).Consistent free untaken' held' returned start ∧
      (untaken' ≠ [] → held.length + 1 ≤ held'.length) := by
  have hpos := h.num_pos
  have hidx := h.taken.index_eq
  have hwrap := h.taken.wrap_eq
  unfold takePacked
  cases untaken with
  | nil =>
      have hend := h.avail_end
      have hload : chainSize ([] ++ (held ++ returned.map Prod.fst)) =
          chainSize (returned.map Prod.fst) + chainSize held := by
        rw [List.nil_append, chainSize_append, Nat.add_comm]
      rw [hload, ← Nat.add_assoc] at hend
      have hnot : isAvailDescPacked w.ring w.takeIdx w.takeWrap = false := by
        unfold PackedRing.at at hend
        simp only [isAvailDescPacked, hidx, hwrap, hend, Bool.not_beq_self, Bool.false_and]
      rw [if_neg (by simp [hnot])]
      exact ⟨[], held, rfl, h, fun hne => absurd rfl hne⟩
  | cons c untaken =>
      have hc : 0 < c.descs.length := by simp
      have hload : chainSize ((c :: untaken) ++ (held ++ returned.map Prod.fst)) =
          chainSize (returned.map Prod.fst) + chainSize held +
            (c.descs.length + chainSize untaken) := by
        simp only [chainSize_append, chainSize_cons]
        omega
      have hle := h.load_le
      have havail := h.avail (start + chainSize (returned.map Prod.fst) + chainSize held)
        (by omega) (by omega)
      have hunused := h.unused (start + chainSize (returned.map Prod.fst) + chainSize held)
        (by omega) (by omega)
      have hyes : isAvailDescPacked w.ring w.takeIdx w.takeWrap = true := by
        unfold PackedRing.at at havail hunused
        simp only [isAvailDescPacked, hidx, hwrap, havail, hunused, beq_self_eq_true,
          Bool.true_and, bne_iff_ne, ne_eq, Bool.not_not_eq]
      have hwalk : walkPacked w.ring w.ring.num w.takeIdx =
          ⟨BitVec.ofNat 16 c.head, c.descs.length⟩ := by
        rw [hidx, ← Nat.add_zero (start + _ + _),
          walkPacked_eq hpos h.untaken_at.1 (k := c.descs.length - 1) (by omega) (by omega)]
        congr 1
        omega
      have hperm : ((c :: untaken) ++ (held ++ returned.map Prod.fst)).Perm
          (untaken ++ ((held ++ [c]) ++ returned.map Prod.fst)) := by
        have hmiddle : (untaken ++ held ++ c :: returned.map Prod.fst).Perm
            (c :: (untaken ++ held ++ returned.map Prod.fst)) := List.perm_middle
        simpa using hmiddle.symm
      have hsize := chainSize_perm hperm
      rw [if_pos hyes, hwalk]
      refine ⟨untaken, held ++ [c], by simp, ?_, fun _ => by simp⟩
      refine ⟨h.layout.of_perm hperm, h.size, h.lastUsed, h.used, ?_, hsize ▸ h.nextAvail,
        h.flipped, hsize ▸ h.avail, hsize ▸ h.stale, hsize ▸ h.unused, ?_, h.returned_at, ?_⟩
      · rw [chainSize_append, chainSize_cons, chainSize_nil, Nat.add_zero, ← Nat.add_assoc]
        exact h.taken.advance hpos (by omega)
      · rw [h.held_eq, List.map_append]
        rfl
      · rw [chainSize_append, chainSize_cons, chainSize_nil, Nat.add_zero, ← Nat.add_assoc]
        exact h.untaken_at.2

theorem giveBackPacked_none (h : w.Consistent free untaken held returned start) {k : ℕ}
    (hk : held[k]? = none) (len : BitVec 32) : giveBackPacked k len w = w := by
  unfold giveBackPacked
  rw [h.held_eq, List.getElem?_map, hk]
  rfl

/-- The used descriptor overwrites a descriptor of a chain the device holds. -/
theorem giveBackPacked_consistent (h : w.Consistent free untaken held returned start) {k : ℕ}
    (hk : held[k]? = some c) (len : BitVec 32) :
    (giveBackPacked k len w).Consistent free untaken (held.eraseIdx k) (returned ++ [(c, len)])
      start := by
  have hpos := h.num_pos
  have hc : 0 < c.descs.length := by simp
  have hsplit : held.Perm (c :: held.eraseIdx k) := by
    obtain ⟨hlt, rfl⟩ := List.getElem?_eq_some_iff.mp hk
    exact (List.getElem_cons_eraseIdx_perm hlt).symm
  have hheld := chainSize_perm hsplit
  rw [chainSize_cons] at hheld
  have hreturned : (returned ++ [(c, len)]).map Prod.fst = returned.map Prod.fst ++ [c] := by simp
  have hperm : (untaken ++ (held ++ returned.map Prod.fst)).Perm
      (untaken ++ (held.eraseIdx k ++ (returned ++ [(c, len)]).map Prod.fst)) := by
    rw [hreturned, ← List.append_assoc (held.eraseIdx k)]
    apply List.Perm.append_left
    exact (hsplit.append_right _).trans (List.perm_append_singleton c _).symm
  have hsize := chainSize_perm hperm
  have hdone : chainSize ((returned ++ [(c, len)]).map Prod.fst) =
      chainSize (returned.map Prod.fst) + c.descs.length := by
    rw [hreturned, chainSize_append, chainSize_cons, chainSize_nil, Nat.add_zero]
  have hparts := chainSize_append untaken (held ++ returned.map Prod.fst)
  have hparts' := chainSize_append held (returned.map Prod.fst)
  have hload := h.load_le
  have hget : w.held[k]? = some ⟨BitVec.ofNat 16 c.head, c.descs.length⟩ := by
    rw [h.held_eq, List.getElem?_map, hk]
    rfl
  unfold giveBackPacked
  rw [hget]
  dsimp only
  set q' : PackedRing β := { w.ring with
    desc := Function.update w.ring.desc w.usedIdx
      ⟨(w.ring.desc w.usedIdx).addr, len, BitVec.ofNat 16 c.head,
        ⟨false, false, false, w.usedWrap, w.usedWrap⟩⟩ } with hq'
  have hat : q'.at (start + chainSize (returned.map Prod.fst)) =
      ⟨(w.ring.desc w.usedIdx).addr, len, BitVec.ofNat 16 c.head,
        ⟨false, false, false, w.usedWrap, w.usedWrap⟩⟩ := by
    unfold PackedRing.at
    rw [hq', h.used.index_eq]
    exact Function.update_self _ _ _
  have hother : ∀ p, p ≠ start + chainSize (returned.map Prod.fst) → start ≤ p →
      p < start + w.ring.num → q'.at p = w.ring.at p := by
    intro p hne hp hp'
    show Function.update w.ring.desc w.usedIdx _ (slot w.ring.num p) =
      w.ring.desc (slot w.ring.num p)
    rw [h.used.index_eq]
    exact update_slot_of_ne _ _ (Ne.symm hne) (by omega) (by omega)
  have hlayout : IdLayout q' free (untaken ++ (held ++ returned.map Prod.fst)) :=
    h.layout.congr rfl rfl rfl rfl
  refine ⟨hlayout.of_perm hperm, h.size, h.lastUsed, ?_, ?_, hsize ▸ h.nextAvail, h.flipped,
    fun p hp hp' => ?_, fun p hp hp' => ?_, fun p hp hp' => ?_, ?_, ?_, ?_⟩
  · rw [hdone, ← Nat.add_assoc]
    exact h.used.advance hpos (by omega)
  · have htaken : start + chainSize ((returned ++ [(c, len)]).map Prod.fst) +
        chainSize (held.eraseIdx k) =
        start + chainSize (returned.map Prod.fst) + chainSize held := by omega
    rw [htaken]
    exact h.taken
  · rw [← hsize] at hp'
    by_cases hhere : p = start + chainSize (returned.map Prod.fst)
    · subst hhere
      show (q'.at _).flags.avail = _
      rw [hat]
      exact h.used.wrap_eq
    · show (q'.at p).flags.avail = _
      rw [hother p hhere hp (by omega)]
      exact h.avail p hp hp'
  · rw [← hsize] at hp
    show (q'.at p).flags.avail = _
    have hp' : p < start + w.ring.num := hp'
    rw [hother p (by omega) (by omega) hp']
    exact h.stale p hp hp'
  · rw [← hsize] at hp'
    rw [hdone] at hp
    show (q'.at p).flags.used = _
    rw [hother p (by omega) (by omega) (by omega)]
    exact h.unused p (by omega) hp'
  · show w.held.eraseIdx k = _
    rw [h.held_eq]
    exact List.eraseIdx_map _ _ _
  · apply PackedRing.UsedFrom.concat
    · exact h.returned_at.congr rfl fun r hr hr' => hother r (by omega) hr (by omega)
    · refine ⟨?_, ?_, ?_⟩
      · show (q'.at _).flags.used = _
        rw [hat]
        exact h.used.wrap_eq
      · show (q'.at _).id = _
        rw [hat]
      · show (q'.at _).len = _
        rw [hat]
  · have htaken : start + chainSize ((returned ++ [(c, len)]).map Prod.fst) +
        chainSize (held.eraseIdx k) =
        start + chainSize (returned.map Prod.fst) + chainSize held := by omega
    rw [htaken]
    exact h.untaken_at.congr fun r hr hr' => hother r (by omega) (by omega) (by omega)

private theorem isUsedDescPacked_eq_false {q : PackedRing β} {idx : ℕ} {wrap : Bool}
    (h : (q.desc idx).flags.avail = (!wrap) ∨ (q.desc idx).flags.used = !wrap) :
    isUsedDescPacked q idx wrap = false := by
  unfold isUsedDescPacked
  dsimp only
  rcases h with havail | hused
  · rw [havail]
    cases wrap <;> cases (q.desc idx).flags.used <;> rfl
  · rw [hused]
    cases wrap <;> simp

/-- Nothing was returned: the driver's position is stale, or not used yet. -/
theorem getBufPacked_none (h : w.Consistent free untaken held [] start) :
    virtqueueGetBufPacked w.ring = some (none, w.ring) := by
  have hpos := h.num_pos
  have hnot : isUsedDescPacked w.ring w.ring.lastUsedIdx w.ring.usedWrapCounter = false := by
    rw [h.lastUsed.index_eq, h.lastUsed.wrap_eq]
    apply isUsedDescPacked_eq_false
    rcases Nat.eq_zero_or_pos
      (chainSize (untaken ++ (held ++ ([] : List (Chain β × BitVec 32)).map Prod.fst)))
      with hempty | hload
    · exact Or.inl (h.stale start (by omega) (by omega))
    · exact Or.inr (h.unused start (Nat.le_refl _) (by omega))
  unfold virtqueueGetBufPacked
  rw [if_pos hnot]

private theorem expectUsed_consistent {q : PackedRing β}
    (h : PackedQueue.Consistent { w with
      ring := q } free untaken held returned start) :
    PackedQueue.Consistent { w with
      ring := expectUsed q } free untaken held returned start := by
  unfold expectUsed
  split_ifs
  · exact ⟨h.layout.congr rfl rfl rfl rfl, h.size, h.lastUsed, h.used, h.taken, h.nextAvail,
      h.flipped, h.avail, h.stale, h.unused, h.held_eq,
      h.returned_at.congr rfl fun _ _ _ => rfl, h.untaken_at.congr fun _ _ _ => rfl⟩
  · exact h

theorem detachBufPacked_num (q : PackedRing β) (id d : ℕ) :
    ((detachBufPacked id q).descState d).num = (q.descState d).num := by
  simp only [detachBufPacked]
  by_cases hlast : d = (q.descState id).last
  · rw [← hlast, Function.update_self]
    by_cases hid : d = id
    · rw [hid, Function.update_self]
    · rw [Function.update_of_ne hid]
  · rw [Function.update_of_ne hlast]
    by_cases hid : d = id
    · rw [hid, Function.update_self]
    · rw [Function.update_of_ne hid]

private theorem passUsed_eq {q : PackedRing β} {count : ℕ} (hsize : q.num ≤ 2 ^ 15)
    (hidx : q.lastUsedIdx < q.num) (hcount : count ≤ q.num) :
    passUsed count q = { q with
      lastUsedIdx := (advance q.num q.lastUsedIdx q.usedWrapCounter count).1
      usedWrapCounter := (advance q.num q.lastUsedIdx q.usedWrapCounter count).2 } := by
  have hsmall : (q.lastUsedIdx + count) % 2 ^ 16 = q.lastUsedIdx + count :=
    Nat.mod_eq_of_lt (by omega)
  simp only [passUsed, advance, hsmall]
  split_ifs <;> rfl

/-- The chain returned first is got with its length, and its descriptors are stale from now on. -/
theorem getBufPacked_some {len : BitVec 32}
    (h : w.Consistent free untaken held ((c, len) :: returned) start) :
    ∃ q', virtqueueGetBufPacked w.ring = some (some (c.data, len), q') ∧
      PackedQueue.Consistent { w with
        ring := q' } (c.descs ++ free) untaken held returned (start + c.descs.length) ∧
      q'.num = w.ring.num := by
  have hpos := h.num_pos
  have hsize := h.size
  have hc : 0 < c.descs.length := by simp
  have hperm : (untaken ++ (held ++ ((c, len) :: returned).map Prod.fst)).Perm
      (c :: (untaken ++ (held ++ returned.map Prod.fst))) := by
    have hmiddle : (untaken ++ held ++ c :: returned.map Prod.fst).Perm
        (c :: (untaken ++ held ++ returned.map Prod.fst)) := List.perm_middle
    simpa using hmiddle
  have hload := chainSize_perm hperm
  rw [chainSize_cons] at hload
  have hdone : chainSize (((c, len) :: returned).map Prod.fst) =
      c.descs.length + chainSize (returned.map Prod.fst) := by
    rw [List.map_cons, chainSize_cons]
  have hle := h.load_le
  have hlayout := h.layout.of_perm hperm
  have hrecord := hlayout.has c List.mem_cons_self
  have hhead : c.head < w.ring.num := hlayout.lt_num List.mem_cons_self c.head_mem
  obtain ⟨⟨hused, hid, hlen⟩, hrest⟩ := h.returned_at
  have havail := h.avail start (Nat.le_refl _) (by omega)
  unfold PackedRing.at at hused hid hlen havail
  rw [← h.lastUsed.index_eq] at hused hid hlen havail
  have hyes : isUsedDescPacked w.ring w.ring.lastUsedIdx w.ring.usedWrapCounter = true := by
    simp only [isUsedDescPacked, hused, havail, h.lastUsed.wrap_eq, beq_self_eq_true,
      Bool.and_self]
  have hidNat : (w.ring.desc w.ring.lastUsedIdx).id.toNat = c.head := by
    rw [hid, BitVec.toNat_ofNat, Nat.mod_eq_of_lt (by omega)]
  have hput := hlayout.put (by omega)
  have hsmall : c.descs.length ≤ w.ring.num := by omega
  have hcount : ((detachBufPacked c.head w.ring).descState c.head).num = c.descs.length := by
    rw [detachBufPacked_num, hrecord.count]
  have hidx : w.ring.lastUsedIdx < w.ring.num := by
    rw [h.lastUsed.index_eq]
    exact slot_lt hpos start
  refine ⟨expectUsed (passUsed c.descs.length (detachBufPacked c.head w.ring)), ?_,
    expectUsed_consistent ?_, ?_⟩
  · unfold virtqueueGetBufPacked
    rw [if_neg (by simp [hyes])]
    dsimp only
    rw [hidNat, if_neg (Nat.not_le.2 hhead), hrecord.data, hcount, hlen]
  · have hlap := h.lastUsed.advance hpos (n := c.descs.length) (by omega)
    have hpass : passUsed c.descs.length (detachBufPacked c.head w.ring) =
        { detachBufPacked c.head w.ring with
          lastUsedIdx :=
            (advance w.ring.num w.ring.lastUsedIdx w.ring.usedWrapCounter c.descs.length).1
          usedWrapCounter :=
            (advance w.ring.num w.ring.lastUsedIdx w.ring.usedWrapCounter c.descs.length).2 } :=
      passUsed_eq hsize hidx hsmall
    have hnew : start + c.descs.length + chainSize (returned.map Prod.fst) =
        start + chainSize (((c, len) :: returned).map Prod.fst) := by omega
    have hend : start + c.descs.length +
        chainSize (untaken ++ (held ++ returned.map Prod.fst)) =
        start + chainSize (untaken ++ (held ++ ((c, len) :: returned).map Prod.fst)) := by omega
    rw [hpass]
    refine ⟨hput.congr rfl rfl rfl rfl, hsize, hlap, hnew ▸ h.used, hnew ▸ h.taken,
      hend ▸ h.nextAvail, h.flipped, fun p hp hp' => ?_, fun p hp hp' => ?_, fun p hp hp' => ?_,
      h.held_eq, hrest.congr rfl fun _ _ _ => rfl, ?_⟩
    · rw [hend] at hp'
      exact h.avail p (by omega) hp'
    · rw [hend] at hp
      have hp' : p < start + c.descs.length + w.ring.num := hp'
      rcases Nat.lt_or_ge p (start + w.ring.num) with hlt | hge
      · exact h.stale p hp hlt
      · -- the next lap begins where the chain was
        obtain ⟨r, rfl⟩ : ∃ r, p = r + w.ring.num := ⟨p - w.ring.num, by omega⟩
        show (w.ring.desc (slot w.ring.num (r + w.ring.num))).flags.avail =
          !phase w.ring.num (r + w.ring.num)
        rw [slot_add_size, phase_add_size hpos, Bool.not_not]
        exact h.avail r (by omega) (by omega)
    · rw [hend] at hp'
      rw [hnew] at hp
      exact h.unused p hp hp'
    · rw [hnew]
      exact h.untaken_at.congr fun _ _ _ => rfl
  · unfold expectUsed passUsed
    dsimp only
    split_ifs <;> rfl

end

end Viosnd.VirtIO
