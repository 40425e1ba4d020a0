import Viosnd.Pci.LegacyQueues

/-!
# The device accesses pages of queues only

Whatever the order of the calls, as long as queues are found only while the registers of the device
show every queue that exists, they show the pages of existing queues. A search that fails leaves
none.
-/

namespace Viosnd.Pci.Legacy

open Ledger StepRun

def heldPages (s : LegacyTransport) (i : ℕ) : Option ℕ :=
  (s.info i).vq.bind fun _ => (s.info i).queue

structure LegacySound (s : LegacyTransport) : Prop where
  room : s.maxQueues.toNat ≤ s.infoRoom
  /-- Pages are with one queue, or came back once. -/
  pages : s.pages.Balances (inTable (heldPages s) s.maxQueues.toNat)
  blocks : s.blocks.Balances s.infoBlock.toList
  queues : ∀ i vq, (s.info i).vq = some vq → i < s.maxQueues.toNat ∧
    vq.index = BitVec.ofNat 32 i ∧ (∃ m, vq.num.toNat = 2 ^ m) ∧
    ∃ page < s.pages.granted, (s.info i).queue = some page
  /-- A queue that is active in the device is one that exists, in its own pages. -/
  active : ∀ sel, s.queuePfn sel ≠ 0 → ∃ i page, heldPages s i = some page ∧
    BitVec.ofNat 16 i = sel ∧ s.queuePfn sel = pageFrame (s.address page)

structure LegacySafety (w : LegacyWorld) : Prop where
  ends : w.stuck = false
  sound : LegacySound w.transport
  found : ∀ nvqs, w.found = some (nvqs, .ok ()) →
    ∀ i < nvqs.toNat, (w.transport.info i).vq.isSome = true
  failed : ∀ nvqs status, w.found = some (nvqs, .error status) →
    (∀ i, (w.transport.info i).vq = none) ∧ ∀ sel, w.transport.queuePfn sel = 0

/-- The infos are allocated anew when no queue is left, for a size that does not wrap. -/
def GrowsAlone (w : LegacyWorld) (nvqs : BitVec 32) : Prop :=
  w.transport.maxQueues < nvqs → nvqs.toNat * queueDescriptorSize.toNat < 2 ^ 32 ∧
    ∀ i < w.transport.maxQueues.toNat, (w.transport.info i).vq.isSome = false

instance (w : LegacyWorld) (nvqs : BitVec 32) : Decidable (GrowsAlone w nvqs) := by
  unfold GrowsAlone
  infer_instance

/-- Where a queue is found, the registers of the device still show every queue that exists. -/
def Orderly (w : LegacyWorld) : LegacyCall → Prop
  | .reserve _ nvqs => GrowsAlone w nvqs
  | .findQueues _ nvqs => GrowsAlone w nvqs ∧
      ∀ i < w.transport.maxQueues.toNat, (w.transport.info i).vq.isSome = true →
        w.transport.queuePfn (BitVec.ofNat 16 i) ≠ 0
  | _ => True

instance (w : LegacyWorld) (call : LegacyCall) : Decidable (Orderly w call) := by
  cases call <;> unfold Orderly <;> infer_instance

/-! ## One queue -/

section

variable {s s' : LegacyTransport} {h : LegacyHost} {fuel index : ℕ}

structure Failed (s s' : LegacyTransport) : Prop where
  vq : ∀ i, (s'.info i).vq = (s.info i).vq
  kept : ∀ i, (s.info i).vq.isSome = true → s'.info i = s.info i
  size : s'.maxQueues = s.maxQueues ∧ s'.infoRoom = s.infoRoom
  blocks : s'.infoBlock = s.infoBlock ∧ s'.blocks = s.blocks
  queuePfn : s'.queuePfn = s.queuePfn
  pages : s'.pages = s.pages ∨ s'.pages = s.pages.grant.giveBack s.pages.granted
  address : ∀ page < s.pages.granted, s'.address page = s.address page

structure Added (index : ℕ) (s s' : LegacyTransport) : Prop where
  others : ∀ j, j ≠ index → s'.info j = s.info j
  vq : ∃ vq, (s'.info index).vq = some vq ∧ vq.index = BitVec.ofNat 32 index ∧
    ∃ m, vq.num.toNat = 2 ^ m
  queue : (s'.info index).queue = some s.pages.granted
  size : s'.maxQueues = s.maxQueues ∧ s'.infoRoom = s.infoRoom
  blocks : s'.infoBlock = s.infoBlock ∧ s'.blocks = s.blocks
  free : s.queuePfn (BitVec.ofNat 16 index) = 0
  queuePfn : s'.queuePfn = Function.update s.queuePfn (BitVec.ofNat 16 index)
    (pageFrame (s'.address s.pages.granted))
  pages : s'.pages = s.pages.grant
  address : ∀ page < s.pages.granted, s'.address page = s.address page

private theorem ringRoom_ge (num : BitVec 16) : num.toNat ≤ ringRoom num := by
  unfold ringRoom vringSizeSplit
  omega

/-- The constructor refuses a size that is not a power of two, and comes to its end otherwise. -/
private theorem newVirtqueue_eq {num : BitVec 16} (hnum : num ≠ 0) (hfuel : 2 ^ 16 ≤ fuel) :
    ∃ made, vringNewVirtqueueSplit (ringRoom num) (num.setWidth 32) fuel = some made ∧
      (made = true → ∃ m, (num.setWidth 32).toNat = 2 ^ m) := by
  have hsame : (num.setWidth 32).toNat = num.toNat := by
    rw [BitVec.toNat_setWidth]
    exact Nat.mod_eq_of_lt (num.isLt.trans (by decide))
  have hwide : num.setWidth 32 ≠ 0 := by
    intro hzero
    apply hnum
    apply BitVec.eq_of_toNat_eq
    rw [← hsame, hzero]
    rfl
  have hsmall := num.isLt
  have hroom := ringRoom_ge num
  unfold vringNewVirtqueueSplit
  by_cases hpow : num.setWidth 32 &&& (num.setWidth 32 - 1) = 0
  · rw [if_neg (not_not.mpr hpow), linkEntries_eq hwide (by omega) (by omega) (by omega)]
    exact ⟨true, rfl, fun _ => (and_pred_iff hwide).mp hpow⟩
  · rw [if_pos hpow]
    exact ⟨false, rfl, fun hfalse => absurd hfalse Bool.false_ne_true⟩

private theorem Failed.of_info (hempty : (s.info index).vq = none) {info : LegacyInfo}
    (hvq : info.vq = none) (hinfo : s'.info = Function.update s.info index info)
    (hsize : s'.maxQueues = s.maxQueues ∧ s'.infoRoom = s.infoRoom)
    (hblocks : s'.infoBlock = s.infoBlock ∧ s'.blocks = s.blocks)
    (hpfn : s'.queuePfn = s.queuePfn)
    (hpages : s'.pages = s.pages ∨ s'.pages = s.pages.grant.giveBack s.pages.granted)
    (haddress : ∀ page < s.pages.granted, s'.address page = s.address page) : Failed s s' := by
  refine ⟨fun i => ?_, fun i hi => ?_, hsize, hblocks, hpfn, hpages, haddress⟩
  · rw [hinfo]
    by_cases heq : i = index
    · rw [heq, Function.update_self, hempty, hvq]
    · rw [Function.update_of_ne heq]
  · rw [hinfo]
    apply Function.update_of_ne
    intro heq
    rw [heq, hempty] at hi
    cases hi

private theorem vpSetupVq_cases (hroom : index < s.infoRoom) (hfuel : 2 ^ 16 ≤ fuel)
    (hknown : (s.info index).vq.isSome = true → s.queuePfn (BitVec.ofNat 16 index) ≠ 0)
    (h : LegacyHost) (msixVec : BitVec 16) : ∃ r, vpSetupVq h fuel index msixVec s = some r ∧
      ((∃ status, r.1 = .error status ∧ Failed s r.2) ∨ r.1 = .ok () ∧ Added index s r.2) := by
  unfold vpSetupVq vioLegacySetupVq vioLegacyQueryVqAlloc
  dsimp only
  by_cases hrefused : h.queueNum (BitVec.ofNat 16 index).toNat = 0 ∨
      s.queuePfn (BitVec.ofNat 16 index) ≠ 0
  · rw [if_pos hrefused]
    exact ⟨_, rfl, Or.inl ⟨_, rfl, ⟨fun _ => rfl, fun _ _ => rfl, ⟨rfl, rfl⟩, ⟨rfl, rfl⟩, rfl,
      Or.inl rfl, fun _ _ => rfl⟩⟩⟩
  rw [if_neg hrefused]
  rw [not_or, not_not] at hrefused
  obtain ⟨hnum, hfree⟩ := hrefused
  have hempty : (s.info index).vq = none := by
    rw [← Option.not_isSome_iff_eq_none]
    exact fun hsome => hknown hsome hfree
  dsimp only [LegacyTransport.setInfo, LegacyTransport.takePages, LegacyTransport.writePfn,
    LegacyTransport.deactivate]
  rw [if_neg (Nat.not_le.mpr hroom)]
  simp only [Function.update_idem, Function.update_self, hempty]
  cases hpages : h.pages index with
  | none =>
      refine ⟨_, rfl, Or.inl ⟨_, rfl, ?_⟩⟩
      exact Failed.of_info hempty rfl rfl ⟨rfl, rfl⟩ ⟨rfl, rfl⟩ rfl (Or.inl rfl) fun _ _ => rfl
  | some address =>
      obtain ⟨made, hmade, hpow⟩ := newVirtqueue_eq hnum hfuel
      have hother : ∀ page < s.pages.granted,
          Function.update s.address s.pages.granted address page = s.address page :=
        fun page hlt => Function.update_of_ne (Nat.ne_of_lt hlt) address s.address
      have hback : Function.update s.queuePfn (BitVec.ofNat 16 index) 0 = s.queuePfn := by
        rw [← hfree]
        exact Function.update_eq_self _ s.queuePfn
      dsimp only
      rw [hmade, Option.bind_some]
      by_cases hrefuses : made = false
      · rw [if_pos hrefuses]
        refine ⟨_, rfl, Or.inl ⟨_, rfl, ?_⟩⟩
        exact Failed.of_info hempty rfl rfl ⟨rfl, rfl⟩ ⟨rfl, rfl⟩ hback (Or.inr rfl) hother
      rw [if_neg hrefuses]
      split
      · refine ⟨_, rfl, Or.inl ⟨_, rfl, ?_⟩⟩
        exact Failed.of_info hempty rfl rfl ⟨rfl, rfl⟩ ⟨rfl, rfl⟩ hback (Or.inr rfl) hother
      · refine ⟨_, rfl, Or.inr ⟨rfl, ?_⟩⟩
        refine ⟨fun j hj => ?_, ?_, ?_, ⟨rfl, rfl⟩, ⟨rfl, rfl⟩, hfree, ?_, rfl, hother⟩
        · dsimp only
          rw [Function.update_of_ne hj, Function.update_of_ne hj]
        · dsimp only
          rw [Function.update_self]
          exact ⟨_, rfl, rfl, hpow (Bool.eq_true_of_not_eq_false hrefuses)⟩
        · simp only [Function.update_self]
        · simp only [Function.update_self]

/-! ## What the calls keep -/

private theorem heldPages_congr {i : ℕ} (hsame : s'.info i = s.info i) :
    heldPages s' i = heldPages s i := by
  unfold heldPages
  rw [hsame]

private theorem LegacySound.owner_lt (hsound : LegacySound s) {i page : ℕ}
    (hheld : heldPages s i = some page) : i < s.maxQueues.toNat ∧ page < s.pages.granted := by
  obtain ⟨vq, hvq, hqueue⟩ := Option.bind_eq_some_iff.mp hheld
  obtain ⟨hlt, _, _, page', hgranted, hpage⟩ := hsound.queues i vq hvq
  rw [hpage] at hqueue
  exact ⟨hlt, Option.some.inj hqueue ▸ hgranted⟩

private theorem Failed.heldPages_eq (hfailed : Failed s s') : heldPages s' = heldPages s := by
  funext i
  cases hvq : (s.info i).vq with
  | none =>
      unfold heldPages
      rw [hfailed.vq i, hvq]
      rfl
  | some vq => exact heldPages_congr (hfailed.kept i (by simp [hvq]))

private theorem Failed.granted_le (hfailed : Failed s s') : s.pages.granted ≤ s'.pages.granted := by
  cases hfailed.pages with
  | inl hsame => rw [hsame]
  | inr hback =>
      rw [hback]
      exact Nat.le_succ _

theorem Failed.sound (hfailed : Failed s s') (hsound : LegacySound s) : LegacySound s' := by
  refine ⟨?_, ?_, ?_, ?_, ?_⟩
  · rw [hfailed.size.1, hfailed.size.2]
    exact hsound.room
  · rw [hfailed.heldPages_eq, hfailed.size.1]
    cases hfailed.pages with
    | inl hsame =>
        rw [hsame]
        exact hsound.pages
    | inr hback =>
        rw [hback]
        exact hsound.pages.grant.giveBack (List.Perm.refl _)
  · rw [hfailed.blocks.1, hfailed.blocks.2]
    exact hsound.blocks
  · intro i vq hvq
    rw [hfailed.vq i] at hvq
    obtain ⟨hlt, hindex, hpow, page, hgranted, hqueue⟩ := hsound.queues i vq hvq
    rw [hfailed.size.1, hfailed.kept i (by simp [hvq])]
    exact ⟨hlt, hindex, hpow, page, hgranted.trans_le hfailed.granted_le, hqueue⟩
  · intro sel hactive
    rw [hfailed.queuePfn] at hactive ⊢
    obtain ⟨i, page, hheld, hsel, hframe⟩ := hsound.active sel hactive
    refine ⟨i, page, hfailed.heldPages_eq ▸ hheld, hsel, ?_⟩
    rw [hfailed.address page (hsound.owner_lt hheld).2]
    exact hframe

private theorem Added.heldPages_eq (hadded : Added index s s') :
    heldPages s' = Function.update (heldPages s) index (some s.pages.granted) := by
  funext i
  by_cases heq : i = index
  · obtain ⟨vq, hvq, _⟩ := hadded.vq
    unfold heldPages
    rw [heq, Function.update_self, hvq, hadded.queue]
    rfl
  · rw [Function.update_of_ne heq]
    exact heldPages_congr (hadded.others i heq)

theorem Added.sound (hadded : Added index s s') (hsound : LegacySound s)
    (hempty : (s.info index).vq = none) (hindex : index < s.maxQueues.toNat) :
    LegacySound s' := by
  have hnone : heldPages s index = none := by
    unfold heldPages
    rw [hempty]
    rfl
  refine ⟨?_, ?_, ?_, ?_, ?_⟩
  · rw [hadded.size.1, hadded.size.2]
    exact hsound.room
  · rw [hadded.heldPages_eq, hadded.size.1, hadded.pages]
    exact hsound.pages.grant.of_perm (inTable_put hindex hnone _)
  · rw [hadded.blocks.1, hadded.blocks.2]
    exact hsound.blocks
  · intro i vq hvq
    rw [hadded.size.1, hadded.pages]
    by_cases heq : i = index
    · rw [heq] at hvq ⊢
      obtain ⟨vq', hvq', hnumber, hpow⟩ := hadded.vq
      rw [hvq'] at hvq
      rw [← Option.some.inj hvq]
      exact ⟨hindex, hnumber, hpow, _, Nat.lt_succ_self _, hadded.queue⟩
    · rw [hadded.others i heq] at hvq ⊢
      obtain ⟨hlt, hnumber, hpow, page, hgranted, hqueue⟩ := hsound.queues i vq hvq
      exact ⟨hlt, hnumber, hpow, page, hgranted.trans (Nat.lt_succ_self _), hqueue⟩
  · intro sel hactive
    rw [hadded.heldPages_eq]
    rw [hadded.queuePfn] at hactive ⊢
    by_cases heq : sel = BitVec.ofNat 16 index
    · rw [heq, Function.update_self]
      exact ⟨index, s.pages.granted, Function.update_self _ _ _, rfl, rfl⟩
    · rw [Function.update_of_ne heq] at hactive ⊢
      obtain ⟨i, page, hheld, hsel, hframe⟩ := hsound.active sel hactive
      have hne : i ≠ index := by
        intro hi
        rw [hi, hnone] at hheld
        cases hheld
      refine ⟨i, page, (Function.update_of_ne hne _ _).trans hheld, hsel, ?_⟩
      rw [hadded.address page (hsound.owner_lt hheld).2]
      exact hframe

def LegacyTransport.withoutQueue (s : LegacyTransport) (i : ℕ) (vq : LegacyQueue) :
    LegacyTransport :=
  let deleted := vioLegacyDelVq vq (s.info i).queue s
  deleted.setInfo i { deleted.info i with
    vq := none }

private theorem withoutQueue_info (s : LegacyTransport) (i : ℕ) (vq : LegacyQueue) :
    (s.withoutQueue i vq).info = Function.update s.info i { s.info i with
      vq := none } := rfl

private theorem withoutQueue_heldPages (s : LegacyTransport) (i : ℕ) (vq : LegacyQueue) :
    heldPages (s.withoutQueue i vq) = Function.update (heldPages s) i none := by
  funext j
  unfold heldPages
  rw [withoutQueue_info]
  by_cases heq : j = i
  · rw [heq, Function.update_self, Function.update_self]
    rfl
  · rw [Function.update_of_ne heq, Function.update_of_ne heq]

/-- The device forgets the queue before its pages go. -/
private theorem LegacySound.withoutQueue (hsound : LegacySound s) {i : ℕ} {vq : LegacyQueue}
    (hvq : (s.info i).vq = some vq) : LegacySound (s.withoutQueue i vq) := by
  obtain ⟨hlt, hindex, _, page, hgranted, hqueue⟩ := hsound.queues i vq hvq
  have hheld : heldPages s i = some page := by
    unfold heldPages
    rw [hvq]
    exact hqueue
  have hpages : (s.withoutQueue i vq).pages = s.pages.giveBack page := by
    unfold LegacyTransport.withoutQueue vioLegacyDelVq
    rw [hqueue]
    rfl
  have hsel : vq.index.setWidth 16 = BitVec.ofNat 16 i := by
    rw [hindex]
    apply BitVec.eq_of_toNat_eq
    rw [BitVec.toNat_setWidth, BitVec.toNat_ofNat, BitVec.toNat_ofNat]
    omega
  have hpfn : (s.withoutQueue i vq).queuePfn =
      Function.update s.queuePfn (BitVec.ofNat 16 i) 0 := by
    rw [← hsel]
    rfl
  refine ⟨hsound.room, ?_, hsound.blocks, ?_, ?_⟩
  · rw [hpages, withoutQueue_heldPages]
    exact hsound.pages.giveBack (inTable_take hlt hheld)
  · intro j vq' hvq'
    rw [withoutQueue_info] at hvq' ⊢
    rw [hpages]
    have hne : j ≠ i := by
      intro heq
      rw [heq, Function.update_self] at hvq'
      cases hvq'
    rw [Function.update_of_ne hne] at hvq' ⊢
    exact hsound.queues j vq' hvq'
  · intro sel hactive
    rw [withoutQueue_heldPages]
    rw [hpfn] at hactive ⊢
    have hne : sel ≠ BitVec.ofNat 16 i := by
      intro heq
      rw [heq, Function.update_self] at hactive
      exact hactive rfl
    rw [Function.update_of_ne hne] at hactive ⊢
    obtain ⟨j, page', hheld', hsel', hframe⟩ := hsound.active sel hactive
    have hji : j ≠ i := by
      intro heq
      exact hne (heq ▸ hsel'.symm)
    exact ⟨j, page', (Function.update_of_ne hji _ _).trans hheld', hsel', hframe⟩

private theorem deleteFrom_sound {count i : ℕ} (hsound : LegacySound s)
    (hcount : i + count = s.maxQueues.toNat) : ∃ s', deleteFrom count i s = some s' ∧
      LegacySound s' ∧ (∀ j, (s.info j).vq = none → (s'.info j).vq = none) ∧
      ∀ j, i ≤ j → j < i + count → (s'.info j).vq = none := by
  induction count generalizing i s with
  | zero => exact ⟨s, rfl, hsound, fun _ h => h, fun j hij hj => absurd hj (Nat.not_lt.mpr hij)⟩
  | succ count ih =>
      have hroom := hsound.room
      unfold deleteFrom
      rw [if_neg (by omega)]
      cases hvq : (s.info i).vq with
      | none =>
          obtain ⟨s', hdelete, hsound', hkept, hgone⟩ := ih (i := i + 1) hsound (by omega)
          refine ⟨s', hdelete, hsound', hkept, fun j hij hj => ?_⟩
          by_cases heq : j = i
          · rw [heq]
            exact hkept i hvq
          · exact hgone j (by omega) (by omega)
      | some vq =>
          obtain ⟨s', hdelete, hsound', hkept, hgone⟩ := ih (hsound.withoutQueue hvq)
            (show i + 1 + count = s.maxQueues.toNat by omega)
          have hfirst : ∀ j, j = i ∨ (s.info j).vq = none →
              ((s.withoutQueue i vq).info j).vq = none := by
            intro j hj
            rw [withoutQueue_info]
            by_cases heq : j = i
            · rw [heq, Function.update_self]
            · rw [Function.update_of_ne heq]
              exact hj.resolve_left heq
          refine ⟨s', hdelete, hsound', fun j hj => hkept j (hfirst j (Or.inr hj)), ?_⟩
          intro j hij hj
          by_cases heq : j = i
          · exact hkept j (hfirst j (Or.inl heq))
          · exact hgone j (by omega) (by omega)

structure NoQueue (s : LegacyTransport) : Prop where
  vq : ∀ i, (s.info i).vq = none
  queuePfn : ∀ sel, s.queuePfn sel = 0

private theorem NoQueue.heldPages_empty (hnone : NoQueue s) (n : ℕ) :
    inTable (heldPages s) n = [] := by
  apply inTable_empty
  intro i
  unfold heldPages
  rw [hnone.vq i]
  rfl

theorem LegacySound.noQueue (hsound : LegacySound s) (hvq : ∀ i, (s.info i).vq = none) :
    NoQueue s := by
  refine ⟨hvq, fun sel => ?_⟩
  by_contra hactive
  obtain ⟨i, page, hheld, _⟩ := hsound.active sel hactive
  unfold heldPages at hheld
  rw [hvq i] at hheld
  cases hheld

private theorem LegacySound.vq_none (hsound : LegacySound s)
    (hvq : ∀ i < s.maxQueues.toNat, (s.info i).vq = none) : ∀ i, (s.info i).vq = none := by
  intro i
  cases hi : (s.info i).vq with
  | none => rfl
  | some vq =>
      have hlt := (hsound.queues i vq hi).1
      rw [hvq i hlt] at hi
      exact hi.symm

private theorem deleteQueues_sound (hsound : LegacySound s) :
    ∃ s', virtioDeleteQueues s = some s' ∧ LegacySound s' ∧ NoQueue s' := by
  obtain ⟨s', hdelete, hsound', hkept, hgone⟩ := deleteFrom_sound hsound (Nat.zero_add _)
  refine ⟨s', hdelete, hsound', hsound'.noQueue fun j => ?_⟩
  cases hj : (s.info j).vq with
  | none => exact hkept j hj
  | some vq =>
      apply hgone j (Nat.zero_le j)
      rw [Nat.zero_add]
      exact (hsound.queues j vq hj).1

/-! ## Finding queues -/

/-- Queues that are not reached yet are new, or active in the device. -/
def Known (i : ℕ) (s : LegacyTransport) : Prop :=
  ∀ j, i ≤ j → (s.info j).vq.isSome = true → s.queuePfn (BitVec.ofNat 16 j) ≠ 0

theorem Added.known (hadded : Added index s s') (hknown : Known index s) :
    Known (index + 1) s' := by
  intro j hj hsome
  rw [hadded.others j (by omega)] at hsome
  have hactive := hknown j (by omega) hsome
  rw [hadded.queuePfn]
  by_cases heq : BitVec.ofNat 16 j = BitVec.ofNat 16 index
  · rw [heq] at hactive
    exact absurd hadded.free hactive
  · rw [Function.update_of_ne heq]
    exact hactive

private theorem setupFrom_sound {count i : ℕ} (hsound : LegacySound s)
    (hcount : i + count ≤ s.maxQueues.toNat) (hknown : Known i s) (hfuel : 2 ^ 16 ≤ fuel)
    (h : LegacyHost) : ∃ r, setupFrom h fuel count i s = some r ∧ LegacySound r.2 ∧
      (r.1 = .ok () → ∀ j, j < i + count → i ≤ j ∨ (s.info j).vq.isSome = true →
        (r.2.info j).vq.isSome = true) := by
  induction count generalizing i s with
  | zero =>
      refine ⟨_, rfl, hsound, fun _ j hj hwhy => ?_⟩
      exact hwhy.resolve_left (by omega)
  | succ count ih =>
      have hroom := hsound.room
      obtain ⟨⟨answer, left⟩, hsetup, hcases⟩ := vpSetupVq_cases (by omega) hfuel
        (hknown i le_rfl) h (h.msixVector (some i))
      unfold setupFrom
      rw [hsetup, Option.bind_some]
      dsimp only at hcases ⊢
      cases hcases with
      | inl herror =>
          obtain ⟨status, hanswer, hfailed⟩ := herror
          rw [hanswer]
          exact ⟨_, rfl, hfailed.sound hsound, nofun⟩
      | inr hok =>
          obtain ⟨hanswer, hadded⟩ := hok
          have hempty : (s.info i).vq = none := by
            rw [← Option.not_isSome_iff_eq_none]
            exact fun hsome => hknown i le_rfl hsome hadded.free
          obtain ⟨r, hrest, hall⟩ := ih (hadded.sound hsound hempty (by omega))
            (by rw [hadded.size.1]; omega) (hadded.known hknown)
          rw [hanswer]
          refine ⟨r, hrest, hall.1, fun hr j hj hwhy => ?_⟩
          apply hall.2 hr j (by omega)
          by_cases heq : j = i
          · right
            obtain ⟨vq, hvq, _⟩ := hadded.vq
            rw [heq, hvq]
            rfl
          · rw [hadded.others j heq]
            exact hwhy.imp (fun hle => by omega) id

private theorem reserve_sound {nvqs : BitVec 32} (hsound : LegacySound s) (hknown : Known 0 s)
    (hgrowth : s.maxQueues < nvqs → nvqs.toNat * queueDescriptorSize.toNat < 2 ^ 32 ∧
      ∀ i, (s.info i).vq = none) (h : LegacyHost) :
    (∃ status, virtioReserveQueueMemory h nvqs s = (.error status, s) ∧ NoQueue s) ∨
      ∃ ready, virtioReserveQueueMemory h nvqs s = (.ok (), ready) ∧ LegacySound ready ∧
        Known 0 ready ∧ nvqs ≤ ready.maxQueues := by
  unfold virtioReserveQueueMemory
  by_cases hmore : s.maxQueues < nvqs
  · rw [if_pos hmore]
    obtain ⟨hfits, hvq⟩ := hgrowth hmore
    have hnone := hsound.noQueue hvq
    by_cases hgrants : h.grantsInfos = true
    · rw [if_pos hgrants]
      right
      have hpages := hsound.pages
      rw [hnone.heldPages_empty] at hpages
      refine ⟨_, rfl, ⟨?_, ?_, ?_, ?_, ?_⟩, ?_, BitVec.le_refl _⟩
      · have hsize : queueDescriptorSize.toNat = 24 := rfl
        rw [hsize] at hfits
        dsimp only
        rw [BitVec.toNat_mul, hsize, Nat.mod_eq_of_lt hfits, Nat.mul_div_cancel _ (by decide)]
      · apply hpages.of_perm
        apply List.Perm.of_eq
        apply NoQueue.heldPages_empty
        exact ⟨fun _ => rfl, hnone.queuePfn⟩
      · have hgranted := hsound.blocks.grant
        dsimp only
        cases hblock : s.infoBlock with
        | none =>
            rw [hblock] at hgranted
            exact hgranted
        | some block =>
            rw [hblock] at hgranted
            exact hgranted.giveBack (List.Perm.swap _ _ _)
      · intro i vq hnew
        cases hnew
      · intro sel hactive
        exact absurd (hnone.queuePfn sel) hactive
      · intro j _ hsome
        cases hsome
    · rw [if_neg hgrants]
      exact Or.inl ⟨_, rfl, hnone⟩
  · rw [if_neg hmore]
    exact Or.inr ⟨_, rfl, hsound, hknown, BitVec.not_lt.mp hmore⟩

private theorem reserve_keepsSound {nvqs : BitVec 32} (hsound : LegacySound s)
    (hgrowth : s.maxQueues < nvqs → nvqs.toNat * queueDescriptorSize.toNat < 2 ^ 32 ∧
      ∀ i, (s.info i).vq = none) (h : LegacyHost) :
    LegacySound (virtioReserveQueueMemory h nvqs s).2 := by
  by_cases hmore : s.maxQueues < nvqs
  · have hknown : Known 0 s := by
      intro j _ hsome
      rw [(hgrowth hmore).2 j] at hsome
      cases hsome
    rcases reserve_sound hsound hknown hgrowth h with
      ⟨status, hreserve, -⟩ | ⟨ready, hreserve, hready, -, -⟩
    · rw [hreserve]
      exact hsound
    · rw [hreserve]
      exact hready
  · rw [virtioReserveQueueMemory, if_neg hmore]
    exact hsound

private theorem errorFind_noQueue (hsound : LegacySound s) (status : QueueStatus) :
    ∃ left, errorFind status s = some (.error status, left) ∧ LegacySound left ∧
      NoQueue left := by
  obtain ⟨left, hdelete, hsound', hnone⟩ := deleteQueues_sound hsound
  refine ⟨left, ?_, hsound', hnone⟩
  unfold errorFind
  rw [hdelete]
  rfl

/-- The call comes back with all queues or with none. -/
private theorem findQueues_sound {nvqs : BitVec 32} (hsound : LegacySound s) (hknown : Known 0 s)
    (hgrowth : s.maxQueues < nvqs → nvqs.toNat * queueDescriptorSize.toNat < 2 ^ 32 ∧
      ∀ i, (s.info i).vq = none) (hfuel : 2 ^ 16 ≤ fuel) (h : LegacyHost) :
    ∃ r, virtioFindQueues h fuel nvqs s = some r ∧ LegacySound r.2 ∧
      (r.1 = .ok () → ∀ i < nvqs.toNat, (r.2.info i).vq.isSome = true) ∧
      ∀ status, r.1 = .error status → NoQueue r.2 := by
  unfold virtioFindQueues
  cases reserve_sound hsound hknown hgrowth h with
  | inl hrefused =>
      obtain ⟨status, hreserve, hnone⟩ := hrefused
      rw [hreserve]
      exact ⟨_, rfl, hsound, nofun, fun _ _ => hnone⟩
  | inr hready =>
      obtain ⟨ready, hreserve, hsound', hknown', hfits⟩ := hready
      rw [hreserve]
      dsimp only
      split
      · obtain ⟨left, hfind, hleft, hnone⟩ := errorFind_noQueue hsound' .deviceBusy
        exact ⟨_, hfind, hleft, nofun, fun _ _ => hnone⟩
      · have hcount : 0 + nvqs.toNat ≤ ready.maxQueues.toNat := by
          rw [Nat.zero_add]
          exact BitVec.le_def.mp hfits
        obtain ⟨⟨found, made⟩, hsetup, hmade, hall⟩ :=
          setupFrom_sound hsound' hcount hknown' hfuel h
        rw [hsetup, Option.bind_some]
        cases found with
        | error status =>
            obtain ⟨left, hfind, hleft, hnone⟩ := errorFind_noQueue hmade status
            exact ⟨_, hfind, hleft, nofun, fun _ _ => hnone⟩
        | ok =>
            refine ⟨_, rfl, hmade, fun _ j hj => ?_, nofun⟩
            exact hall rfl j (by omega) (Or.inl (Nat.zero_le j))

end

/-! ## Runs -/

section

variable {w : LegacyWorld} {fuel : ℕ}

private theorem LegacySafety.of_sound (hends : w.stuck = false) (hsound : LegacySound w.transport)
    (hfound : w.found = none) : LegacySafety w := by
  refine ⟨hends, hsound, ?_, ?_⟩
  · intro nvqs hsome
    cases hfound.symm.trans hsome
  · intro nvqs status hsome
    cases hfound.symm.trans hsome

private theorem fresh_safety (maxQueues : BitVec 32) (external : Bool) :
    LegacySafety (LegacyWorld.fresh maxQueues external) := by
  refine LegacySafety.of_sound rfl ⟨le_rfl, ?_, ?_, ?_, ?_⟩ rfl
  · have hpages : Book.Balances ⟨0, []⟩ [] := List.Perm.refl _
    apply hpages.of_perm
    apply List.Perm.of_eq
    apply NoQueue.heldPages_empty
    exact ⟨fun _ => rfl, fun _ => rfl⟩
  · cases external with
    | false => exact List.Perm.refl _
    | true => exact List.Perm.refl _
  · intro i vq hvq
    cases hvq
  · intro sel hactive
    exact absurd rfl hactive

private theorem GrowsAlone.vq_none {nvqs : BitVec 32} (h : GrowsAlone w nvqs)
    (hsound : LegacySound w.transport) (hmore : w.transport.maxQueues < nvqs) :
    nvqs.toNat * queueDescriptorSize.toNat < 2 ^ 32 ∧ ∀ i, (w.transport.info i).vq = none := by
  obtain ⟨hfits, hnone⟩ := h hmore
  refine ⟨hfits, hsound.vq_none fun i hi => ?_⟩
  exact Option.isNone_iff_eq_none.mp (Option.isSome_eq_false_iff.mp (hnone i hi))

private theorem step_safety (hfuel : 2 ^ 16 ≤ fuel) (hsafe : LegacySafety w) {call : LegacyCall}
    (horderly : Orderly w call) : LegacySafety (w.step fuel call) := by
  have hsound := hsafe.sound
  unfold LegacyWorld.step
  rw [if_neg (by simp [hsafe.ends])]
  cases call with
  | reserve h nvqs =>
      exact LegacySafety.of_sound hsafe.ends
        (reserve_keepsSound hsound (horderly.vq_none hsound) h) rfl
  | findQueues h nvqs =>
      obtain ⟨hgrowth, hactive⟩ := horderly
      have hknown : Known 0 w.transport := by
        intro j _ hsome
        obtain ⟨vq, hvq⟩ := Option.isSome_iff_exists.mp hsome
        exact hactive j (hsound.queues j vq hvq).1 hsome
      obtain ⟨⟨answer, s⟩, hfind, hsound', hall, hnone⟩ := findQueues_sound hsound hknown
        (hgrowth.vq_none hsound) hfuel h
      dsimp only
      rw [hfind]
      refine ⟨hsafe.ends, hsound', ?_, ?_⟩
      · intro n hfound
        obtain ⟨hn, hanswer⟩ := Prod.mk.inj (Option.some.inj hfound)
        rw [← hn]
        exact hall hanswer
      · intro n status hfound
        obtain ⟨hn, hanswer⟩ := Prod.mk.inj (Option.some.inj hfound)
        have hgone := hnone status hanswer
        exact ⟨hgone.vq, hgone.queuePfn⟩
  | deleteQueues =>
      obtain ⟨s, hdelete, hsound', _⟩ := deleteQueues_sound hsound
      dsimp only
      rw [hdelete]
      exact LegacySafety.of_sound hsafe.ends hsound' rfl
  | deleteQueue i =>
      dsimp only
      cases hvq : (w.transport.info i).vq with
      | none =>
          exact LegacySafety.of_sound hsafe.ends hsound rfl
      | some vq =>
          exact LegacySafety.of_sound hsafe.ends (hsound.withoutQueue hvq) rfl
  | reset =>
      refine LegacySafety.of_sound hsafe.ends ⟨hsound.room, hsound.pages, hsound.blocks,
        hsound.queues, ?_⟩ rfl
      intro sel hactive
      exact absurd rfl hactive

/-- Over orderly calls, whatever the device offers and the system grants, with resets between them:
the calls come back; pages are with one queue or were given back once; the registers of the device
show pages of queues only, each where its queue has them; finding queues makes all of them or
leaves none, in the registers neither. -/
theorem run_legacySafety (hfuel : 2 ^ 16 ≤ fuel) (maxQueues : BitVec 32) (external : Bool)
    {calls : List LegacyCall}
    (horderly : Guarded (LegacyWorld.step fuel) Orderly (LegacyWorld.fresh maxQueues external)
      calls) :
    LegacySafety (run (LegacyWorld.step fuel) (LegacyWorld.fresh maxQueues external) calls) :=
  horderly.invariant (fun _ _ hsafe horderly => step_safety hfuel hsafe horderly)
    (fresh_safety maxQueues external)

/-- A host with queues of two entries that grants pages for the first few. -/
def pairHost (granted : ℕ) : LegacyHost where
  queueNum _ := 2
  msixConfig := id
  queueMsixVector _ := id
  msixVector _ := virtioMsiNoVector
  grantsInfos := true
  pages i := if i < granted then some (BitVec.ofNat 64 (4096 * (i + 1))) else none

/-- Room for more queues, a start, a stop, and a start that fails. -/
def restart : List LegacyCall :=
  [.reserve (pairHost 2) 9, .findQueues (pairHost 2) 2, .reset, .deleteQueues,
    .findQueues (pairHost 1) 2]

theorem run_legacySafety_restart : LegacySafety
    (run (LegacyWorld.step (2 ^ 16)) (LegacyWorld.fresh 8 false) restart) :=
  run_legacySafety le_rfl 8 false (by decide)

end

end Viosnd.Pci.Legacy
