import Viosnd.Pci.QueueCreation

/-!
# The memory of the queues

The pages and control blocks granted to queues are noted in the infos or given back, except those
of a queue that gets pages without a control block.
-/

namespace Viosnd.Pci

open Ledger

/-- The call comes back. When it fails, all pages and all blocks but that of the infos have come
back once and no queue is left; when it succeeds, the size of every queue is a power of two up to
the size the device offers, and the device was told it. -/
structure CreationRight (h : QueueHost) (nvqs : BitVec 32) (t : IdleTransport) : Prop where
  ends : ∃ fuel, (virtioFindQueues h fuel nvqs t.start).isSome = true
  clean : ∀ fuel status s, virtioFindQueues h fuel nvqs t.start = some (.error status, s) →
    (∀ page < s.pages.granted, s.pages.returned.count page = 1) ∧
    (∀ block < s.blocks.granted, s.infoBlock ≠ some block →
      s.blocks.returned.count block = 1) ∧
    ∀ i, (s.info i).vq = none
  sized : ∀ fuel s, virtioFindQueues h fuel nvqs t.start = some (.ok (), s) →
    ∀ i < nvqs.toNat, (∃ m, (s.info i).num.toNat = 2 ^ m) ∧ (s.info i).num ≤ h.queueSize i ∧
      s.writtenSize i = some (s.info i).num

def Reaches (h : QueueHost) (nvqs : BitVec 32) (t : IdleTransport) (i : ℕ) : Prop :=
  (t.maxQueues < nvqs → h.grantsInfos = true) ∧ h.refusesConfigVector = false ∧
    i < nvqs.toNat ∧ ∀ j < i, Made h j

/-- New infos have a size that does not wrap, and every queue the call comes to is supplied. -/
structure SafeCreation (h : QueueHost) (nvqs : BitVec 32) (t : IdleTransport) : Prop where
  infos : t.maxQueues < nvqs → h.grantsInfos = true →
    nvqs.toNat * queueDescriptorSize.toNat < 2 ^ 32
  queues : ∀ i, Reaches h nvqs t i → Supplied h i

/-! ## The books -/

def heldPages (s : Transport) (i : ℕ) : Option ℕ := (s.info i).vq.bind fun _ => (s.info i).queue

def heldBlocks (s : Transport) (i : ℕ) : Option ℕ := (s.info i).vq.map CreatedQueue.control

/-- All memory is back, noted in the infos or lost. -/
structure Accounted (s : Transport) (lost : List ℕ) : Prop where
  pages : s.pages.Balances (lost ++ inTable (heldPages s) s.maxQueues.toNat)
  blocks : s.blocks.Balances (s.infoBlock.toList ++ inTable (heldBlocks s) s.maxQueues.toNat)
  noted : ∀ i vq, (s.info i).vq = some vq → vq.Sound ∧ i < s.maxQueues.toNat

section

variable {h : QueueHost} {fuel index i count : ℕ} {s s' : Transport} {lost : List ℕ}

structure Sized (h : QueueHost) (s : Transport) (i : ℕ) : Prop where
  pow : ∃ m, (s.info i).num.toNat = 2 ^ m
  le : (s.info i).num ≤ h.queueSize i
  written : s.writtenSize i = some (s.info i).num

theorem Others.tables (hothers : Others index s s') :
    heldPages s' = Function.update (heldPages s) index (heldPages s' index) ∧
      heldBlocks s' = Function.update (heldBlocks s) index (heldBlocks s' index) := by
  have hsame : ∀ table : Transport → ℕ → Option ℕ,
      (∀ j, j ≠ index → table s' j = table s j) →
        table s' = Function.update (table s) index (table s' index) := by
    intro table htable
    funext j
    by_cases hj : j = index
    · rw [hj, Function.update_self]
    · rw [htable j hj, Function.update_of_ne hj]
  constructor
  · apply hsame heldPages
    intro j hj
    unfold heldPages
    rw [hothers.info j hj]
  · apply hsame heldBlocks
    intro j hj
    unfold heldBlocks
    rw [hothers.info j hj]

private theorem Others.tables_eq (hothers : Others index s s') (hempty : (s.info index).vq = none)
    (hempty' : (s'.info index).vq = none) :
    heldPages s' = heldPages s ∧ heldBlocks s' = heldBlocks s := by
  have hnone : ∀ s : Transport, (s.info index).vq = none →
      heldPages s index = none ∧ heldBlocks s index = none := by
    intro s hs
    unfold heldPages heldBlocks
    rw [hs]
    exact ⟨rfl, rfl⟩
  obtain ⟨hpages, hblocks⟩ := hothers.tables
  rw [(hnone s' hempty').1, ← (hnone s hempty).1, Function.update_eq_self] at hpages
  rw [(hnone s' hempty').2, ← (hnone s hempty).2, Function.update_eq_self] at hblocks
  exact ⟨hpages, hblocks⟩

private theorem Accounted.of_books (hacc : Accounted s []) (hothers : Others index s s')
    (hempty : (s.info index).vq = none) (hempty' : (s'.info index).vq = none)
    (hpages : s'.pages.Balances (lost ++ inTable (heldPages s) s.maxQueues.toNat))
    (hblocks : Settled s.blocks s'.blocks) : Accounted s' lost := by
  obtain ⟨hpagesTable, hblocksTable⟩ := hothers.tables_eq hempty hempty'
  refine ⟨?_, ?_, ?_⟩
  · rw [hpagesTable, hothers.maxQueues]
    exact hpages
  · rw [hblocksTable, hothers.maxQueues, hothers.infoBlock]
    exact hblocks _ hacc.blocks
  · intro j vq hvq
    by_cases hj : j = index
    · rw [hj, hempty'] at hvq
      cases hvq
    · rw [hothers.info j hj] at hvq
      rw [hothers.maxQueues]
      exact hacc.noted j vq hvq

/-- The books after a queue was set up. -/
theorem SetupResult.accounted {r : Except QueueStatus Unit × Transport}
    (hresult : SetupResult h index s r) (hacc : Accounted s [])
    (hempty : (s.info index).vq = none) (hindex : index < s.maxQueues.toNat) :
    (r.1 = .ok () ∧ Made h index ∧ Accounted r.2 [] ∧ Sized h r.2 index) ∨
      ∃ status, r.1 = .error status ∧ ¬ Made h index ∧
        ((Supplied h index ∧ Accounted r.2 []) ∨
          (¬ Supplied h index ∧ ∃ page, Accounted r.2 [page])) := by
  cases hresult with
  | @made s' vq num hmade hothers hpages hblocks hinfo hcontrol hsound hpow hle hwritten =>
      left
      obtain ⟨hpagesTable, hblocksTable⟩ := hothers.tables
      have hpage : heldPages s' index = some s.pages.granted := by
        unfold heldPages
        rw [hinfo]
        rfl
      have hblock : heldBlocks s' index = some s.blocks.granted := by
        unfold heldBlocks
        rw [hinfo, ← hcontrol]
        rfl
      have hnone : heldPages s index = none ∧ heldBlocks s index = none := by
        unfold heldPages heldBlocks
        rw [hempty]
        exact ⟨rfl, rfl⟩
      refine ⟨rfl, hmade, ⟨?_, ?_, ?_⟩, ?_⟩
      · rw [hpagesTable, hpage, hothers.maxQueues, hpages]
        exact hacc.pages.grant.of_perm (inTable_put hindex hnone.1 _)
      · rw [hblocksTable, hblock, hothers.maxQueues, hothers.infoBlock, hblocks]
        apply hacc.blocks.grant.of_perm
        apply ((inTable_put hindex hnone.2 _).append_left _).trans
        exact List.perm_middle
      · intro j vq' hvq
        by_cases hj : j = index
        · rw [hj, hinfo] at hvq
          rw [← Option.some.inj hvq, hothers.maxQueues, hj]
          exact ⟨hsound, hindex⟩
        · rw [hothers.info j hj] at hvq
          rw [hothers.maxQueues]
          exact hacc.noted j vq' hvq
      · refine ⟨?_, ?_, ?_⟩
        · rw [hinfo]
          exact hpow
        · rw [hinfo]
          exact hle
        · rw [hinfo]
          exact hwritten
  | @stranded status s' hnot hothers hvq hpages hblocks =>
      right
      refine ⟨status, rfl, fun hmade => hnot hmade.supplied, Or.inr ⟨hnot, s.pages.granted, ?_⟩⟩
      apply hacc.of_books hothers hempty (hvq.trans hempty)
      · rw [hpages]
        exact hacc.pages.grant
      · rw [hblocks]
        exact settled_refl _
  | @failed status s' hnot hsupplied hothers hvq hpages hblocks =>
      right
      refine ⟨status, rfl, hnot, Or.inl ⟨hsupplied, ?_⟩⟩
      exact hacc.of_books hothers hempty (hvq.trans hempty) (hpages _ hacc.pages) hblocks

private theorem delete_accounted (hacc : Accounted s lost) {vq : CreatedQueue}
    (hvq : (s.info index).vq = some vq) (hindex : index < s.maxQueues.toNat)
    (hdelete : vioModernDelVq h fuel vq (s.info index).queue s = some s') :
    Accounted (s'.setInfo index { s'.info index with vq := none }) lost := by
  obtain ⟨-, -, rfl⟩ := Option.map_eq_some_iff.mp hdelete
  have hothers : Others index s (s.setInfo index { s.info index with vq := none }) :=
    ⟨rfl, rfl, rfl, fun _ hj => setInfo_of_ne hj _ _, fun _ _ => rfl⟩
  obtain ⟨hpagesTable, hblocksTable⟩ := hothers.tables
  have hnone : heldPages (s.setInfo index { s.info index with vq := none }) index = none ∧
      heldBlocks (s.setInfo index { s.info index with vq := none }) index = none := by
    unfold heldPages heldBlocks
    rw [setInfo_self]
    exact ⟨rfl, rfl⟩
  rw [hnone.1] at hpagesTable
  rw [hnone.2] at hblocksTable
  have hblock : heldBlocks s index = some vq.control := by
    unfold heldBlocks
    rw [hvq]
    rfl
  have hpage : heldPages s index = (s.info index).queue := by
    unfold heldPages
    rw [hvq]
    rfl
  refine ⟨?_, ?_, ?_⟩
  · change ((s.info index).queue.elim s.pages s.pages.giveBack).Balances
      (lost ++ inTable (heldPages (s.setInfo index { s.info index with vq := none })) _)
    rw [hpagesTable, ← hpage]
    have hsplit := (inTable_split (heldPages s) hindex).append_left lost
    cases hslot : heldPages s index with
    | none =>
        rw [hslot] at hsplit
        exact hacc.pages.of_perm hsplit.symm
    | some page =>
        rw [hslot] at hsplit
        exact hacc.pages.giveBack (hsplit.trans List.perm_middle)
  · change (s.blocks.giveBack vq.control).Balances (s.infoBlock.toList ++
      inTable (heldBlocks (s.setInfo index { s.info index with vq := none })) _)
    rw [hblocksTable]
    apply hacc.blocks.giveBack
    exact ((inTable_take hindex hblock).append_left _).trans List.perm_middle
  · intro j vq' hvq'
    change ((s.setInfo index { s.info index with vq := none }).info j).vq = some vq' at hvq'
    by_cases hj : j = index
    · rw [hj, setInfo_self] at hvq'
      cases hvq'
    · rw [setInfo_of_ne hj] at hvq'
      exact hacc.noted j vq' hvq'

private theorem deleteFrom_accounted (hacc : Accounted s lost)
    (hfits : i + count = s.maxQueues.toNat) (hbefore : ∀ j < i, (s.info j).vq = none)
    (hdelete : deleteFrom h fuel count i s = some s') :
    Accounted s' lost ∧ (∀ j, (s'.info j).vq = none) ∧ (count = 0 ∨ i + count ≤ s.infoRoom) := by
  induction count generalizing i s with
  | zero =>
      rw [← Option.some.inj hdelete]
      refine ⟨hacc, fun j => ?_, Or.inl rfl⟩
      by_contra hsome
      obtain ⟨vq, hvq⟩ := Option.ne_none_iff_exists'.mp hsome
      have hinside := (hacc.noted j vq hvq).2
      exact hsome (hbefore j (by omega))
  | succ count ih =>
      rw [deleteFrom] at hdelete
      split_ifs at hdelete with hroom
      cases hvq : (s.info i).vq with
      | none =>
          rw [hvq] at hdelete
          have hbefore' : ∀ j < i + 1, (s.info j).vq = none := by
            intro j hj
            by_cases hself : j = i
            · rw [hself]
              exact hvq
            · exact hbefore j (by omega)
          obtain ⟨hacc', hnone, hinside⟩ := ih hacc (by omega) hbefore' hdelete
          exact ⟨hacc', hnone, Or.inr (by omega)⟩
      | some vq =>
          rw [hvq] at hdelete
          obtain ⟨s1, hone, hrest⟩ := Option.bind_eq_some_iff.mp hdelete
          have hacc1 := delete_accounted hacc hvq (by omega) hone
          obtain ⟨-, -, hs1⟩ := Option.map_eq_some_iff.mp hone
          rw [← hs1] at hacc1 hrest
          have hfits' : i + 1 + count = s.maxQueues.toNat := by omega
          have hbefore' : ∀ j < i + 1,
              ((s.setInfo i { s.info i with vq := none }).info j).vq = none := by
            intro j hj
            by_cases hself : j = i
            · rw [hself, setInfo_self]
            · rw [setInfo_of_ne hself]
              exact hbefore j (by omega)
          obtain ⟨hacc', hnone, hinside⟩ := ih hacc1 hfits' hbefore' hrest
          change count = 0 ∨ i + 1 + count ≤ s.infoRoom at hinside
          exact ⟨hacc', hnone, Or.inr (by omega)⟩

private theorem deleteFrom_isSome (hacc : Accounted s lost) (hfits : i + count = s.maxQueues.toNat)
    (hroom : s.maxQueues.toNat ≤ s.infoRoom) (hfuel : 2 ^ 16 ≤ fuel) :
    (deleteFrom h fuel count i s).isSome = true := by
  induction count generalizing i s with
  | zero => rfl
  | succ count ih =>
      rw [deleteFrom, if_neg (by omega)]
      cases hvq : (s.info i).vq with
      | none => exact ih hacc (by omega) hroom
      | some vq =>
          have hone : ∃ s1, vioModernDelVq h fuel vq (s.info i).queue s = some s1 := by
            unfold vioModernDelVq
            rw [(hacc.noted i vq hvq).1.shutdown hfuel]
            exact ⟨_, rfl⟩
          obtain ⟨s1, hone⟩ := hone
          have hacc1 := delete_accounted hacc hvq (by omega) hone
          dsimp only
          rw [hone, Option.bind_some]
          obtain ⟨-, -, rfl⟩ := Option.map_eq_some_iff.mp hone
          apply ih hacc1
          · change i + 1 + count = s.maxQueues.toNat
            omega
          · exact hroom

inductive SetupEnd (h : QueueHost) (i count : ℕ) (s : Transport) :
    Except QueueStatus Unit × Transport → Prop where
  | all {s' : Transport} (hmade : ∀ j, i ≤ j → j < i + count → Made h j ∧ Sized h s' j)
      (hbefore : ∀ j < i, s'.info j = s.info j ∧ s'.writtenSize j = s.writtenSize j) :
      SetupEnd h i count s (.ok (), s')
  | stopped {status : QueueStatus} {s' : Transport} (j : ℕ) (hle : i ≤ j) (hlt : j < i + count)
      (hmade : ∀ k, i ≤ k → k < j → Made h k) (hnot : ¬ Made h j)
      (hbooks : (Supplied h j ∧ Accounted s' []) ∨ (¬ Supplied h j ∧ ∃ page, Accounted s' [page]))
      (hmax : s'.maxQueues = s.maxQueues) (hroom : s'.infoRoom = s.infoRoom) :
      SetupEnd h i count s (.error status, s')

theorem SetupResult.others {r : Except QueueStatus Unit × Transport}
    (hresult : SetupResult h index s r) : Others index s r.2 := by
  cases hresult with
  | made _ hothers => exact hothers
  | stranded _ hothers => exact hothers
  | failed _ _ hothers => exact hothers

private theorem setupFrom_end {r : Except QueueStatus Unit × Transport} (hacc : Accounted s [])
    (hempty : ∀ j, i ≤ j → (s.info j).vq = none) (hfits : i + count ≤ s.maxQueues.toNat)
    (hsetup : setupFrom h fuel count i s = some r) : SetupEnd h i count s r := by
  induction count generalizing i s with
  | zero =>
      rw [← Option.some.inj hsetup]
      apply SetupEnd.all
      · intro j hle hlt
        omega
      · exact fun _ _ => ⟨rfl, rfl⟩
  | succ count ih =>
      obtain ⟨⟨r1, s1⟩, hone, hrest⟩ := Option.bind_eq_some_iff.mp hsetup
      have hresult := vpSetupVq_result hone
      have hothers := hresult.others
      rcases hresult.accounted hacc (hempty i (Nat.le_refl i)) (by omega) with
        ⟨hok, hmade, hacc1, hsized⟩ | ⟨status, herror, hnot, hbooks⟩
      · change r1 = .ok () at hok
        subst hok
        have hempty1 : ∀ j, i + 1 ≤ j → (s1.info j).vq = none := by
          intro j hj
          rw [hothers.info j (by omega)]
          exact hempty j (by omega)
        have hfits1 : i + 1 + count ≤ s1.maxQueues.toNat := by
          rw [hothers.maxQueues]
          omega
        cases ih hacc1 hempty1 hfits1 hrest with
        | @all s' hall hbefore =>
            apply SetupEnd.all
            · intro j hle hlt
              rcases Nat.eq_or_lt_of_le hle with heq | hgt
              · obtain ⟨hinfo, hwritten⟩ := hbefore i (Nat.lt_succ_self i)
                rw [← heq]
                refine ⟨hmade, ?_, ?_, ?_⟩
                · rw [hinfo]
                  exact hsized.pow
                · rw [hinfo]
                  exact hsized.le
                · rw [hinfo, hwritten]
                  exact hsized.written
              · exact hall j hgt (by omega)
            · intro j hj
              obtain ⟨hinfo, hwritten⟩ := hbefore j (by omega)
              rw [hinfo, hwritten]
              exact ⟨hothers.info j (by omega), hothers.writtenSize j (by omega)⟩
        | @stopped status s' j hle hlt hmade' hnot hbooks hmax hroom =>
            apply SetupEnd.stopped j (by omega) (by omega) _ hnot hbooks
              (hmax.trans hothers.maxQueues) (hroom.trans hothers.infoRoom)
            intro k hik hkj
            rcases Nat.eq_or_lt_of_le hik with heq | hgt
            · rw [← heq]
              exact hmade
            · exact hmade' k hgt hkj
      · change r1 = .error status at herror
        subst herror
        rw [← Option.some.inj hrest]
        apply SetupEnd.stopped i (Nat.le_refl i) (by omega) _ hnot hbooks hothers.maxQueues
          hothers.infoRoom
        intro k hik hki
        omega

/-- With enough turns the loop ends, as long as the queues it comes to are supplied. -/
private theorem setupFrom_isSome (hroom : i + count ≤ s.infoRoom) (hfuel : 2 ^ 16 ≤ fuel)
    (hsupplied : ∀ j, i ≤ j → j < i + count → (∀ k, i ≤ k → k < j → Made h k) → Supplied h j) :
    (setupFrom h fuel count i s).isSome = true := by
  induction count generalizing i s with
  | zero => rfl
  | succ count ih =>
      have hfirst : Supplied h i := by
        apply hsupplied i (Nat.le_refl i) (by omega)
        intro k hik hki
        omega
      obtain ⟨⟨r1, s1⟩, hone⟩ : ∃ r, vpSetupVq h fuel i (h.msixVector (some i)) s = some r :=
        Option.isSome_iff_exists.mp (vpSetupVq_isSome (by omega) hfirst hfuel _)
      rw [setupFrom, hone, Option.bind_some]
      cases vpSetupVq_result hone with
      | made hmade hothers =>
          apply ih
          · rw [hothers.infoRoom]
            omega
          · intro j hij hjc hbefore
            apply hsupplied j (by omega) (by omega)
            intro k hik hkj
            rcases Nat.eq_or_lt_of_le hik with heq | hgt
            · rw [← heq]
              exact hmade
            · exact hbefore k hgt hkj
      | stranded => rfl
      | failed => rfl

end

/-! ## The whole call -/

section

variable {h : QueueHost} {nvqs : BitVec 32} {t : IdleTransport} {fuel : ℕ} {s s' : Transport}

/-- A transport without queues that has infos for the call. -/
structure Ready (nvqs : BitVec 32) (s : Transport) : Prop where
  books : Accounted s []
  empty : ∀ i, (s.info i).vq = none
  fits : nvqs ≤ s.maxQueues

private theorem held_empty (hempty : ∀ i, (s.info i).vq = none) :
    (∀ i, heldPages s i = none) ∧ ∀ i, heldBlocks s i = none := by
  unfold heldPages heldBlocks
  simp [hempty]

private theorem Ready.of_empty (hempty : ∀ i, (s.info i).vq = none) (hfits : nvqs ≤ s.maxQueues)
    (hpages : s.pages = ⟨0, []⟩) (hblocks : s.blocks.Balances s.infoBlock.toList) :
    Ready nvqs s := by
  obtain ⟨hnoPages, hnoBlocks⟩ := held_empty hempty
  refine ⟨⟨?_, ?_, ?_⟩, hempty, hfits⟩
  · rw [inTable_empty hnoPages, hpages]
    exact List.Perm.refl _
  · rw [inTable_empty hnoBlocks, List.append_nil]
    exact hblocks
  · intro i vq hvq
    rw [hempty i] at hvq
    cases hvq

/-- No queue is noted, and the memory is back or lost. -/
structure Cleared (s : Transport) (lost : List ℕ) : Prop where
  pages : s.pages.Balances lost
  blocks : s.blocks.Balances s.infoBlock.toList
  empty : ∀ i, (s.info i).vq = none

private theorem start_cleared (t : IdleTransport) : Cleared t.start [] := by
  refine ⟨List.Perm.refl _, ?_, fun _ => rfl⟩
  unfold IdleTransport.start
  cases t.external <;> exact List.Perm.refl _

theorem Accounted.cleared (hacc : Accounted s lost) (hempty : ∀ i, (s.info i).vq = none) :
    Cleared s lost := by
  obtain ⟨hnoPages, hnoBlocks⟩ := held_empty hempty
  have hpages := hacc.pages
  have hblocks := hacc.blocks
  rw [inTable_empty hnoPages, List.append_nil] at hpages
  rw [inTable_empty hnoBlocks, List.append_nil] at hblocks
  exact ⟨hpages, hblocks, hempty⟩

private theorem reserve_result (h : QueueHost) (nvqs : BitVec 32) (t : IdleTransport) :
    (virtioReserveQueueMemory h nvqs t.start = (.error .insufficientResources, t.start) ∧
        t.maxQueues < nvqs ∧ h.grantsInfos = false) ∨
      ∃ s, virtioReserveQueueMemory h nvqs t.start = (.ok (), s) ∧ Ready nvqs s ∧
        ((¬ t.maxQueues < nvqs ∧ s.infoRoom = s.maxQueues.toNat) ∨
          (t.maxQueues < nvqs ∧ h.grantsInfos = true ∧ s.maxQueues = nvqs ∧ s.infoRoom =
            (nvqs * queueDescriptorSize).toNat / queueDescriptorSize.toNat)) := by
  unfold virtioReserveQueueMemory
  by_cases hmore : t.maxQueues < nvqs
  · rw [if_pos (show t.start.maxQueues < nvqs from hmore)]
    cases hgrant : h.grantsInfos with
    | false => exact Or.inl ⟨if_neg Bool.false_ne_true, hmore, rfl⟩
    | true =>
        right
        refine ⟨_, if_pos rfl, ?_, Or.inr ⟨hmore, rfl, rfl, rfl⟩⟩
        · apply Ready.of_empty
          · exact fun _ => rfl
          · exact BitVec.le_refl nvqs
          · rfl
          · have hgranted := (start_cleared t).blocks.grant
            dsimp only
            cases hblock : t.start.infoBlock with
            | none =>
                rw [hblock] at hgranted
                exact hgranted
            | some old =>
                rw [hblock] at hgranted
                exact hgranted.giveBack (List.Perm.swap _ _ _)
  · rw [if_neg (show ¬ t.start.maxQueues < nvqs from hmore)]
    right
    refine ⟨t.start, rfl, ?_, Or.inl ⟨hmore, rfl⟩⟩
    exact Ready.of_empty (fun _ => rfl) (BitVec.not_lt.mp hmore) rfl (start_cleared t).blocks

private theorem errorFind_result {status : QueueStatus} {lost : List ℕ} (hacc : Accounted s lost)
    {r : Except QueueStatus Unit × Transport} (herror : errorFind h fuel status s = some r) :
    ∃ s', r = (.error status, s') ∧ Cleared s' lost ∧ s.maxQueues.toNat ≤ s.infoRoom := by
  obtain ⟨s', hdelete, hr⟩ := Option.map_eq_some_iff.mp herror
  obtain ⟨hacc', hempty, hinside⟩ := deleteFrom_accounted hacc (Nat.zero_add _)
    (fun j hj => absurd hj (Nat.not_lt_zero j)) hdelete
  exact ⟨s', hr.symm, hacc'.cleared hempty, by omega⟩

/-- How a call ends that has reserved memory for its infos. -/
inductive CallEnd (h : QueueHost) (nvqs : BitVec 32) (s : Transport) :
    Except QueueStatus Unit × Transport → Prop where
  | succeeded {s' : Transport} (hmade : ∀ j < nvqs.toNat, Made h j ∧ Sized h s' j) :
      CallEnd h nvqs s (.ok (), s')
  | cleaned {status : QueueStatus} {s' : Transport} (hcleared : Cleared s' [])
      (hroom : s.maxQueues.toNat ≤ s.infoRoom)
      (hwhy : h.refusesConfigVector = true ∨
        ∃ j, (∀ k < j, Made h k) ∧ ¬ Made h j ∧ Supplied h j) :
      CallEnd h nvqs s (.error status, s')
  | leaked {status : QueueStatus} {s' : Transport} {page j : ℕ} (hcleared : Cleared s' [page])
      (hroom : s.maxQueues.toNat ≤ s.infoRoom) (hconfig : h.refusesConfigVector = false)
      (hj : j < nvqs.toNat) (hmade : ∀ k < j, Made h k) (hnot : ¬ Supplied h j) :
      CallEnd h nvqs s (.error status, s')

private theorem find_end (hreserve : virtioReserveQueueMemory h nvqs t.start = (.ok (), s))
    (hready : Ready nvqs s) {r : Except QueueStatus Unit × Transport}
    (hfind : virtioFindQueues h fuel nvqs t.start = some r) : CallEnd h nvqs s r := by
  unfold virtioFindQueues at hfind
  rw [hreserve] at hfind
  dsimp only at hfind
  have hfits : 0 + nvqs.toNat ≤ s.maxQueues.toNat := by
    rw [Nat.zero_add]
    exact BitVec.le_def.mp hready.fits
  cases hconfig : h.refusesConfigVector with
  | true =>
      rw [hconfig, if_pos rfl] at hfind
      obtain ⟨s', rfl, hcleared, hroom⟩ := errorFind_result hready.books hfind
      exact CallEnd.cleaned hcleared hroom (Or.inl hconfig)
  | false =>
      rw [hconfig, if_neg Bool.false_ne_true] at hfind
      obtain ⟨r1, hsetup, hrest⟩ := Option.bind_eq_some_iff.mp hfind
      cases setupFrom_end hready.books (fun j _ => hready.empty j) hfits hsetup with
      | all hmade =>
          rw [← Option.some.inj hrest]
          exact CallEnd.succeeded fun j hj => hmade j (Nat.zero_le j) (by omega)
      | stopped j _ hlt hmade hnot hbooks hmax hroom =>
          dsimp only at hrest
          have hbefore : ∀ k < j, Made h k := fun k hk => hmade k (Nat.zero_le k) hk
          rcases hbooks with ⟨hsupplied, hacc⟩ | ⟨hstranded, page, hacc⟩
          · obtain ⟨s', rfl, hcleared, hinside⟩ := errorFind_result hacc hrest
            rw [hmax, hroom] at hinside
            exact CallEnd.cleaned hcleared hinside (Or.inr ⟨j, hbefore, hnot, hsupplied⟩)
          · obtain ⟨s', rfl, hcleared, hinside⟩ := errorFind_result hacc hrest
            rw [hmax, hroom] at hinside
            exact CallEnd.leaked hcleared hinside hconfig (by omega) hbefore hstranded

private theorem find_isSome (hreserve : virtioReserveQueueMemory h nvqs t.start = (.ok (), s))
    (hready : Ready nvqs s) (hroom : s.maxQueues.toNat ≤ s.infoRoom)
    (hsupplied : h.refusesConfigVector = false →
      ∀ j < nvqs.toNat, (∀ k < j, Made h k) → Supplied h j) :
    (virtioFindQueues h (2 ^ 16) nvqs t.start).isSome = true := by
  have herror : ∀ status s' lost, Accounted s' lost → s'.maxQueues.toNat ≤ s'.infoRoom →
      (errorFind h (2 ^ 16) status s').isSome = true := by
    intro status s' lost hacc hinside
    unfold errorFind virtioDeleteQueues
    rw [Option.isSome_map]
    exact deleteFrom_isSome hacc (Nat.zero_add _) hinside (Nat.le_refl _)
  have hfits := BitVec.le_def.mp hready.fits
  unfold virtioFindQueues
  rw [hreserve]
  dsimp only
  cases hconfig : h.refusesConfigVector with
  | true =>
      rw [if_pos rfl]
      exact herror _ s _ hready.books hroom
  | false =>
      rw [if_neg Bool.false_ne_true]
      obtain ⟨r1, hsetup⟩ : ∃ r, setupFrom h (2 ^ 16) nvqs.toNat 0 s = some r := by
        apply Option.isSome_iff_exists.mp
        apply setupFrom_isSome (by omega) (Nat.le_refl (2 ^ 16))
        intro j _ hj hmade
        exact hsupplied hconfig j (by omega) fun k hk => hmade k (Nat.zero_le k) hk
      rw [hsetup, Option.bind_some]
      cases setupFrom_end hready.books (fun j _ => hready.empty j) (by omega) hsetup with
      | all => rfl
      | stopped j _ _ _ _ hbooks hmax hinfoRoom =>
          rcases hbooks with ⟨-, hacc⟩ | ⟨-, page, hacc⟩
          · exact herror _ _ _ hacc (by rw [hmax, hinfoRoom]; exact hroom)
          · exact herror _ _ _ hacc (by rw [hmax, hinfoRoom]; exact hroom)

private theorem Cleared.all_back (hcleared : Cleared s []) :
    (∀ page < s.pages.granted, s.pages.returned.count page = 1) ∧
      (∀ block < s.blocks.granted, s.infoBlock ≠ some block →
        s.blocks.returned.count block = 1) ∧ ∀ i, (s.info i).vq = none := by
  refine ⟨?_, ?_, hcleared.empty⟩
  · intro page hpage
    exact hcleared.pages.returned_once hpage List.not_mem_nil
  · intro block hblock hother
    apply hcleared.blocks.returned_once hblock
    intro hmem
    exact hother (Option.mem_toList.mp hmem)

end

/-- New infos whose size wraps are too few. -/
private theorem infoRoom_lt {nvqs : BitVec 32}
    (hwrap : 2 ^ 32 ≤ nvqs.toNat * queueDescriptorSize.toNat) :
    (nvqs * queueDescriptorSize).toNat / queueDescriptorSize.toNat < nvqs.toNat := by
  have hsize : queueDescriptorSize.toNat = 24 := rfl
  rw [hsize] at hwrap
  rw [BitVec.toNat_mul, hsize]
  have hmod := Nat.mod_lt (nvqs.toNat * 24) (Nat.two_pow_pos 32)
  omega

private theorem infoRoom_eq {nvqs : BitVec 32}
    (hfits : nvqs.toNat * queueDescriptorSize.toNat < 2 ^ 32) :
    (nvqs * queueDescriptorSize).toNat / queueDescriptorSize.toNat = nvqs.toNat := by
  have hsize : queueDescriptorSize.toNat = 24 := rfl
  rw [BitVec.toNat_mul, Nat.mod_eq_of_lt hfits, hsize]
  exact Nat.mul_div_cancel _ (by decide)

/-- Queue creation is right exactly when the size of new infos does not wrap and every queue that
the call comes to, if it gets pages at all, gets them for one entry at least and a control block
with them. -/
theorem creationRight_iff (h : QueueHost) (nvqs : BitVec 32) (t : IdleTransport) :
    CreationRight h nvqs t ↔ SafeCreation h nvqs t := by
  constructor
  · intro hright
    obtain ⟨fuel, hends⟩ := hright.ends
    obtain ⟨r, hfind⟩ := Option.isSome_iff_exists.mp hends
    constructor
    · intro hmore hgrant
      by_contra hwrap
      rcases reserve_result h nvqs t with ⟨-, -, hrefused⟩ | ⟨s, hreserve, hready, hroom⟩
      · rw [hgrant] at hrefused
        cases hrefused
      rcases hroom with ⟨hfew, -⟩ | ⟨-, -, hmax, hroom⟩
      · exact hfew hmore
      have hshort := infoRoom_lt (Nat.not_lt.mp hwrap)
      rw [← hroom, ← hmax] at hshort
      cases find_end hreserve hready hfind with
      | succeeded hmade =>
          have hsize : queueDescriptorSize.toNat = 24 := rfl
          have hmany := Nat.not_lt.mp hwrap
          rw [hsize] at hmany
          have hlast := (hmade (nvqs.toNat - 1) (by omega)).1.1.1
          have hfew := h.numQueues.isLt
          omega
      | cleaned _ hinside => exact absurd hshort (Nat.not_lt.mpr hinside)
      | leaked _ hinside => exact absurd hshort (Nat.not_lt.mpr hinside)
    · intro i hreaches
      obtain ⟨hgrant, hconfig, hi, hmadeBefore⟩ := hreaches
      rcases reserve_result h nvqs t with ⟨-, hmore, hrefused⟩ | ⟨s, hreserve, hready, -⟩
      · rw [hgrant hmore] at hrefused
        cases hrefused
      cases find_end hreserve hready hfind with
      | succeeded hmade => exact (hmade i hi).1.supplied
      | cleaned _ _ hwhy =>
          rcases hwhy with hrefuses | ⟨j, hmade, hnot, hsupplied⟩
          · rw [hconfig] at hrefuses
            cases hrefuses
          · rcases Nat.lt_trichotomy i j with hlt | heq | hgt
            · exact (hmade i hlt).supplied
            · rw [heq]
              exact hsupplied
            · exact absurd (hmadeBefore j hgt) hnot
      | @leaked status s' page j hcleared =>
          obtain ⟨hgranted, hout⟩ := hcleared.pages.outstanding List.mem_cons_self
          have hback := (hright.clean fuel status s' hfind).1 page hgranted
          rw [hout] at hback
          cases hback
  · intro hsafe
    have hsupplied : (t.maxQueues < nvqs → h.grantsInfos = true) →
        h.refusesConfigVector = false → ∀ j < nvqs.toNat, (∀ k < j, Made h k) → Supplied h j :=
      fun hgrant hconfig j hj hmade => hsafe.queues j ⟨hgrant, hconfig, hj, hmade⟩
    rcases reserve_result h nvqs t with ⟨hrefused, -⟩ | ⟨s, hreserve, hready, hroom⟩
    · have hfind : ∀ fuel, virtioFindQueues h fuel nvqs t.start =
          some (.error .insufficientResources, t.start) := by
        intro fuel
        unfold virtioFindQueues
        rw [hrefused]
      refine ⟨⟨0, ?_⟩, ?_, ?_⟩
      · rw [hfind]
        rfl
      · intro fuel status s hs
        rw [hfind] at hs
        obtain ⟨-, rfl⟩ := Prod.mk.inj (Option.some.inj hs)
        exact (start_cleared t).all_back
      · intro fuel s hs
        rw [hfind] at hs
        cases hs
    · have hgrant : t.maxQueues < nvqs → h.grantsInfos = true := by
        intro hmore
        rcases hroom with ⟨hfew, -⟩ | ⟨-, hgrant, -⟩
        · exact absurd hmore hfew
        · exact hgrant
      have hinside : s.maxQueues.toNat ≤ s.infoRoom := by
        rcases hroom with ⟨-, hroom⟩ | ⟨hmore, hgrant, hmax, hroom⟩
        · exact Nat.le_of_eq hroom.symm
        · rw [hroom, hmax, infoRoom_eq (hsafe.infos hmore hgrant)]
      refine ⟨⟨2 ^ 16, find_isSome hreserve hready hinside ?_⟩, ?_, ?_⟩
      · exact hsupplied hgrant
      · intro fuel status s' hs
        cases find_end hreserve hready hs with
        | cleaned hcleared => exact hcleared.all_back
        | leaked _ _ hconfig hj hmade hnot =>
            exact absurd (hsupplied hgrant hconfig _ hj hmade) hnot
      · intro fuel s' hs i hi
        cases find_end hreserve hready hs with
        | succeeded hmade =>
            obtain ⟨hpow, hle, hwritten⟩ := (hmade i hi).2
            exact ⟨hpow, hle, hwritten⟩

/-- A host that grants pages, but no control block. -/
def stingyHost : QueueHost where
  device := smallDevice
  vdev := smallMapped
  packedRing := false
  numQueues := 4
  queueSize _ := 64
  queueNotifyOff _ := 0
  msixConfig := id
  queueMsixVector _ := id
  msixVector _ := virtioMsiNoVector
  grantsInfos := true
  grantsPages _ _ := true
  grantsControl _ := false

/-- The pages of the first queue stay granted when the call fails. -/
theorem stingyHost_leaks :
    ¬ CreationRight stingyHost 4 ⟨8, false, fun _ => 0, fun _ => none⟩ := by
  intro hright
  have hfind : ∃ status s, virtioFindQueues stingyHost 1 4
      (IdleTransport.start ⟨8, false, fun _ => 0, fun _ => none⟩) = some (.error status, s) ∧
        s.pages = ⟨1, []⟩ := ⟨_, _, rfl, rfl⟩
  obtain ⟨status, s, hfind, hpages⟩ := hfind
  have hback := (hright.clean 1 status s hfind).1 0
  rw [hpages] at hback
  exact absurd (hback Nat.zero_lt_one) (by decide)

end Viosnd.Pci
