import Mathlib.Data.List.Perm.Basic

/-!
# Buffers lent to a device

A driver lends buffers to a device and takes them back. A buffer is out on loan from the moment it
is lent until the device returns it, or gives up everything it holds. The driver respects the
loans when it reuses or lends again only buffers that are not out. Histories are newest first.
-/

namespace Loans

variable {β : Type*}

/-- What happens to buffers between a driver and a device. -/
inductive Event (β : Type*) where
  /-- The driver hands the buffer to the device. -/
  | lend (b : β)
  /-- The device returns the buffer. -/
  | giveBack (b : β)
  /-- The device gives up every buffer it holds. -/
  | giveUpAll
  /-- The driver treats the buffer as its own again. -/
  | reuse (b : β)

/-- The event needs the buffer to be the driver's own. -/
def Event.Claims (b : β) : Event β → Prop
  | .lend b' => b' = b
  | .reuse b' => b' = b
  | .giveBack _ => False
  | .giveUpAll => False

/-- The buffer is out on loan at the end of the history. -/
def Out (b : β) : List (Event β) → Prop
  | [] => False
  | .lend b' :: older => b' = b ∨ Out b older
  | .giveBack b' :: older => b' ≠ b ∧ Out b older
  | .giveUpAll :: _ => False
  | .reuse _ :: older => Out b older

/-- No event of the history claims a buffer that is out on loan. -/
def Respected : List (Event β) → Prop
  | [] => True
  | e :: older => (∀ b, e.Claims b → ¬ Out b older) ∧ Respected older

@[simp] theorem out_nil (b : β) : ¬ Out b [] := id

@[simp] theorem out_lend (b b' : β) (older : List (Event β)) :
    Out b (.lend b' :: older) ↔ b' = b ∨ Out b older := Iff.rfl

@[simp] theorem out_giveBack (b b' : β) (older : List (Event β)) :
    Out b (.giveBack b' :: older) ↔ b' ≠ b ∧ Out b older := Iff.rfl

@[simp] theorem out_giveUpAll (b : β) (older : List (Event β)) :
    ¬ Out b (.giveUpAll :: older) := id

@[simp] theorem out_reuse (b b' : β) (older : List (Event β)) :
    Out b (.reuse b' :: older) ↔ Out b older := Iff.rfl

@[simp] theorem respected_nil : Respected ([] : List (Event β)) := trivial

@[simp] theorem respected_lend (b : β) (older : List (Event β)) :
    Respected (.lend b :: older) ↔ ¬ Out b older ∧ Respected older := by
  simp [Respected, Event.Claims]

@[simp] theorem respected_reuse (b : β) (older : List (Event β)) :
    Respected (.reuse b :: older) ↔ ¬ Out b older ∧ Respected older := by
  simp [Respected, Event.Claims]

@[simp] theorem respected_giveBack (b : β) (older : List (Event β)) :
    Respected (.giveBack b :: older) ↔ Respected older := by
  simp [Respected, Event.Claims]

@[simp] theorem respected_giveUpAll (older : List (Event β)) :
    Respected (.giveUpAll :: older) ↔ Respected older := by
  simp [Respected, Event.Claims]

instance outDecidable [DecidableEq β] (b : β) (history : List (Event β)) :
    Decidable (Out b history) :=
  match history with
  | [] => isFalse id
  | .lend b' :: older =>
      have := outDecidable b older
      inferInstanceAs (Decidable (b' = b ∨ Out b older))
  | .giveBack b' :: older =>
      have := outDecidable b older
      inferInstanceAs (Decidable (b' ≠ b ∧ Out b older))
  | .giveUpAll :: _ => isFalse id
  | .reuse _ :: older => outDecidable b older

instance respectedDecidable [DecidableEq β] (history : List (Event β)) :
    Decidable (Respected history) :=
  match history with
  | [] => isTrue trivial
  | .lend b :: older =>
      have := respectedDecidable older
      decidable_of_iff _ (respected_lend b older).symm
  | .giveBack b :: older =>
      have := respectedDecidable older
      decidable_of_iff _ (respected_giveBack b older).symm
  | .giveUpAll :: older =>
      have := respectedDecidable older
      decidable_of_iff _ (respected_giveUpAll older).symm
  | .reuse b :: older =>
      have := respectedDecidable older
      decidable_of_iff _ (respected_reuse b older).symm

/-- A buffer is out exactly when it was lent and since then neither returned nor given up. -/
theorem out_iff (b : β) (history : List (Event β)) :
    Out b history ↔ ∃ newer older, history = newer ++ .lend b :: older ∧
      .giveBack b ∉ newer ∧ .giveUpAll ∉ newer := by
  induction history with
  | nil => simp
  | cons e older ih =>
      constructor
      · intro hout
        by_cases he : e = .lend b
        · exact ⟨[], older, by rw [he]; rfl, by simp, by simp⟩
        · have hold : Out b older ∧ e ≠ .giveBack b ∧ e ≠ .giveUpAll := by
            cases e with
            | lend b' =>
                have hne : b' ≠ b := fun h => he (by rw [h])
                exact ⟨hout.resolve_left hne, by simp, by simp⟩
            | giveBack b' => exact ⟨hout.2, by simpa using hout.1, by simp⟩
            | giveUpAll => exact hout.elim
            | reuse b' => exact ⟨hout, by simp, by simp⟩
          obtain ⟨newer, rest, hsplit, hback, hall⟩ := ih.mp hold.1
          refine ⟨e :: newer, rest, by rw [hsplit]; rfl, ?_, ?_⟩
          · simpa [hback] using fun h => hold.2.1 h.symm
          · simpa [hall] using fun h => hold.2.2 h.symm
      · rintro ⟨newer, rest, hsplit, hback, hall⟩
        cases newer with
        | nil =>
            obtain ⟨rfl, -⟩ := List.cons.inj hsplit
            exact Or.inl rfl
        | cons e' newer =>
            obtain ⟨rfl, hrest⟩ := List.cons.inj hsplit
            have hold : Out b older := ih.mpr ⟨newer, rest, hrest,
              fun h => hback (List.mem_cons_of_mem _ h), fun h => hall (List.mem_cons_of_mem _ h)⟩
            cases e with
            | lend b' => exact Or.inr hold
            | giveBack b' => exact ⟨fun h => hback (by simp [h]), hold⟩
            | giveUpAll => exact absurd List.mem_cons_self hall
            | reuse b' => exact hold

/-- Respecting the loans, event by event: whatever the driver claims was not out at that point. -/
theorem respected_iff (history : List (Event β)) :
    Respected history ↔ ∀ newer e older, history = newer ++ e :: older →
      ∀ b, e.Claims b → ¬ Out b older := by
  induction history with
  | nil => simp
  | cons e history ih =>
      constructor
      · rintro ⟨hhead, htail⟩ newer e' older hsplit b hb
        cases newer with
        | nil =>
            obtain ⟨rfl, rfl⟩ := List.cons.inj hsplit
            exact hhead b hb
        | cons e'' newer =>
            exact ih.mp htail newer e' older (List.cons.inj hsplit).2 b hb
      · intro hall
        exact ⟨hall [] e history rfl, ih.mpr fun newer e' older hsplit =>
          hall (e :: newer) e' older (by rw [hsplit]; rfl)⟩

/-! ## Lent buffers in a queue -/

/-- The driver knows of every buffer that is out, and has respected the loans so far. -/
structure Covered (lent : List β) (history : List (Event β)) : Prop where
  known : ∀ b, Out b history → b ∈ lent
  respected : Respected history

section

variable {lent lent' : List β} {history : List (Event β)} {b : β}

theorem covered_nil (lent : List β) : Covered lent ([] : List (Event β)) :=
  ⟨fun _ h => h.elim, trivial⟩

variable (h : Covered lent history)
include h

theorem Covered.lend (hb : b ∉ lent) : Covered (lent ++ [b]) (.lend b :: history) := by
  constructor
  · rintro c (rfl | hout)
    · exact List.mem_append_right _ (List.mem_singleton_self _)
    · exact List.mem_append_left _ (h.known c hout)
  · rw [respected_lend]
    exact ⟨fun hout => hb (h.known b hout), h.respected⟩

theorem Covered.reuse (hb : b ∉ lent) : Covered lent (.reuse b :: history) := by
  refine ⟨h.known, ?_⟩
  rw [respected_reuse]
  exact ⟨fun hout => hb (h.known b hout), h.respected⟩

theorem Covered.giveBack {k : ℕ} (hk : lent[k]? = some b) :
    Covered (lent.eraseIdx k) (.giveBack b :: history) := by
  constructor
  · rintro c ⟨hne, hout⟩
    obtain ⟨hlt, hget⟩ := List.getElem?_eq_some_iff.mp hk
    have hperm := List.getElem_cons_eraseIdx_perm hlt
    rw [hget] at hperm
    rcases List.mem_cons.mp (hperm.mem_iff.mpr (h.known c hout)) with rfl | hrest
    · exact absurd rfl hne
    · exact hrest
  · rw [respected_giveBack]
    exact h.respected

theorem Covered.giveUpAll : Covered lent (.giveUpAll :: history) := by
  refine ⟨fun _ hout => hout.elim, ?_⟩
  rw [respected_giveUpAll]
  exact h.respected

theorem Covered.reuse_returned {k : ℕ} (hk : lent[k]? = some b) :
    Covered (lent.eraseIdx k) (.reuse b :: .giveBack b :: history) := by
  obtain ⟨hknown, hrespected⟩ := h.giveBack hk
  refine ⟨hknown, ?_⟩
  rw [respected_reuse]
  exact ⟨fun hout => hout.1 rfl, hrespected⟩

theorem Covered.reuse_of_none (hnone : ∀ c, ¬ Out c history) (lent' : List β) (b : β) :
    Covered lent' (.reuse b :: history) := by
  refine ⟨fun c hout => absurd hout (hnone c), ?_⟩
  rw [respected_reuse]
  exact ⟨hnone b, h.respected⟩

end

end Loans
