import Mathlib.Data.List.Basic

/-!
# Dialogues

A routine that asks one question at a time and goes on with the answer. Its questions with their
answers are a list of exchanges, oldest first.
-/

inductive Dialogue (Q A R : Type*) where
  | done (result : R)
  | ask (question : Q) (next : A → Dialogue Q A R)

namespace Dialogue

variable {Q A R S : Type*} {d d' : Dialogue Q A R} {log : List (Q × A)} {q : Q} {a : A}

def bind : Dialogue Q A R → (R → Dialogue Q A S) → Dialogue Q A S
  | done r, f => f r
  | ask q next, f => ask q fun a => (next a).bind f

/-- The exchanges lead from one dialogue to the other. -/
inductive After : Dialogue Q A R → List (Q × A) → Dialogue Q A R → Prop
  | nil (d : Dialogue Q A R) : After d [] d
  | cons {q : Q} {a : A} {next : A → Dialogue Q A R} {log : List (Q × A)} {d : Dialogue Q A R} :
      After (next a) log d → After (ask q next) ((q, a) :: log) d

theorem After.concat {next : A → Dialogue Q A R} (h : After d log (ask q next)) (a : A) :
    After d (log ++ [(q, a)]) (next a) := by
  generalize hlast : ask q next = last at h
  induction h with
  | nil d =>
      rw [← hlast]
      exact .cons (.nil _)
  | cons _ ih => exact .cons (ih hlast)

@[simp] theorem after_done_iff {r s : R} :
    After (done r : Dialogue Q A R) log (done s) ↔ log = [] ∧ s = r := by
  constructor
  · intro h
    cases h
    exact ⟨rfl, rfl⟩
  · intro h
    rw [h.1, h.2]
    exact .nil _

theorem after_ask_done_iff {next : A → Dialogue Q A R} {r : R} :
    After (ask q next) log (done r) ↔ ∃ a rest, log = (q, a) :: rest ∧
      After (next a) rest (done r) := by
  constructor
  · intro h
    cases h with
    | cons h => exact ⟨_, _, rfl, h⟩
  · intro h
    obtain ⟨a, rest, rfl, h⟩ := h
    exact .cons h

/-- The exchanges of two routines in a row are those of the first, then those of the second. -/
theorem After.of_bind {f : R → Dialogue Q A S} {s : S} (h : After (d.bind f) log (done s)) :
    ∃ first r second, log = first ++ second ∧ After d first (done r) ∧
      After (f r) second (done s) := by
  induction d generalizing log with
  | done r => exact ⟨[], r, log, rfl, .nil _, h⟩
  | ask q next ih =>
      obtain ⟨a, rest, rfl, hrest⟩ := after_ask_done_iff.mp h
      obtain ⟨first, r, second, rfl, hfirst, hsecond⟩ := ih a hrest
      exact ⟨(q, a) :: first, r, second, rfl, .cons hfirst, hsecond⟩

/-! ## Attempts -/

/-- The question is asked again while the answer says so: `attempt` counts from the first, `left`
is how many are left, and `last` is the last answer. -/
def attempts (q : Q) (again : ℕ → A → Bool) : ℕ → ℕ → A → Dialogue Q A A
  | 0, _, last => done last
  | left + 1, attempt, _ =>
      ask q fun a => if again attempt a then attempts q again left (attempt + 1) a else done a

/-- Every answer but the last asks for another attempt, and the last does so only when no attempt
is left. -/
theorem After.of_attempts {again : ℕ → A → Bool} {left attempt : ℕ} {last a : A}
    (h : After (attempts q again (left + 1) attempt last) log (done a)) :
    ∃ earlier, log = (earlier ++ [a]).map (q, ·) ∧ earlier.length ≤ left ∧
      (∀ i (hi : i < earlier.length), again (attempt + i) earlier[i] = true) ∧
      (again (attempt + earlier.length) a = true → earlier.length = left) := by
  induction left generalizing attempt last log with
  | zero =>
      obtain ⟨b, rest, rfl, hrest⟩ := after_ask_done_iff.mp h
      have hend : rest = [] ∧ a = b := by
        split at hrest
        · exact after_done_iff.mp hrest
        · exact after_done_iff.mp hrest
      obtain ⟨rfl, rfl⟩ := hend
      exact ⟨[], rfl, Nat.le_refl _, fun i hi => absurd hi (Nat.not_lt_zero i), fun _ => rfl⟩
  | succ left ih =>
      obtain ⟨b, rest, rfl, hrest⟩ := after_ask_done_iff.mp h
      split at hrest
      · rename_i hagain
        obtain ⟨earlier, rfl, hlength, hearlier, hlast⟩ := ih hrest
        refine ⟨b :: earlier, rfl, Nat.succ_le_succ hlength, ?_, ?_⟩
        · intro i hi
          cases i with
          | zero => exact hagain
          | succ i =>
              have hnext := hearlier i (Nat.lt_of_succ_lt_succ hi)
              rw [Nat.add_right_comm] at hnext
              exact hnext
        · intro hmore
          rw [List.length_cons, ← Nat.add_assoc, Nat.add_right_comm] at hmore
          exact congrArg (· + 1) (hlast hmore)
      · rename_i hstop
        obtain ⟨rfl, rfl⟩ := after_done_iff.mp hrest
        exact ⟨[], rfl, Nat.zero_le _, fun i hi => absurd hi (Nat.not_lt_zero i),
          fun hmore => absurd hmore hstop⟩

end Dialogue
