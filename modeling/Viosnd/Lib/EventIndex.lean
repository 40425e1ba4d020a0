import Mathlib.Data.BitVec

/-!
# Event indices

Two sides share an index of `w` bits that runs on and wraps. One side publishes indices one behind
the other, the other names the index it waits for. Going from one index to the next passes the
event exactly when the event is in the batch between them, wherever the batch wraps.
-/

namespace EventIndex

variable {w : ℕ}

/-- The `n` indices from `old` on. -/
def batch (old : BitVec w) (n : ℕ) : List (BitVec w) :=
  (List.range n).map fun i => old + BitVec.ofNat w i

/-- Going from `old` to `new` passes `event`. -/
def crosses (event new old : BitVec w) : Bool := decide (new - event - 1 < new - old)

@[simp] theorem batch_zero (old : BitVec w) : batch old 0 = [] := rfl

@[simp] theorem length_batch (old : BitVec w) (n : ℕ) : (batch old n).length = n := by
  simp [batch]

theorem batch_succ (old : BitVec w) (n : ℕ) :
    batch old (n + 1) = batch old n ++ [old + BitVec.ofNat w n] := by
  simp [batch, List.range_succ]

theorem mem_batch (event old : BitVec w) (n : ℕ) :
    event ∈ batch old n ↔ (event - old).toNat < n := by
  simp only [batch, List.mem_map, List.mem_range]
  constructor
  · intro h
    obtain ⟨i, hi, rfl⟩ := h
    rw [add_sub_cancel_left, BitVec.toNat_ofNat]
    exact Nat.lt_of_le_of_lt (Nat.mod_le i _) hi
  · intro h
    refine ⟨(event - old).toNat, h, ?_⟩
    rw [BitVec.ofNat_toNat, BitVec.setWidth_eq, add_sub_cancel]

/-- One unsigned comparison of differences decides whether the event is nearer than the end. -/
theorem crosses_iff (event new old : BitVec w) :
    crosses event new old = true ↔ (event - old).toNat < (new - old).toNat := by
  have hdist : new - event - 1 = (new - old) - (event - old) - 1 := by
    rw [sub_sub_sub_cancel_right]
  unfold crosses
  rw [hdist, decide_eq_true_iff, BitVec.lt_def]
  generalize new - old = far
  generalize event - old = near
  have hfar := far.isLt
  have hnear := near.isLt
  rcases Nat.eq_zero_or_pos w with rfl | hw
  · omega
  · have hone : (1 : BitVec w).toNat = 1 := by
      exact Nat.mod_eq_of_lt (Nat.one_lt_two_pow (by omega))
    have hbig : 1 < 2 ^ w := Nat.one_lt_two_pow (by omega)
    rw [BitVec.toNat_sub, BitVec.toNat_sub, hone]
    rcases Nat.lt_or_ge near.toNat far.toNat with hlt | hge
    · have hwrap : (2 ^ w - near.toNat + far.toNat) % 2 ^ w = far.toNat - near.toNat := by
        rw [show 2 ^ w - near.toNat + far.toNat = far.toNat - near.toNat + 2 ^ w by omega,
          Nat.add_mod_right, Nat.mod_eq_of_lt (by omega)]
      rw [hwrap, show 2 ^ w - 1 + (far.toNat - near.toNat) =
        far.toNat - near.toNat - 1 + 2 ^ w by omega, Nat.add_mod_right,
        Nat.mod_eq_of_lt (by omega)]
      omega
    · -- the event is not passed: the distance back to it wraps
      have hback : (2 ^ w - 1 + (2 ^ w - near.toNat + far.toNat) % 2 ^ w) % 2 ^ w =
          2 ^ w - 1 - (near.toNat - far.toNat) := by
        rcases Nat.eq_or_lt_of_le hge with heq | hlt
        · rw [show 2 ^ w - near.toNat + far.toNat = 2 ^ w by omega, Nat.mod_self,
            Nat.mod_eq_of_lt (by omega)]
          omega
        · rw [Nat.mod_eq_of_lt (show 2 ^ w - near.toNat + far.toNat < 2 ^ w by omega),
            show 2 ^ w - 1 + (2 ^ w - near.toNat + far.toNat) =
              2 ^ w - 1 - (near.toNat - far.toNat) + 2 ^ w by omega,
            Nat.add_mod_right, Nat.mod_eq_of_lt (by omega)]
      rw [hback]
      omega

theorem crosses_batch_iff (event old : BitVec w) {n : ℕ} (hn : n < 2 ^ w) :
    crosses event (old + BitVec.ofNat w n) old = true ↔ event ∈ batch old n := by
  rw [crosses_iff, mem_batch, add_sub_cancel_left, BitVec.toNat_ofNat, Nat.mod_eq_of_lt hn]

end EventIndex
