import Mathlib

/-!
# Decimation by a phase accumulator

Every frame read advances a phase by `rate`; a frame that carries the phase to `full` is kept and
takes `full` off the phase. A decimator with a bounded destination stops when the destination is
full and leaves the remaining frames unread.
-/

namespace Decimator

variable {α : Type*} {rate full phase : ℕ}

def decimate (rate full : ℕ) : ℕ → List α → List α × ℕ
  | phase, [] => ([], phase)
  | phase, frame :: frames =>
      if full ≤ phase + rate then
        let rest := decimate rate full (phase + rate - full) frames
        (frame :: rest.1, rest.2)
      else decimate rate full (phase + rate) frames

def decimateInto (rate full : ℕ) : ℕ → ℕ → List α → List α × ℕ
  | _, phase, [] => ([], phase)
  | 0, phase, _ :: _ => ([], phase)
  | room + 1, phase, frame :: frames =>
      if full ≤ phase + rate then
        let rest := decimateInto rate full room (phase + rate - full) frames
        (frame :: rest.1, rest.2)
      else decimateInto rate full (room + 1) (phase + rate) frames

@[simp] theorem decimate_nil : decimate rate full phase ([] : List α) = ([], phase) := rfl

theorem decimate_append (first second : List α) :
    decimate rate full phase (first ++ second) =
      ((decimate rate full phase first).1 ++
          (decimate rate full (decimate rate full phase first).2 second).1,
        (decimate rate full (decimate rate full phase first).2 second).2) := by
  induction first generalizing phase with
  | nil => rfl
  | cons frame first ih =>
      simp only [List.cons_append, decimate]
      split
      · simp [ih]
      · exact ih

theorem decimate_sublist (frames : List α) :
    (decimate rate full phase frames).1.Sublist frames := by
  induction frames generalizing phase with
  | nil => exact List.Sublist.refl _
  | cons frame frames ih =>
      simp only [decimate]
      split
      · exact ih.cons_cons frame
      · exact ih.cons frame

theorem decimate_total (hrate : rate ≤ full) (hphase : phase < full) (frames : List α) :
    (decimate rate full phase frames).2 < full ∧
      (decimate rate full phase frames).2 + full * (decimate rate full phase frames).1.length =
        phase + rate * frames.length := by
  induction frames generalizing phase with
  | nil => exact ⟨hphase, rfl⟩
  | cons frame frames ih =>
      have hsum : rate * (frames.length + 1) = rate * frames.length + rate := Nat.mul_succ _ _
      simp only [decimate, List.length_cons]
      split
      · have hnext : phase + rate - full < full := by omega
        obtain ⟨hlt, heq⟩ := ih hnext
        refine ⟨hlt, ?_⟩
        simp only [List.length_cons, Nat.mul_succ]
        omega
      · have hnext : phase + rate < full := by omega
        obtain ⟨hlt, heq⟩ := ih hnext
        exact ⟨hlt, by omega⟩

/-- With room left before the last frame every frame is read. -/
theorem decimateInto_eq (room : ℕ) (frames : List α)
    (hroom : frames ≠ [] → phase + rate * (frames.length - 1) < full * room) :
    decimateInto rate full room phase frames = decimate rate full phase frames := by
  induction frames generalizing phase room with
  | nil => cases room <;> rfl
  | cons frame frames ih =>
      have hfit := hroom (List.cons_ne_nil frame frames)
      rw [List.length_cons, Nat.add_sub_cancel] at hfit
      cases room with
      | zero =>
          rw [Nat.mul_zero] at hfit
          exact absurd hfit (Nat.not_lt_zero _)
      | succ room =>
          have hrest : frames ≠ [] → rate * frames.length = rate * (frames.length - 1) + rate := by
            intro hsome
            have hpos := List.length_pos_of_ne_nil hsome
            rw [← Nat.mul_succ, Nat.succ_eq_add_one, Nat.sub_add_cancel hpos]
          rw [Nat.mul_succ] at hfit
          simp only [decimateInto, decimate]
          split
          · rw [ih room fun hsome => by
              have := hrest hsome
              omega]
          · refine ih (room + 1) fun hsome => ?_
            have := hrest hsome
            rw [Nat.mul_succ]
            omega

theorem decimateInto_sublist (room : ℕ) (frames : List α) :
    (decimateInto rate full room phase frames).1.Sublist frames := by
  induction frames generalizing phase room with
  | nil => cases room <;> exact List.Sublist.refl _
  | cons frame frames ih =>
      cases room with
      | zero => exact List.nil_sublist _
      | succ room =>
          simp only [decimateInto]
          split
          · exact (ih room).cons_cons frame
          · exact (ih (room + 1)).cons frame

/-- With frames enough the destination is filled, and the phase stops short of the next frame. -/
theorem decimateInto_full (hdvd : rate ∣ full) (hphase : phase < full) {room : ℕ}
    (hroom : room ≠ 0) (frames : List α) (hfull : full * room ≤ phase + rate * frames.length) :
    (decimateInto rate full room phase frames).1.length = room ∧
      (decimateInto rate full room phase frames).2 = phase % rate := by
  obtain ⟨c, rfl⟩ := hdvd
  induction frames generalizing phase room with
  | nil =>
      have hone : rate * c * 1 ≤ rate * c * room :=
        Nat.mul_le_mul_left _ (Nat.one_le_iff_ne_zero.mpr hroom)
      rw [List.length_nil, Nat.mul_zero] at hfull
      omega
  | cons frame frames ih =>
      obtain ⟨room, rfl⟩ := Nat.exists_eq_succ_of_ne_zero hroom
      rw [List.length_cons, Nat.mul_succ, Nat.mul_succ] at hfull
      simp only [decimateInto]
      split
      · rename_i hkept
        have hshort : phase + rate - rate * c < rate := by omega
        have hle : rate ≤ rate * c :=
          Nat.le_mul_of_pos_right rate (Nat.pos_of_ne_zero fun hzero => by simp [hzero] at hphase)
        have hmod : (phase + rate - rate * c) % rate = phase % rate := by
          have hsum : phase + rate - rate * c + rate * c = phase + rate := by omega
          rw [← Nat.add_mul_mod_self_left (phase + rate - rate * c) rate c, hsum,
            Nat.add_mod_right]
        rcases Nat.eq_zero_or_pos room with rfl | hmore
        · have hnone : decimateInto rate (rate * c) 0 (phase + rate - rate * c) frames =
              ([], phase + rate - rate * c) := by
            cases frames <;> rfl
          rw [hnone]
          exact ⟨rfl, (Nat.mod_eq_of_lt hshort).symm.trans hmod⟩
        · obtain ⟨hlength, hend⟩ := ih (Nat.ne_of_gt hmore)
            (show phase + rate - rate * c < rate * c by omega) (by omega)
          exact ⟨congrArg Nat.succ hlength, hend.trans hmod⟩
      · rename_i hskipped
        obtain ⟨hlength, hend⟩ := ih hroom (show phase + rate < rate * c by omega)
          (by rw [Nat.mul_succ]; omega)
        exact ⟨hlength, hend.trans (Nat.add_mod_right phase rate)⟩

/-! ## Closed forms -/

/-- How many of the first `n` frames are kept. -/
def kept (rate full phase n : ℕ) : ℕ := (phase + rate * n) / full

/-- The frame that is kept as the `j`-th: the first to carry the phase to `(j + 1) * full`. -/
def keptIndex (rate full phase j : ℕ) : ℕ := ((j + 1) * full - phase) ⌈/⌉ rate - 1

variable {n m j : ℕ}

theorem kept_mono (hnm : n ≤ m) : kept rate full phase n ≤ kept rate full phase m :=
  Nat.div_le_div_right (Nat.add_le_add_left (Nat.mul_le_mul_left rate hnm) phase)

theorem kept_zero (hphase : phase < full) : kept rate full phase 0 = 0 := by
  unfold kept
  rw [Nat.mul_zero, Nat.add_zero, Nat.div_eq_of_lt hphase]

theorem kept_le (hrate : rate ≤ full) (hphase : phase < full) : kept rate full phase n ≤ n := by
  have hpos : 0 < full := Nat.lt_of_le_of_lt (Nat.zero_le _) hphase
  have hframes : rate * n ≤ full * n := Nat.mul_le_mul_right n hrate
  rw [← Nat.lt_succ_iff, kept, Nat.div_lt_iff_lt_mul hpos, Nat.succ_mul, Nat.mul_comm n]
  omega

theorem kept_succ_le (hrate : rate ≤ full) (hpos : 0 < full) :
    kept rate full phase (n + 1) ≤ kept rate full phase n + 1 := by
  have hnext : phase + rate * (n + 1) ≤ phase + rate * n + full := by
    rw [Nat.mul_succ]
    omega
  calc (phase + rate * (n + 1)) / full
      ≤ (phase + rate * n + full) / full := Nat.div_le_div_right hnext
    _ = (phase + rate * n) / full + 1 := Nat.add_div_right _ hpos

theorem kept_succ {rest : ℕ} (hrate : rate ≤ full) (hrest : rest < full)
    (hphase : rest + full * kept rate full phase n = phase + rate * n) :
    kept rate full phase (n + 1) =
      if full ≤ rest + rate then kept rate full phase n + 1 else kept rate full phase n := by
  have hpos : 0 < full := Nat.lt_of_le_of_lt (Nat.zero_le _) hrest
  have hnext : phase + rate * (n + 1) = rest + rate + full * kept rate full phase n := by
    rw [Nat.mul_succ]
    omega
  unfold kept at hnext ⊢
  rw [hnext, Nat.add_mul_div_left _ _ hpos]
  split_ifs with hfull
  · have hone : (rest + rate) / full = 1 := by
      rw [Nat.div_eq_iff hpos]
      omega
    rw [hone, Nat.add_comm]
  · rw [Nat.div_eq_of_lt (Nat.lt_of_not_le hfull), Nat.zero_add]

theorem keptIndex_lt_iff (hrate : 0 < rate) (hphase : phase < full) :
    keptIndex rate full phase j < n ↔ j < kept rate full phase n := by
  have hpos : 0 < full := Nat.lt_of_le_of_lt (Nat.zero_le _) hphase
  have hstep : (j + 1) * full = j * full + full := Nat.succ_mul j full
  have hceil : 0 < ((j + 1) * full - phase) ⌈/⌉ rate := by
    rw [Nat.pos_iff_ne_zero]
    intro hzero
    have hle : (j + 1) * full - phase ≤ rate * 0 :=
      (ceilDiv_le_iff_le_mul hrate).mp (Nat.le_of_eq hzero)
    omega
  have hreach : keptIndex rate full phase j < n ↔ ((j + 1) * full - phase) ⌈/⌉ rate ≤ n := by
    unfold keptIndex
    omega
  rw [hreach, ceilDiv_le_iff_le_mul hrate, Nat.lt_iff_add_one_le (m := j), kept,
    Nat.le_div_iff_mul_le hpos]
  omega

theorem keptIndex_kept (hrate : 0 < rate) (hphase : phase < full)
    (hnext : kept rate full phase n < kept rate full phase (n + 1)) :
    keptIndex rate full phase (kept rate full phase n) = n := by
  have hbefore : ¬ keptIndex rate full phase (kept rate full phase n) < n := by
    rw [keptIndex_lt_iff hrate hphase]
    exact Nat.lt_irrefl _
  have hat := (keptIndex_lt_iff (n := n + 1) hrate hphase).mpr hnext
  omega

end Decimator
