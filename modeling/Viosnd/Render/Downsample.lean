import Mathlib
import Viosnd.Lib.Decimator
import Viosnd.Pcm

/-!
# The fallback resampler, word by word

The loop of `ViosndDownsampleStereo16` with its 32-bit variables and the destination it writes to.
The stream only needs what the loop yields, `Viosnd.viosndDownsampleStereo16`.
-/

namespace Viosnd.Downsample

open Decimator

structure Variables where
  frame : ULONG
  outputFrames : ULONG
  phase : ULONG
  destination : Memory
  /-- No sum or product so far was too large for its 32 bits. -/
  exact : Bool

/-- `destination[d] = source[s]` for indices of 16-bit samples. -/
def copySample (source : Memory) (d s : ULONG) (destination : Memory) : Memory :=
  destination.write (2 * d.toNat) (source.slice (2 * s.toNat) 2)

def pass (source : Memory) (rate : ULONG) (v : Variables) : Variables :=
  let phase := v.phase + rate
  let exact := v.exact && decide (v.phase.toNat + rate.toNat < 2 ^ 32) &&
    decide (v.frame.toNat + 1 < 2 ^ 32)
  if defaultSampleRate ≤ phase then
    { frame := v.frame + 1
      outputFrames := v.outputFrames + 1
      phase := phase - defaultSampleRate
      destination := copySample source (v.outputFrames * 2 + 1) (v.frame * 2 + 1)
        (copySample source (v.outputFrames * 2) (v.frame * 2) v.destination)
      exact := exact && decide (v.outputFrames.toNat * 2 + 1 < 2 ^ 32) &&
        decide (v.frame.toNat * 2 + 1 < 2 ^ 32) }
  else { v with
    frame := v.frame + 1
    phase := phase
    exact := exact }

def Goes (sourceFrames maxDestinationFrames : ULONG) (v : Variables) : Prop :=
  v.frame < sourceFrames ∧ v.outputFrames < maxDestinationFrames

instance (sourceFrames maxDestinationFrames : ULONG) (v : Variables) :
    Decidable (Goes sourceFrames maxDestinationFrames v) :=
  inferInstanceAs (Decidable (_ ∧ _))

/-- At most `fuel` passes. -/
def passes (source : Memory) (rate sourceFrames maxDestinationFrames : ULONG) :
    ℕ → Variables → Variables
  | 0, v => v
  | fuel + 1, v =>
      if Goes sourceFrames maxDestinationFrames v then
        passes source rate sourceFrames maxDestinationFrames fuel (pass source rate v)
      else v

/-- The variables at the end, and the number of bytes returned. -/
def viosndDownsampleStereo16 (destination : Memory) (destinationLength : ULONG) (source : Memory)
    (sourceLength rate phase : ULONG) : Variables × ULONG :=
  let start : Variables := ⟨0, 0, phase, destination, true⟩
  if rate = 0 ∨ defaultSampleRate ≤ rate then (start, 0)
  else
    let sourceFrames := sourceLength / 4
    let v := passes source rate sourceFrames (destinationLength / 4) sourceFrames.toNat start
    ({ v with
      exact := v.exact && decide (v.outputFrames.toNat * 4 < 2 ^ 32) }, v.outputFrames * 4)

/-! ## The loop counts kept frames -/

section

variable {source destination : Memory} {rate phase sourceFrames maxDestinationFrames : ULONG}
  {v : Variables} {n k : ℕ}

/-- After `n` frames of the source: the frames kept were written, the rest of the phase is left. -/
structure After (source destination : Memory) (rate phase : ULONG) (n : ℕ) (v : Variables) :
    Prop where
  frame : v.frame.toNat = n
  outputFrames : v.outputFrames.toNat = kept rate.toNat 48000 phase.toNat n
  below : v.phase.toNat < 48000
  accumulated : v.phase.toNat + 48000 * kept rate.toNat 48000 phase.toNat n =
    phase.toNat + rate.toNat * n
  written : ∀ j < kept rate.toNat 48000 phase.toNat n, v.destination.slice (4 * j) 4 =
    source.slice (4 * keptIndex rate.toNat 48000 phase.toNat j) 4
  beyond : ∀ i, 4 * kept rate.toNat 48000 phase.toNat n ≤ i → v.destination i = destination i
  exact : v.exact = true

private theorem after_zero (source destination : Memory) (rate : ULONG)
    (hphase : phase.toNat < 48000) :
    After source destination rate phase 0 ⟨0, 0, phase, destination, true⟩ := by
  have hzero : kept rate.toNat 48000 phase.toNat 0 = 0 := kept_zero hphase
  refine ⟨rfl, hzero.symm, hphase, ?_, ?_, fun i _ => rfl, rfl⟩
  · rw [hzero, Nat.mul_zero, Nat.mul_zero]
  · intro j hj
    rw [hzero] at hj
    exact absurd hj (Nat.not_lt_zero j)

private theorem copySample_frame (source destination : Memory) {d s : ULONG}
    (hd : d.toNat * 2 + 1 < 2 ^ 32) (hs : s.toNat * 2 + 1 < 2 ^ 32) :
    copySample source (d * 2 + 1) (s * 2 + 1) (copySample source (d * 2) (s * 2) destination) =
      destination.write (4 * d.toNat) (source.slice (4 * s.toNat) 4) := by
  have heven : ∀ x : ULONG, x.toNat * 2 + 1 < 2 ^ 32 → (x * 2).toNat = x.toNat * 2 := by
    intro x hx
    rw [BitVec.toNat_mul]
    exact Nat.mod_eq_of_lt (by
      change x.toNat * 2 < 2 ^ 32
      omega)
  have hodd : ∀ x : ULONG, x.toNat * 2 + 1 < 2 ^ 32 → (x * 2 + 1).toNat = x.toNat * 2 + 1 := by
    intro x hx
    rw [BitVec.toNat_add, heven x hx]
    exact Nat.mod_eq_of_lt (by
      change x.toNat * 2 + 1 < 2 ^ 32
      exact hx)
  unfold copySample
  rw [heven d hd, heven s hs, hodd d hd, hodd s hs]
  have hslice : source.slice (4 * s.toNat) 4 =
      source.slice (2 * (s.toNat * 2)) 2 ++ source.slice (2 * (s.toNat * 2 + 1)) 2 := by
    rw [show 2 * (s.toNat * 2) = 4 * s.toNat by omega,
      show 2 * (s.toNat * 2 + 1) = 4 * s.toNat + 2 by omega]
    exact Memory.slice_add source (4 * s.toNat) 2 2
  rw [hslice, Memory.write_append, Memory.slice_length]
  congr 2
  · omega
  · omega

theorem After.sum (h : After source destination rate phase n v) (hrate' : rate.toNat < 48000) :
    (v.phase + rate).toNat = v.phase.toNat + rate.toNat := by
  have hbelow := h.below
  rw [BitVec.toNat_add]
  exact Nat.mod_eq_of_lt (by omega)

private theorem After.full_iff (h : After source destination rate phase n v)
    (hrate' : rate.toNat < 48000) :
    defaultSampleRate ≤ v.phase + rate ↔ 48000 ≤ v.phase.toNat + rate.toNat := by
  rw [BitVec.le_def, h.sum hrate']
  rfl

theorem After.pass (h : After source destination rate phase n v) (hrate : 0 < rate.toNat)
    (hrate' : rate.toNat < 48000) (hphase : phase.toNat < 48000) (hn : n < 2 ^ 30) :
    After source destination rate phase (n + 1) (pass source rate v) := by
  have hbelow := h.below
  have hframe := h.frame
  have hcount : v.outputFrames.toNat ≤ n := by
    rw [h.outputFrames]
    exact kept_le hrate'.le hphase
  have hsucc := kept_succ hrate'.le h.below h.accumulated
  have hsum := h.sum hrate'
  have hone : ∀ x : ULONG, x.toNat ≤ n → (x + 1).toNat = x.toNat + 1 := by
    intro x hx
    rw [BitVec.toNat_add]
    exact Nat.mod_eq_of_lt (by
      change x.toNat + 1 < 2 ^ 32
      omega)
  have hlarge := h.full_iff hrate'
  have hexact : (v.exact && decide (v.phase.toNat + rate.toNat < 2 ^ 32) &&
      decide (v.frame.toNat + 1 < 2 ^ 32)) = true := by
    simp only [h.exact, Bool.true_and, Bool.and_eq_true, decide_eq_true_eq]
    omega
  have htotal : rate.toNat * (n + 1) = rate.toNat * n + rate.toNat := Nat.mul_succ _ _
  have haccumulated := h.accumulated
  unfold Downsample.pass
  by_cases hfull : 48000 ≤ v.phase.toNat + rate.toNat
  · rw [if_pos hfull] at hsucc
    rw [if_pos (hlarge.mpr hfull)]
    have hleft : (v.phase + rate - defaultSampleRate).toNat =
        v.phase.toNat + rate.toNat - 48000 := by
      rw [BitVec.toNat_sub_of_le (hlarge.mpr hfull), hsum]
      rfl
    have hindex := keptIndex_kept (n := n) hrate hphase (by omega)
    rw [copySample_frame source v.destination (by omega) (by omega), hframe, h.outputFrames]
    refine ⟨?_, ?_, ?_, ?_, fun j hj => ?_, fun i hi => ?_, ?_⟩
    · dsimp only
      rw [hone v.frame (by omega), hframe]
    · dsimp only
      rw [hone v.outputFrames hcount, h.outputFrames, hsucc]
    · dsimp only
      omega
    · dsimp only
      rw [hleft, hsucc]
      omega
    · dsimp only
      rw [hsucc] at hj
      rcases Nat.lt_succ_iff_lt_or_eq.mp hj with hold | rfl
      · rw [← h.written j hold]
        apply Memory.slice_congr
        intro i hi hi'
        exact Memory.write_outside _ _ _ (Or.inl (by omega))
      · rw [hindex]
        exact Memory.slice_write v.destination _ (source.slice (4 * n) 4)
    · dsimp only
      rw [hsucc] at hi
      rw [Memory.write_outside _ _ _ (Or.inr (by rw [Memory.slice_length]; omega))]
      exact h.beyond i (by omega)
    · dsimp only
      rw [h.outputFrames] at hcount
      rw [← hframe] at hn hcount ⊢
      rw [hexact]
      simp only [Bool.true_and, Bool.and_eq_true, decide_eq_true_eq]
      omega
  · rw [if_neg hfull] at hsucc
    rw [if_neg (hlarge.not.mpr hfull)]
    refine ⟨?_, ?_, ?_, ?_, fun j hj => ?_, fun i hi => ?_, hexact⟩
    · dsimp only
      rw [hone v.frame (by omega), hframe]
    · dsimp only
      rw [h.outputFrames, hsucc]
    · dsimp only
      omega
    · dsimp only
      rw [hsum, hsucc]
      omega
    · rw [hsucc] at hj
      exact h.written j hj
    · rw [hsucc] at hi
      exact h.beyond i hi

/-- The loop stops at the end of the source, or with the frame that fills the destination. -/
private theorem passes_after (hrate : 0 < rate.toNat) (hrate' : rate.toNat < 48000)
    (hphase : phase.toNat < 48000) (hsource : sourceFrames.toNat ≤ 2 ^ 30) (fuel : ℕ)
    (h : After source destination rate phase n v) (hfuel : n + fuel = sourceFrames.toNat)
    (hroom : ∀ i < n, kept rate.toNat 48000 phase.toNat i < maxDestinationFrames.toNat) :
    ∃ c ≤ sourceFrames.toNat,
      After source destination rate phase c
        (passes source rate sourceFrames maxDestinationFrames fuel v) ∧
      (∀ i < c, kept rate.toNat 48000 phase.toNat i < maxDestinationFrames.toNat) ∧
      (c < sourceFrames.toNat →
        maxDestinationFrames.toNat ≤ kept rate.toNat 48000 phase.toNat c) := by
  induction fuel generalizing n v with
  | zero => exact ⟨n, by omega, h, hroom, by omega⟩
  | succ fuel ih =>
      have hgoes : Goes sourceFrames maxDestinationFrames v ↔
          kept rate.toNat 48000 phase.toNat n < maxDestinationFrames.toNat := by
        unfold Goes
        rw [BitVec.lt_def, BitVec.lt_def, h.frame, h.outputFrames]
        omega
      unfold passes
      split_ifs with hgo
      · refine ih (h.pass hrate hrate' hphase (by omega)) (by omega) fun i hi => ?_
        rcases Nat.lt_succ_iff_lt_or_eq.mp hi with hold | rfl
        · exact hroom i hold
        · exact hgoes.mp hgo
      · exact ⟨n, by omega, h, hroom, fun _ => Nat.le_of_not_lt (hgoes.not.mp hgo)⟩

end

/-! ## Closed form -/

/-- Frames read when `k` of the `n` source frames were kept in a destination for `m` frames. -/
def consumed (rate phase n m k : ℕ) : ℕ :=
  if k < m then n else if m = 0 then 0 else keptIndex rate 48000 phase (k - 1) + 1

private theorem consumed_eq {rate phase n m c : ℕ} (hrate : 0 < rate) (hrate' : rate < 48000)
    (hphase : phase < 48000) (hc : c ≤ n) (hroom : ∀ i < c, kept rate 48000 phase i < m)
    (hstop : c < n → m ≤ kept rate 48000 phase c) :
    kept rate 48000 phase c = min m (kept rate 48000 phase n) ∧
      c = consumed rate phase n m (min m (kept rate 48000 phase n)) := by
  have hmono : kept rate 48000 phase c ≤ kept rate 48000 phase n := kept_mono hc
  have hfits : kept rate 48000 phase c ≤ m := by
    cases c with
    | zero =>
        rw [kept_zero hphase]
        exact Nat.zero_le m
    | succ c =>
        have hlast := hroom c (Nat.lt_succ_self c)
        have hstep : kept rate 48000 phase (c + 1) ≤ kept rate 48000 phase c + 1 :=
          kept_succ_le hrate'.le (by omega)
        omega
  have hkept : kept rate 48000 phase c = min m (kept rate 48000 phase n) := by
    rcases Nat.lt_or_eq_of_le hc with hmore | rfl
    · have := hstop hmore
      omega
    · omega
  refine ⟨hkept, ?_⟩
  rw [← hkept]
  unfold consumed
  split_ifs with hspace hnone
  · by_contra hne
    have := hstop (by omega)
    omega
  · by_contra hne
    have := hroom 0 (by omega)
    omega
  · have hbefore : keptIndex rate 48000 phase (kept rate 48000 phase c - 1) < c := by
      rw [keptIndex_lt_iff hrate hphase]
      omega
    by_contra hne
    have hearly := hroom (keptIndex rate 48000 phase (kept rate 48000 phase c - 1) + 1) (by omega)
    have hreached := (keptIndex_lt_iff hrate hphase).mp
      (Nat.lt_add_one (keptIndex rate 48000 phase (kept rate 48000 phase c - 1)))
    omega

/-- The frames kept are those at which the phase passes a multiple of 48000, as many as the
destination takes; the phase left over is that of the frames read. -/
theorem viosndDownsampleStereo16_closedForm (destination source : Memory)
    (destinationLength sourceLength rate phase : ULONG) (hphase : phase.toNat < 48000)
    (hrate : 1 ≤ rate.toNat) (hrate' : rate.toNat < 48000) :
    let n := sourceLength.toNat / 4
    let m := destinationLength.toNat / 4
    let k := min m ((phase.toNat + rate.toNat * n) / 48000)
    let c := consumed rate.toNat phase.toNat n m k
    let result := viosndDownsampleStereo16 destination destinationLength source sourceLength
      rate phase
    result.1.outputFrames.toNat = k ∧
      result.2.toNat = 4 * k ∧
      (∀ j < k, result.1.destination.slice (4 * j) 4 =
        source.slice (4 * (((j + 1) * 48000 - phase.toNat) ⌈/⌉ rate.toNat - 1)) 4) ∧
      (∀ i, 4 * k ≤ i → result.1.destination i = destination i) ∧
      result.1.frame.toNat = c ∧
      result.1.phase.toNat + 48000 * k = phase.toNat + rate.toNat * c ∧
      result.1.phase.toNat < 48000 ∧
      result.1.exact = true ∧
      ¬ Goes (sourceLength / 4) (destinationLength / 4) result.1 := by
  intro n m k c result
  have hfour : ∀ x : ULONG, (x / 4).toNat = x.toNat / 4 := fun x => BitVec.toNat_udiv
  have hn : (sourceLength / 4).toNat = n := hfour sourceLength
  have hm : (destinationLength / 4).toNat = m := hfour destinationLength
  have hsmall := sourceLength.isLt
  have hstart : ∀ i < 0, kept rate.toNat 48000 phase.toNat i < (destinationLength / 4).toNat :=
    fun i hi => absurd hi (Nat.not_lt_zero i)
  obtain ⟨c', hc', hafter, hroom, hstop⟩ := passes_after hrate hrate' hphase
    (by omega : (sourceLength / 4).toNat ≤ 2 ^ 30) (sourceLength / 4).toNat
    (after_zero source destination rate hphase) (Nat.zero_add _) hstart
  rw [hn] at hc' hstop
  rw [hm] at hroom hstop
  obtain ⟨hkept, hconsumed⟩ := consumed_eq hrate hrate' hphase hc' hroom hstop
  change kept rate.toNat 48000 phase.toNat c' = k at hkept
  change c' = c at hconsumed
  rw [hconsumed] at hc' hafter hkept hstop
  have hfull : ¬ (rate = 0 ∨ defaultSampleRate ≤ rate) := by
    rintro (rfl | hle)
    · exact absurd hrate (by decide)
    · rw [BitVec.le_def] at hle
      exact absurd hrate' (Nat.not_lt.mpr hle)
  have hcount : k ≤ 2 ^ 30 := by
    rw [← hkept]
    have hle := kept_le (n := c) hrate'.le hphase
    omega
  have hresult : result = _ := if_neg hfull
  rw [hresult]
  generalize passes source rate (sourceLength / 4) (destinationLength / 4)
    (sourceLength / 4).toNat ⟨0, 0, phase, destination, true⟩ = v at hafter
  have houtput : v.outputFrames.toNat = k := hafter.outputFrames.trans hkept
  refine ⟨houtput, ?_, fun j hj => ?_, fun i hi => ?_, hafter.frame, ?_, hafter.below, ?_, ?_⟩
  · dsimp only
    rw [BitVec.toNat_mul, houtput, Nat.mul_comm]
    refine Nat.mod_eq_of_lt ?_
    change 4 * k < 2 ^ 32
    omega
  · exact hafter.written j (hkept.symm ▸ hj)
  · exact hafter.beyond i (hkept.symm ▸ hi)
  · rw [← hkept]
    exact hafter.accumulated
  · dsimp only
    rw [hafter.exact, houtput, Bool.true_and, decide_eq_true_eq]
    omega
  · unfold Goes
    rw [BitVec.lt_def, BitVec.lt_def, hn, hm, hafter.frame, hafter.outputFrames]
    omega

/-- A run at the fallback rate that fills its destination of two frames. -/
theorem viosndDownsampleStereo16_closedForm_fallback :
    (viosndDownsampleStereo16 (fun _ => 0) 8 (fun i => BitVec.ofNat 8 i) 40 16000
      viosndFallbackInitialPhase).1.frame.toNat = 4 ∧
    (viosndDownsampleStereo16 (fun _ => 0) 8 (fun i => BitVec.ofNat 8 i) 40 16000
      viosndFallbackInitialPhase).1.destination.slice 0 4 = [0, 1, 2, 3] := by
  have h := viosndDownsampleStereo16_closedForm (fun _ => 0) (fun i => BitVec.ofNat 8 i) 8 40 16000
    viosndFallbackInitialPhase (by decide) (by decide) (by decide)
  exact ⟨h.2.2.2.2.1.trans (by decide), (h.2.2.1 0 (by decide)).trans (by decide)⟩

/-! ## What the stream uses -/

private theorem passes_downsampleLoop {source destination : Memory}
    {rate phase sourceFrames maxDestinationFrames : ULONG} {v : Variables} {n : ℕ}
    (hrate : 0 < rate.toNat) (hrate' : rate.toNat < 48000)
    (hphase : phase.toNat < 48000) (hsource : sourceFrames.toNat ≤ 2 ^ 30) (fuel room : ℕ)
    (h : After source destination rate phase n v) (hfuel : n + fuel = sourceFrames.toNat)
    (hroom : v.outputFrames.toNat + room = maxDestinationFrames.toNat) :
    let last := passes source rate sourceFrames maxDestinationFrames fuel v
    let rest := downsampleLoop source rate fuel n room v.phase
    last.phase = rest.2 ∧ last.destination.slice 0 (4 * last.outputFrames.toNat) =
      v.destination.slice 0 (4 * v.outputFrames.toNat) ++ rest.1 := by
  induction fuel generalizing n v room with
  | zero =>
      simp [passes, downsampleLoop]
  | succ fuel ih =>
      have hgoes : Goes sourceFrames maxDestinationFrames v ↔ 0 < room := by
        unfold Goes
        rw [BitVec.lt_def, BitVec.lt_def, h.frame]
        omega
      have hnext := h.pass hrate hrate' hphase (by omega)
      unfold passes
      split_ifs with hgo
      · obtain ⟨room, rfl⟩ := Nat.exists_eq_succ_of_ne_zero (hgoes.mp hgo).ne'
        have houtput := h.outputFrames
        have houtput' := hnext.outputFrames
        have hsucc := kept_succ hrate'.le h.below h.accumulated
        unfold downsampleLoop
        by_cases hfull : 48000 ≤ v.phase.toNat + rate.toNat
        · rw [if_pos hfull] at hsucc
          obtain ⟨hphase', hslice⟩ := ih room hnext (by omega) (by omega)
          rw [if_pos ((h.full_iff hrate').mpr hfull)]
          have hpass : pass source rate v = _ := if_pos ((h.full_iff hrate').mpr hfull)
          have hframe := h.frame
          have hcount := kept_le (n := n) hrate'.le hphase
          have hwrite : (pass source rate v).destination =
              v.destination.write (4 * v.outputFrames.toNat) (source.slice (4 * n) 4) := by
            rw [hpass, ← hframe]
            exact copySample_frame source v.destination (by omega) (by omega)
          have hshown : (pass source rate v).destination.slice 0
                (4 * (pass source rate v).outputFrames.toNat) =
              v.destination.slice 0 (4 * v.outputFrames.toNat) ++ source.slice (4 * n) 4 := by
            rw [hwrite, houtput', hsucc, ← houtput, Nat.mul_succ, Memory.slice_add, Nat.zero_add]
            congr 1
            · apply Memory.slice_congr
              intro i _ hi
              exact Memory.write_outside _ _ _ (Or.inl (by omega))
            · exact Memory.slice_write v.destination _ (source.slice (4 * n) 4)
          have hleft : (pass source rate v).phase = v.phase + rate - defaultSampleRate := by
            rw [hpass]
          rw [hleft] at hphase' hslice
          rw [hshown, List.append_assoc] at hslice
          exact ⟨hphase', hslice⟩
        · rw [if_neg hfull] at hsucc
          obtain ⟨hphase', hslice⟩ := ih (room + 1) hnext (by omega) (by omega)
          rw [if_neg ((h.full_iff hrate').not.mpr hfull)]
          have hpass : pass source rate v = _ := if_neg ((h.full_iff hrate').not.mpr hfull)
          have hleft : (pass source rate v).phase = v.phase + rate := by
            rw [hpass]
          have hsame : (pass source rate v).destination = v.destination := by
            rw [hpass]
          rw [hleft] at hphase' hslice
          rw [hsame, houtput', hsucc, ← houtput] at hslice
          exact ⟨hphase', hslice⟩
      · have hnone : room = 0 := Nat.eq_zero_of_not_pos (hgoes.not.mp hgo)
        subst hnone
        simp [downsampleLoop]

/-- The bytes and the phase the stream's model takes from the loop. -/
theorem viosndDownsampleStereo16_eq (destination source : Memory)
    (destinationLength sourceLength rate phase : ULONG) (hphase : phase.toNat < 48000) :
    let result := viosndDownsampleStereo16 destination destinationLength source sourceLength
      rate phase
    Viosnd.viosndDownsampleStereo16 destinationLength.toNat source sourceLength rate phase =
      (result.1.destination.slice 0 result.2.toNat, result.1.phase) := by
  unfold Viosnd.viosndDownsampleStereo16 viosndDownsampleStereo16
  by_cases hrate : rate = 0 ∨ defaultSampleRate ≤ rate
  · rw [if_pos hrate, if_pos hrate]
    rfl
  · rw [if_neg hrate, if_neg hrate]
    obtain ⟨hzero, hbelow⟩ := not_or.mp hrate
    have hrate0 : 0 < rate.toNat := by
      rw [Nat.pos_iff_ne_zero]
      exact fun h => hzero (BitVec.eq_of_toNat_eq h)
    have hrate' : rate.toNat < 48000 := by
      rw [BitVec.le_def] at hbelow
      exact Nat.lt_of_not_le hbelow
    have hfour : ∀ x : ULONG, (x / 4).toNat = x.toNat / 4 := fun x => BitVec.toNat_udiv
    have hsmall := sourceLength.isLt
    have hframes := hfour sourceLength
    have hstart := after_zero source destination rate hphase
    have hnone : ∀ i < 0, kept rate.toNat 48000 phase.toNat i < (destinationLength / 4).toNat :=
      fun i hi => absurd hi (Nat.not_lt_zero i)
    obtain ⟨c, hc, hafter, -, -⟩ := passes_after hrate0 hrate' hphase (by omega)
      (sourceLength / 4).toNat hstart (Nat.zero_add _) hnone
    obtain ⟨hphase', hslice⟩ := passes_downsampleLoop hrate0 hrate' hphase (by omega)
      (sourceLength / 4).toNat (destinationLength / 4).toNat hstart (Nat.zero_add _)
      (Nat.zero_add _)
    rw [hfour destinationLength] at hphase' hslice
    rw [← hframes]
    dsimp only
    generalize passes source rate (sourceLength / 4) (destinationLength / 4)
      (sourceLength / 4).toNat ⟨0, 0, phase, destination, true⟩ = v at hafter hphase' hslice ⊢
    have hcount := kept_le (n := c) hrate'.le hphase
    have houtput := hafter.outputFrames
    have hbytes : (v.outputFrames * 4).toNat = 4 * v.outputFrames.toNat := by
      rw [BitVec.toNat_mul, Nat.mul_comm]
      refine Nat.mod_eq_of_lt ?_
      change 4 * v.outputFrames.toNat < 2 ^ 32
      omega
    rw [hbytes, hslice, hphase']
    rfl

end Viosnd.Downsample
