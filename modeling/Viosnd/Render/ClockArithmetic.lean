import Viosnd.Lib.Residues
import Viosnd.Render.Clock

/-!
# The clock arithmetic and its range

`ViosndRenderBytesFromQpc` and `MaybeSwitchRenderFallback` multiply counter differences and byte
counts in 64 bits before they divide or compare. The same formulas in unbounded integers say what
they are for.
-/

namespace Viosnd.Render

open RunningClock Residues

/-! ## Bytes of a counter difference -/

/-- `ViosndRenderBytesFromQpc` in unbounded integers. -/
def exactBytes (qpcDelta qpcFrequency : ℤ) : ℕ :=
  if qpcDelta ≤ 0 then 0
  else elapsed bytesPerSecond.toNat qpcFrequency.toNat blockAlign.toNat qpcDelta.toNat

/-- The product fits in 64 bits, or the bytes are less than one frame anyway. -/
def BytesFit (qpcDelta qpcFrequency : ℤ) : Prop :=
  qpcDelta ≤ 0 ∨ qpcDelta * 192000 < 2 ^ 64 ∨ qpcDelta * 192000 < 4 * qpcFrequency

instance (qpcDelta qpcFrequency : ℤ) : Decidable (BytesFit qpcDelta qpcFrequency) :=
  inferInstanceAs (Decidable (_ ∨ _))

private theorem toNat_eq_of_toInt_nonneg {x : LONGLONG} (hx : 0 ≤ x.toInt) : x.toInt = x.toNat := by
  have hnat := BitVec.toInt_eq_toNat_cond x
  have hlt := x.isLt
  split at hnat <;> omega

/-- What is computed from the residue of the product. -/
private theorem viosndRenderBytesFromQpc_eq {d f : LONGLONG} (hd : 0 < d.toInt) (hf : 0 < f.toInt) :
    (viosndRenderBytesFromQpc d f).toNat = 4 * (d.toNat * 192000 % 2 ^ 64 / (f.toNat * 4)) := by
  have hunits : (d * bytesPerSecond / f).toNat = d.toNat * 192000 % 2 ^ 64 / f.toNat := by
    rw [BitVec.toNat_udiv, BitVec.toNat_mul]
    rfl
  have hgrain : (d * bytesPerSecond / f % blockAlign).toNat =
      d.toNat * 192000 % 2 ^ 64 / f.toNat % 4 := by
    rw [BitVec.toNat_umod, hunits]
    rfl
  have hle : d * bytesPerSecond / f % blockAlign ≤ d * bytesPerSecond / f := by
    rw [BitVec.le_def, hgrain, hunits]
    exact Nat.mod_le _ _
  unfold viosndRenderBytesFromQpc
  rw [if_neg (by omega)]
  dsimp only
  rw [BitVec.toNat_sub_of_le hle, hgrain, hunits, div_sub_mod_eq]

private theorem exactBytes_eq {d f : LONGLONG} (hd : 0 < d.toInt) (hf : 0 < f.toInt) :
    exactBytes d.toInt f.toInt = 4 * (d.toNat * 192000 / (f.toNat * 4)) := by
  have hdnat := toNat_eq_of_toInt_nonneg (Int.le_of_lt hd)
  have hfnat := toNat_eq_of_toInt_nonneg (Int.le_of_lt hf)
  unfold exactBytes elapsed
  rw [if_neg (by omega), hdnat, hfnat, Int.toNat_natCast, Int.toNat_natCast]
  exact div_sub_mod_eq _ _ _

private theorem viosndRenderBytesFromQpc_exact_iff (d f : LONGLONG) (hf : 0 < f.toInt) :
    (viosndRenderBytesFromQpc d f).toNat = exactBytes d.toInt f.toInt ↔
      BytesFit d.toInt f.toInt := by
  have hfnat := toNat_eq_of_toInt_nonneg (Int.le_of_lt hf)
  by_cases hd : 0 < d.toInt
  · have hdnat := toNat_eq_of_toInt_nonneg (Int.le_of_lt hd)
    rw [viosndRenderBytesFromQpc_eq hd hf, exactBytes_eq hd hf,
      Nat.mul_right_inj (by decide : (4 : ℕ) ≠ 0), mod_div_eq_iff (by omega) (Nat.two_pow_pos 64)]
    unfold BytesFit
    omega
  · have hstill : d.toInt ≤ 0 := Int.not_lt.mp hd
    have hzero : viosndRenderBytesFromQpc d f = 0 := if_pos (Or.inl hstill)
    have hexact : exactBytes d.toInt f.toInt = 0 := if_pos hstill
    rw [hzero, hexact]
    exact iff_of_true rfl (Or.inl hstill)

private theorem viosndRenderBytesFromQpc_mono {d d' f : LONGLONG} (hf : 0 < f.toInt)
    (hle : d.toInt ≤ d'.toInt) (hfit : BytesFit d'.toInt f.toInt) :
    viosndRenderBytesFromQpc d f ≤ viosndRenderBytesFromQpc d' f := by
  have hfit' : BytesFit d.toInt f.toInt := by
    unfold BytesFit at hfit ⊢
    omega
  rw [BitVec.le_def, (viosndRenderBytesFromQpc_exact_iff d f hf).mpr hfit',
    (viosndRenderBytesFromQpc_exact_iff d' f hf).mpr hfit]
  unfold exactBytes
  split_ifs
  · exact Nat.le_refl 0
  · exact Nat.zero_le _
  · omega
  · exact elapsed_mono _ _ _ (Int.toNat_le_toNat hle)

/-! ## The decision about the fallback -/

/-- What `MaybeSwitchRenderFallback` decides when its measuring period has begun. -/
inductive FallbackDecision where
  | wait
  | notNeeded
  | stable
  | switch
  deriving DecidableEq

/-- The same verdict decides differently for a stream that is already in fallback. -/
def FallbackVerdict.decision (active : Bool) : FallbackVerdict → FallbackDecision
  | .wait => .wait
  | .healthy => if active then .stable else .notNeeded
  | .slow => .switch

def FallbackDecision.carryOut (qpc : LONGLONG) (i : SwitchInput) (w : World) :
    FallbackDecision → World
  | .wait => w
  | .notNeeded => { w with renderFallbackAttempted := true }
  | .stable =>
      { w with fallbackMonitorStartQpc := qpc, fallbackMonitorStartPosition := w.position }
  | .switch => (switchRenderToFallback i w).2

/-- `MaybeSwitchRenderFallback` carries out its decision. -/
theorem maybeSwitchRenderFallback_eq (qpc : LONGLONG) (i : SwitchInput) (w : World)
    (hattempted : w.renderFallbackAttempted = false) (hstate : w.state = .run)
    (hfrequency : 0 < w.qpcFrequency.toInt) (hbegun : w.fallbackMonitorStartQpc ≠ 0) :
    maybeSwitchRenderFallback qpc i w =
      ((fallbackVerdict w qpc).decision w.renderFallbackActive).carryOut qpc i
        (w.note (.counter qpc)) := by
  have hgo : ¬ (w.renderFallbackAttempted ∨ w.state ≠ .run ∨ w.qpcFrequency.toInt ≤ 0) := by
    simp only [hattempted, hstate, Bool.false_eq_true, ne_eq, not_true_eq_false, false_or]
    omega
  have hverdict : fallbackVerdict (w.note (.counter qpc)) qpc = fallbackVerdict w qpc := rfl
  have hactive : (w.note (.counter qpc)).renderFallbackActive = w.renderFallbackActive := rfl
  unfold maybeSwitchRenderFallback
  rw [if_neg hgo]
  dsimp only
  rw [if_neg (show (w.note (.counter qpc)).fallbackMonitorStartQpc ≠ 0 from hbegun), hverdict,
    hactive]
  cases fallbackVerdict w qpc with
  | wait => rfl
  | slow => rfl
  | healthy =>
      dsimp only [FallbackVerdict.decision]
      split_ifs <;> rfl

def exactVerdict (elapsedQpc : ℤ) (frequency completedBytes : ℕ) : FallbackVerdict :=
  if elapsedQpc ≤ 0 then .wait
  else if elapsedQpc.toNat * 1000 / frequency < fallbackMonitorMs.toNat then .wait
  else
    let expectedBytes := elapsedQpc.toNat * bytesPerSecond.toNat / frequency
    if expectedBytes = 0 then .wait
    else if expectedBytes * fallbackTriggerPercent.toNat ≤ completedBytes * 100 then .healthy
    else .slow

def residueVerdict (elapsedQpc : ℤ) (frequency completedBytes : ℕ) : FallbackVerdict :=
  if elapsedQpc ≤ 0 then .wait
  else if elapsedQpc.toNat * 1000 % 2 ^ 64 / frequency < 2000 then .wait
  else
    let expectedBytes := elapsedQpc.toNat * 192000 % 2 ^ 64 / frequency
    if expectedBytes = 0 then .wait
    else if expectedBytes * 65 % 2 ^ 64 ≤ completedBytes * 100 % 2 ^ 64 then .healthy
    else .slow

def World.elapsedQpc (w : World) (qpc : LONGLONG) : ℤ :=
  (qpc - w.fallbackMonitorStartQpc).toInt

def World.completedBytes (w : World) : ℕ :=
  (w.position - w.fallbackMonitorStartPosition).toNat

private theorem fallbackVerdict_eq (w : World) (qpc : LONGLONG) (hf : 0 < w.qpcFrequency.toInt) :
    fallbackVerdict w qpc =
      residueVerdict (w.elapsedQpc qpc) w.qpcFrequency.toInt.toNat w.completedBytes := by
  have hfnat := toNat_eq_of_toInt_nonneg (Int.le_of_lt hf)
  unfold fallbackVerdict residueVerdict World.elapsedQpc World.completedBytes
  dsimp only
  generalize qpc - w.fallbackMonitorStartQpc = e
  generalize w.position - w.fallbackMonitorStartPosition = c
  rw [hfnat, Int.toNat_natCast]
  by_cases he : e.toInt ≤ 0
  · rw [if_pos he, if_pos he]
  · have henat := toNat_eq_of_toInt_nonneg (show 0 ≤ e.toInt by omega)
    have hmilliseconds : (e * 1000 / w.qpcFrequency).toNat =
        e.toNat * 1000 % 2 ^ 64 / w.qpcFrequency.toNat := by
      rw [BitVec.toNat_udiv, BitVec.toNat_mul]
      rfl
    have hexpected : (e * bytesPerSecond / w.qpcFrequency).toNat =
        e.toNat * 192000 % 2 ^ 64 / w.qpcFrequency.toNat := by
      rw [BitVec.toNat_udiv, BitVec.toNat_mul]
      rfl
    have hmonitor : e * 1000 / w.qpcFrequency < fallbackMonitorMs ↔
        e.toNat * 1000 % 2 ^ 64 / w.qpcFrequency.toNat < 2000 := by
      rw [BitVec.lt_def, hmilliseconds]
      rfl
    have hnone : e * bytesPerSecond / w.qpcFrequency = 0 ↔
        e.toNat * 192000 % 2 ^ 64 / w.qpcFrequency.toNat = 0 := by
      rw [← hexpected, ← BitVec.toNat_inj]
      rfl
    have hcompare : e * bytesPerSecond / w.qpcFrequency * fallbackTriggerPercent ≤ c * 100 ↔
        e.toNat * 192000 % 2 ^ 64 / w.qpcFrequency.toNat * 65 % 2 ^ 64 ≤
          c.toNat * 100 % 2 ^ 64 := by
      rw [BitVec.le_def, BitVec.toNat_mul, BitVec.toNat_mul, hexpected]
      rfl
    rw [if_neg he, if_neg he, henat, Int.toNat_natCast]
    simp only [hmonitor, hnone, hcompare]

/-- The residues decide as the products do: the period stays long enough and something stays
expected, and the percentages compare the same way. -/
def VerdictFits (elapsedQpc : ℤ) (frequency completedBytes : ℕ) : Prop :=
  let ticks := elapsedQpc.toNat
  0 < elapsedQpc → 2000 * frequency ≤ ticks * 1000 →
    2000 * frequency ≤ ticks * 1000 % 2 ^ 64 ∧ frequency ≤ ticks * 192000 % 2 ^ 64 ∧
      (ticks * 192000 % 2 ^ 64 / frequency * 65 % 2 ^ 64 ≤ completedBytes * 100 % 2 ^ 64 ↔
        ticks * 192000 / frequency * 65 ≤ completedBytes * 100)

instance (elapsedQpc : ℤ) (frequency completedBytes : ℕ) :
    Decidable (VerdictFits elapsedQpc frequency completedBytes) :=
  inferInstanceAs (Decidable (_ → _))

def VerdictSmall (elapsedQpc : ℤ) (frequency completedBytes : ℕ) : Prop :=
  elapsedQpc.toNat * 192000 < 2 ^ 64 ∧
    elapsedQpc.toNat * 192000 / frequency * 65 < 2 ^ 64 ∧ completedBytes * 100 < 2 ^ 64

instance (elapsedQpc : ℤ) (frequency completedBytes : ℕ) :
    Decidable (VerdictSmall elapsedQpc frequency completedBytes) :=
  inferInstanceAs (Decidable (_ ∧ _))

private theorem residueVerdict_exact_iff {e : ℤ} {f c : ℕ} (hf : 0 < f) :
    residueVerdict e f c = exactVerdict e f c ↔ VerdictFits e f c := by
  have hmonitor : fallbackMonitorMs.toNat = 2000 := rfl
  have hrate : bytesPerSecond.toNat = 192000 := rfl
  have hpercent : fallbackTriggerPercent.toNat = 65 := rfl
  unfold residueVerdict exactVerdict VerdictFits
  rw [hmonitor, hrate, hpercent]
  by_cases he : e ≤ 0
  · rw [if_pos he, if_pos he]
    exact iff_of_true rfl fun hpos => absurd he (Int.not_le.mpr hpos)
  rw [if_neg he, if_neg he]
  generalize e.toNat = t
  dsimp only
  rw [forall_prop_of_true (Int.not_le.mp he)]
  by_cases hshort : t * 1000 / f < 2000
  · -- a residue is even shorter
    have hresidue : t * 1000 % 2 ^ 64 / f < 2000 :=
      Nat.lt_of_le_of_lt (Nat.div_le_div_right (Nat.mod_le _ _)) hshort
    rw [if_pos hresidue, if_pos hshort]
    refine iff_of_true rfl fun hlong => ?_
    have hless := (Nat.div_lt_iff_lt_mul hf).mp hshort
    omega
  · have hlong : 2000 * f ≤ t * 1000 := (Nat.le_div_iff_mul_le hf).mp (Nat.not_lt.mp hshort)
    have hsome : ¬ t * 192000 / f = 0 := by
      have hpos : 0 < t * 192000 / f := Nat.div_pos (by omega) hf
      omega
    have hkeeps : t * 1000 % 2 ^ 64 / f < 2000 ↔ ¬ 2000 * f ≤ t * 1000 % 2 ^ 64 := by
      rw [Nat.div_lt_iff_lt_mul hf, Nat.not_le]
    have hexpects : t * 192000 % 2 ^ 64 / f = 0 ↔ ¬ f ≤ t * 192000 % 2 ^ 64 := by
      rw [Nat.div_eq_zero_iff, Nat.not_le]
      omega
    have hwait : FallbackVerdict.wait ≠
        if t * 192000 / f * 65 ≤ c * 100 then FallbackVerdict.healthy else .slow := by
      split_ifs <;> decide
    rw [if_neg hshort, if_neg hsome, forall_prop_of_true hlong]
    by_cases hkept : 2000 * f ≤ t * 1000 % 2 ^ 64
    · by_cases hexpected : f ≤ t * 192000 % 2 ^ 64
      · rw [if_neg (hkeeps.not.mpr (not_not.mpr hkept)),
          if_neg (hexpects.not.mpr (not_not.mpr hexpected))]
        rw [and_iff_right hkept, and_iff_right hexpected]
        split_ifs with hresidue hproduct hproduct
        · exact iff_of_true rfl (iff_of_true hresidue hproduct)
        · exact iff_of_false (by decide) fun hiff => hproduct (hiff.mp hresidue)
        · exact iff_of_false (by decide) fun hiff => hresidue (hiff.mpr hproduct)
        · exact iff_of_true rfl (iff_of_false hresidue hproduct)
      · rw [if_neg (hkeeps.not.mpr (not_not.mpr hkept)), if_pos (hexpects.mpr hexpected)]
        exact iff_of_false hwait fun h => hexpected h.2.1
    · rw [if_pos (hkeeps.mpr hkept)]
      exact iff_of_false hwait fun h => hkept h.1

theorem VerdictSmall.fits {e : ℤ} {f c : ℕ} (h : VerdictSmall e f c) : VerdictFits e f c := by
  obtain ⟨hticks, hexpected, hcompleted⟩ := h
  intro _ hlong
  generalize e.toNat = t at *
  have hms : t * 1000 < 2 ^ 64 := Nat.lt_of_le_of_lt (Nat.mul_le_mul_left t (by decide)) hticks
  have hframe : f ≤ t * 192000 := by
    clear hticks hexpected hcompleted hms
    omega
  rw [Nat.mod_eq_of_lt hms, Nat.mod_eq_of_lt hticks, Nat.mod_eq_of_lt hexpected,
    Nat.mod_eq_of_lt hcompleted]
  exact ⟨hlong, hframe, Iff.rfl⟩

private theorem decision_inj {active : Bool} {v v' : FallbackVerdict} :
    v.decision active = v'.decision active ↔ v = v' := by
  cases active <;> cases v <;> cases v' <;> decide

/-- The bytes of a counter difference are exact, and with that monotone, as far as the product fits
or is less than a frame; the decision about the fallback is exact where the residues decide as the
products do, and so wherever no product wraps. -/
theorem clockArithmetic_exact_iff (d d' f : LONGLONG) (hf : 0 < f.toInt) (w : World)
    (qpc : LONGLONG) (hfrequency : 0 < w.qpcFrequency.toInt) :
    ((viosndRenderBytesFromQpc d f).toNat = exactBytes d.toInt f.toInt ↔
        BytesFit d.toInt f.toInt) ∧
      (d.toInt ≤ d'.toInt → BytesFit d'.toInt f.toInt →
        viosndRenderBytesFromQpc d f ≤ viosndRenderBytesFromQpc d' f) ∧
      let verdict := exactVerdict (w.elapsedQpc qpc) w.qpcFrequency.toInt.toNat w.completedBytes
      ((fallbackVerdict w qpc).decision w.renderFallbackActive =
        verdict.decision w.renderFallbackActive ↔
          VerdictFits (w.elapsedQpc qpc) w.qpcFrequency.toInt.toNat w.completedBytes) ∧
        (VerdictSmall (w.elapsedQpc qpc) w.qpcFrequency.toInt.toNat w.completedBytes →
          (fallbackVerdict w qpc).decision w.renderFallbackActive =
            verdict.decision w.renderFallbackActive) := by
  refine ⟨viosndRenderBytesFromQpc_exact_iff d f hf, viosndRenderBytesFromQpc_mono hf, ?_⟩
  intro verdict
  have hexact : (fallbackVerdict w qpc).decision w.renderFallbackActive =
      verdict.decision w.renderFallbackActive ↔
        VerdictFits (w.elapsedQpc qpc) w.qpcFrequency.toInt.toNat w.completedBytes := by
    rw [decision_inj, fallbackVerdict_eq w qpc hfrequency]
    exact residueVerdict_exact_iff (by omega)
  exact ⟨hexact, fun hsmall => hexact.mpr hsmall.fits⟩

/-- One second of a counter that runs at 10 MHz, and three seconds of monitoring. -/
def monitoredWorld : World :=
  { World.fresh (some fun _ => 0) 32768 16 2048 with
    qpcFrequency := 10000000
    fallbackMonitorStartQpc := 10000000
    position := 576000 }

theorem clockArithmetic_exact_iff_second :
    ((viosndRenderBytesFromQpc 5000000 10000000).toNat = exactBytes 5000000 10000000 ↔
      BytesFit 5000000 10000000) ∧
      viosndRenderBytesFromQpc 5000000 10000000 ≤ viosndRenderBytesFromQpc 10000000 10000000 ∧
      ((fallbackVerdict monitoredWorld 40000000).decision false =
        (exactVerdict (monitoredWorld.elapsedQpc 40000000) 10000000
          monitoredWorld.completedBytes).decision false ↔
        VerdictFits (monitoredWorld.elapsedQpc 40000000) 10000000
          monitoredWorld.completedBytes) ∧
      (fallbackVerdict monitoredWorld 40000000).decision false =
        (exactVerdict (monitoredWorld.elapsedQpc 40000000) 10000000
          monitoredWorld.completedBytes).decision false := by
  obtain ⟨hexact, hmono, hdecision, hsmall⟩ := clockArithmetic_exact_iff 5000000 10000000 10000000
    (by decide) monitoredWorld 40000000 (by decide)
  exact ⟨hexact, hmono (by decide) (by decide), hdecision, hsmall (by decide)⟩

/-- About 163 days of a counter that runs at 10 MHz. -/
theorem viosndRenderBytesFromQpc_not_exact :
    (viosndRenderBytesFromQpc (BitVec.ofNat 64 (2 ^ 47)) 10000000).toNat ≠
      exactBytes (2 ^ 47) 10000000 := by
  decide

end Viosnd.Render
