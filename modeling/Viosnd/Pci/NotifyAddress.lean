import Viosnd.Pci.Windows

/-!
# The notification address of a queue

A small notification area is mapped as a whole when the device is initialized; in a larger one
`vio_modern_setup_vq` maps two bytes for each queue. The first way checks the capability with 64-bit
products and the BAR only at the start of the area, the second both with 32-bit products.
-/

namespace Viosnd.Pci

/-- `off * vdev->notify_offset_multiplier`, a 32-bit product. -/
def notifyStart (off : BitVec 16) (multiplier : BitVec 32) : BitVec 32 :=
  off.setWidth 32 * multiplier

/-- The address in an area mapped at `base`. -/
def premappedAddr (base len : ℕ) (off : BitVec 16) (multiplier : BitVec 32) : Option ℕ :=
  if len < off.toNat * multiplier.toNat + 2 then none
  else some (base + (notifyStart off multiplier).toNat)

def perQueueAddr (d : PciDevice) (cap : ℕ) (off : BitVec 16) (multiplier : BitVec 32) : Option ℕ :=
  (vioModernMapCapability d cap 2 2 (notifyStart off multiplier) 2).map Prod.fst

/-- `vq->notification_addr` of `vio_modern_setup_vq`; without one it fails. -/
def notificationAddr (d : PciDevice) (v : VirtIODevice) (off : BitVec 16) : Option ℕ :=
  match v.notifyBase with
  | some base => premappedAddr base v.notifyLen off v.notifyOffsetMultiplier
  | none => perQueueAddr d v.notifyMapCap off v.notifyOffsetMultiplier

/-- The first way from the capability on. -/
def mapThenAddr (d : PciDevice) (cap : ℕ) (off : BitVec 16) (multiplier : BitVec 32) : Option ℕ :=
  (vioModernMapCapability d cap 2 2 0 (d.capLength cap)).bind fun mapped =>
    premappedAddr mapped.1 mapped.2 off multiplier

/-- The exact place of a queue's notification word behind the offset of the capability. -/
def notifyPlace (d : PciDevice) (cap : ℕ) (off : BitVec 16) : ℕ :=
  off.toNat * (d.capMultiplier cap).toNat

/-- The address is the right one, and its two bytes are inside the capability and inside the BAR. -/
def RightAddr (d : PciDevice) (cap : ℕ) (off : BitVec 16) (addr : ℕ) : Prop :=
  (∃ base : ℕ+, (d.bars (d.capBar cap)).base = some base ∧
    addr = base + (d.capOffset cap).toNat + notifyPlace d cap off) ∧
  InCapability d cap addr 2 ∧ InBar d (d.capBar cap) addr 2

/-- Setup succeeds with the right address only, and both ways give the same. -/
structure NotifyRight (d : PciDevice) (cap : ℕ) (v : VirtIODevice) (off : BitVec 16) : Prop where
  right : ∀ addr, notificationAddr d v off = some addr → RightAddr d cap off addr
  agree : mapThenAddr d cap off (d.capMultiplier cap) = perQueueAddr d cap off (d.capMultiplier cap)

/-! ## The two ways as arithmetic -/

/-- The place and the area are even and the word is inside the capability and the BAR. -/
def WordFits (d : PciDevice) (cap : ℕ) (off : BitVec 16) : Prop :=
  2 ∣ (d.capOffset cap).toNat ∧ 2 ∣ notifyPlace d cap off ∧
    notifyPlace d cap off + 2 ≤ (d.capLength cap).toNat ∧
    (d.capOffset cap).toNat + notifyPlace d cap off + 2 ≤
      viosndGetResourceLength d (d.capBar cap)

def FirstAccepts (d : PciDevice) (cap : ℕ) (off : BitVec 16) : Prop :=
  2 ∣ (d.capOffset cap).toNat ∧
    (d.capOffset cap).toNat + 2 ≤ viosndGetResourceLength d (d.capBar cap) ∧
    notifyPlace d cap off + 2 ≤ (d.capLength cap).toNat

def SecondAccepts (d : PciDevice) (cap : ℕ) (off : BitVec 16) : Prop :=
  notifyPlace d cap off % 2 ^ 32 + 2 ≤ (d.capLength cap).toNat ∧
    2 ∣ ((d.capOffset cap).toNat + notifyPlace d cap off) % 2 ^ 32 ∧
    ((d.capOffset cap).toNat + notifyPlace d cap off) % 2 ^ 32 + 2 ≤
      viosndGetResourceLength d (d.capBar cap)

instance (d : PciDevice) (cap : ℕ) (off : BitVec 16) : Decidable (FirstAccepts d cap off) :=
  inferInstanceAs (Decidable (_ ∧ _))

instance (d : PciDevice) (cap : ℕ) (off : BitVec 16) : Decidable (SecondAccepts d cap off) :=
  inferInstanceAs (Decidable (_ ∧ _))

section

variable {d : PciDevice} {cap : ℕ} {off : BitVec 16}

private theorem notifyStart_toNat (off : BitVec 16) (multiplier : BitVec 32) :
    (notifyStart off multiplier).toNat = off.toNat * multiplier.toNat % 2 ^ 32 := by
  have hoff : off.toNat < 2 ^ 32 := off.isLt.trans (by decide)
  rw [notifyStart, BitVec.toNat_mul, BitVec.toNat_setWidth, Nat.mod_eq_of_lt hoff]

theorem even_iff (x : BitVec 32) : x &&& (2 - 1) = 0 ↔ 2 ∣ x.toNat := by
  rw [← BitVec.toNat_inj, BitVec.toNat_and]
  change x.toNat &&& 1 = 0 ↔ _
  rw [Nat.and_one_is_mod, Nat.dvd_iff_mod_eq_zero]

private theorem mapTwo_eq {base : ℕ+} (hbase : (d.bars (d.capBar cap)).base = some base)
    (start size : BitVec 32) :
    vioModernMapCapability d cap 2 2 start size =
      if start.toNat + 2 ≤ (d.capLength cap).toNat ∧ 2 ∣ (d.capOffset cap + start).toNat ∧
          (d.capOffset cap + start).toNat + 2 ≤ viosndGetResourceLength d (d.capBar cap) then
        some (base + (d.capOffset cap + start).toNat,
          min (d.capLength cap - start).toNat size.toNat)
      else none := by
  unfold vioModernMapCapability
  dsimp only
  by_cases hlength : (d.capLength cap).toNat < start.toNat + 2
  · rw [if_pos hlength, if_neg (by omega)]
  rw [if_neg hlength]
  by_cases heven : 2 ∣ (d.capOffset cap + start).toNat
  · rw [if_neg (not_not.mpr ((even_iff _).mpr heven))]
    by_cases hbar : viosndGetResourceLength d (d.capBar cap) <
        (d.capOffset cap + start).toNat + 2
    · rw [if_pos hbar, if_neg (by omega)]
    · rw [if_neg hbar, if_pos ⟨by omega, heven, by omega⟩]
      have hmap : viosndMapAddressRange d (d.capBar cap) (d.capOffset cap + start).toNat =
          some (base + (d.capOffset cap + start).toNat) := by
        unfold viosndGetResourceLength at hbar
        unfold viosndMapAddressRange
        split_ifs at hbar ⊢ with hpresent hpast
        · omega
        · omega
        · rw [hbase]
          rfl
      rw [hmap]
      rfl
  · rw [if_pos fun hand => heven ((even_iff _).mp hand), if_neg fun h => heven h.2.1]

private theorem mapTwo_none (hbase : (d.bars (d.capBar cap)).base = none) (start size : BitVec 32) :
    vioModernMapCapability d cap 2 2 start size = none := by
  unfold vioModernMapCapability viosndMapAddressRange
  dsimp only
  rw [hbase]
  split_ifs <;> rfl

private theorem mapThenAddr_eq {base : ℕ+} (hbase : (d.bars (d.capBar cap)).base = some base) :
    mapThenAddr d cap off (d.capMultiplier cap) =
      if FirstAccepts d cap off then
        some (base + (d.capOffset cap).toNat + notifyPlace d cap off)
      else none := by
  have hlength := (d.capLength cap).isLt
  have hmap : vioModernMapCapability d cap 2 2 0 (d.capLength cap) =
      if 2 ≤ (d.capLength cap).toNat ∧ 2 ∣ (d.capOffset cap).toNat ∧
          (d.capOffset cap).toNat + 2 ≤ viosndGetResourceLength d (d.capBar cap) then
        some (base + (d.capOffset cap).toNat, (d.capLength cap).toNat)
      else none := by
    simpa using mapTwo_eq hbase 0 (d.capLength cap)
  unfold mapThenAddr
  rw [hmap]
  by_cases haccepts : FirstAccepts d cap off
  · obtain ⟨heven, hbar, hplace⟩ := haccepts
    have hstart : (notifyStart off (d.capMultiplier cap)).toNat = notifyPlace d cap off := by
      rw [notifyStart_toNat]
      apply Nat.mod_eq_of_lt
      change notifyPlace d cap off < _
      omega
    rw [if_pos ⟨by omega, heven, hbar⟩, if_pos ⟨heven, hbar, hplace⟩, Option.bind_some]
    unfold premappedAddr
    rw [hstart]
    exact if_neg (Nat.not_lt.mpr hplace)
  · rw [if_neg haccepts]
    split_ifs with hmapped
    · have hlong : (d.capLength cap).toNat < notifyPlace d cap off + 2 := by
        by_contra hfits
        exact haccepts ⟨hmapped.2.1, hmapped.2.2, by omega⟩
      exact if_pos hlong
    · rfl

private theorem perQueueAddr_eq {base : ℕ+} (hbase : (d.bars (d.capBar cap)).base = some base) :
    perQueueAddr d cap off (d.capMultiplier cap) =
      if SecondAccepts d cap off then
        some (base + ((d.capOffset cap).toNat + notifyPlace d cap off) % 2 ^ 32)
      else none := by
  have hplace := notifyStart_toNat off (d.capMultiplier cap)
  change _ = notifyPlace d cap off % 2 ^ 32 at hplace
  have hsum : (d.capOffset cap + notifyStart off (d.capMultiplier cap)).toNat =
      ((d.capOffset cap).toNat + notifyPlace d cap off) % 2 ^ 32 := by
    rw [BitVec.toNat_add, hplace, Nat.add_mod_mod]
  unfold perQueueAddr
  rw [mapTwo_eq hbase, hplace, hsum]
  by_cases haccepts : SecondAccepts d cap off
  · rw [if_pos haccepts]
    unfold SecondAccepts at haccepts
    rw [if_pos haccepts]
    rfl
  · rw [if_neg haccepts]
    unfold SecondAccepts at haccepts
    rw [if_neg haccepts]
    rfl

/-- Nothing is mapped, or both ways refuse, or the word fits. -/
def WaysAgree (d : PciDevice) (cap : ℕ) (off : BitVec 16) : Prop :=
  (d.bars (d.capBar cap)).base = none ∨ (¬ FirstAccepts d cap off ∧ ¬ SecondAccepts d cap off) ∨
    WordFits d cap off

private theorem WordFits.accepts (h : WordFits d cap off) :
    FirstAccepts d cap off ∧ SecondAccepts d cap off ∧
      ((d.capOffset cap).toNat + notifyPlace d cap off) % 2 ^ 32 =
        (d.capOffset cap).toNat + notifyPlace d cap off := by
  obtain ⟨heven, hplaceEven, hplace, hbar⟩ := h
  have hlength := (d.capLength cap).isLt
  have hresource := viosndGetResourceLength_lt d (d.capBar cap)
  have hsum := Nat.mod_eq_of_lt
    (show (d.capOffset cap).toNat + notifyPlace d cap off < 2 ^ 32 by omega)
  refine ⟨⟨heven, by omega, hplace⟩, ⟨?_, ?_, ?_⟩, hsum⟩
  · rw [Nat.mod_eq_of_lt (by omega)]
    exact hplace
  · rw [hsum]
    exact Nat.dvd_add heven hplaceEven
  · rw [hsum]
    exact hbar

/-- Both ways accept and give the same only when the word fits. -/
private theorem wordFits_of_accepts (hfirst : FirstAccepts d cap off)
    (hsecond : SecondAccepts d cap off)
    (hsame : ((d.capOffset cap).toNat + notifyPlace d cap off) % 2 ^ 32 =
      (d.capOffset cap).toNat + notifyPlace d cap off) : WordFits d cap off := by
  obtain ⟨heven, -, hplace⟩ := hfirst
  obtain ⟨-, hsumEven, hbar⟩ := hsecond
  rw [hsame] at hsumEven hbar
  exact ⟨heven, (Nat.dvd_add_right heven).mp hsumEven, hplace, hbar⟩

private theorem agree_iff : mapThenAddr d cap off (d.capMultiplier cap) =
    perQueueAddr d cap off (d.capMultiplier cap) ↔ WaysAgree d cap off := by
  cases hbase : (d.bars (d.capBar cap)).base with
  | none =>
      have hboth : mapThenAddr d cap off (d.capMultiplier cap) =
          perQueueAddr d cap off (d.capMultiplier cap) := by
        unfold mapThenAddr perQueueAddr
        rw [mapTwo_none hbase, mapTwo_none hbase]
        rfl
      exact iff_of_true hboth (Or.inl hbase)
  | some base =>
      rw [mapThenAddr_eq hbase, perQueueAddr_eq hbase]
      have hsome : (d.bars (d.capBar cap)).base ≠ none := by
        rw [hbase]
        exact Option.some_ne_none base
      constructor
      · intro hsame
        right
        by_cases hfirst : FirstAccepts d cap off
        · rw [if_pos hfirst] at hsame
          by_cases hsecond : SecondAccepts d cap off
          · rw [if_pos hsecond] at hsame
            have hvalue := Option.some.inj hsame
            exact Or.inr (wordFits_of_accepts hfirst hsecond (by omega))
          · rw [if_neg hsecond] at hsame
            cases hsame
        · rw [if_neg hfirst] at hsame
          by_cases hsecond : SecondAccepts d cap off
          · rw [if_pos hsecond] at hsame
            cases hsame
          · exact Or.inl ⟨hfirst, hsecond⟩
      · intro hagree
        rcases hagree with hnone | ⟨hfirst, hsecond⟩ | hfits
        · exact absurd hnone hsome
        · rw [if_neg hfirst, if_neg hsecond]
        · obtain ⟨hfirst, hsecond, hsum⟩ := hfits.accepts
          rw [if_pos hfirst, if_pos hsecond, hsum, Nat.add_assoc]

theorem WaysAgree.right (h : WaysAgree d cap off) {addr : ℕ}
    (haddr : mapThenAddr d cap off (d.capMultiplier cap) = some addr) :
    RightAddr d cap off addr := by
  cases hbase : (d.bars (d.capBar cap)).base with
  | none =>
      unfold mapThenAddr at haddr
      rw [mapTwo_none hbase] at haddr
      cases haddr
  | some base =>
      rw [mapThenAddr_eq hbase] at haddr
      split_ifs at haddr with hfirst
      have hvalue := Option.some.inj haddr
      rcases h with hnone | ⟨hnot, -⟩ | ⟨-, -, hplace, hbar⟩
      · rw [hbase] at hnone
        cases hnone
      · exact absurd hfirst hnot
      · exact ⟨⟨base, hbase, hvalue.symm⟩, ⟨base, hbase, by omega, by omega⟩, base, hbase,
          by omega, by omega⟩

/-- Which way is taken is decided when the device is initialized. -/
private theorem notificationAddr_eq {caps : ℕ → BitVec 8} {v : VirtIODevice}
    (hinit : initializeWith d caps = .ok v) (off : BitVec 16) :
    notificationAddr d v off =
      if premaps (d.capOffset (caps capNotifyCfg).toNat)
          (d.capLength (caps capNotifyCfg).toNat) then
        mapThenAddr d (caps capNotifyCfg).toNat off (d.capMultiplier (caps capNotifyCfg).toNat)
      else perQueueAddr d (caps capNotifyCfg).toNat off
        (d.capMultiplier (caps capNotifyCfg).toNat) := by
  obtain ⟨-, -, ⟨notify, hmap, hbase, hlen, hcap⟩, hmultiplier, -⟩ := initializeWith_ok hinit
  generalize (caps capNotifyCfg).toNat = cap at *
  unfold mapNotify at hmap
  unfold notificationAddr
  by_cases hpremaps : premaps (d.capOffset cap) (d.capLength cap) = true
  · rw [if_pos hpremaps] at hmap ⊢
    unfold mapThenAddr
    cases hmapped : vioModernMapCapability d cap 2 2 0 (d.capLength cap) with
    | none =>
        rw [hmapped] at hmap
        cases hmap
    | some mapped =>
        rw [hmapped] at hmap
        have hnotify : some mapped = notify := Except.ok.inj hmap
        rw [hbase, hlen, hmultiplier, ← hnotify]
        rfl
  · rw [if_neg hpremaps] at hmap ⊢
    have hnotify : none = notify := Except.ok.inj hmap
    rw [hbase, hcap, hmultiplier, ← hnotify]
    rfl

end

/-- On an initialized device the notification address of a queue is right, whichever way is taken,
and the ways agree, exactly when the area cannot be mapped, both ways refuse, or the word is at an
even place of an even area and fits into the capability and the BAR. -/
theorem notifyRight_iff {d : PciDevice} {fuel : ℕ} {v : VirtIODevice}
    (hinit : vioModernInitialize d fuel = some (.ok v)) (off : BitVec 16) :
    ∃ caps, d.capabilities fuel = some caps ∧
      (NotifyRight d (caps capNotifyCfg).toNat v off ↔
        WaysAgree d (caps capNotifyCfg).toNat off) := by
  obtain ⟨caps, hcaps, hwith⟩ := Option.map_eq_some_iff.mp hinit
  refine ⟨caps, hcaps, ?_⟩
  constructor
  · intro h
    exact agree_iff.mp h.agree
  · intro h
    have hagree := agree_iff.mpr h
    refine ⟨?_, hagree⟩
    intro addr haddr
    rw [notificationAddr_eq hwith off, hagree, ite_self, ← hagree] at haddr
    exact h.right haddr

theorem notifyRight_small : ∃ caps, smallDevice.capabilities 8 = some caps ∧
    (NotifyRight smallDevice (caps capNotifyCfg).toNat smallMapped 1 ↔
      WaysAgree smallDevice (caps capNotifyCfg).toNat 1) :=
  notifyRight_iff (by decide) 1

/-- The notification area of 16 bytes begins 8 bytes before the end of BAR 1. -/
def shortDevice : PciDevice where
  bytes := Function.update smallBytes 0x58 1
  bars bar := if bar = 1 then ⟨true, false, 0xFEBD0000, 0x1008, some 0x20000⟩
    else smallDevice.bars bar

def shortMapped : VirtIODevice := { smallMapped with notifyBase := some 0x21000 }

/-- The word of offset 2 is the first one behind the BAR. -/
theorem shortDevice_not_right : vioModernInitialize shortDevice 8 = some (.ok shortMapped) ∧
    notificationAddr shortDevice shortMapped 2 = some 0x21008 ∧
    ¬ NotifyRight shortDevice 0x54 shortMapped 2 := by
  have haddr : notificationAddr shortDevice shortMapped 2 = some 0x21008 := by decide
  refine ⟨by decide, haddr, ?_⟩
  intro h
  obtain ⟨-, -, base, hbase, -, hend⟩ := h.right _ haddr
  have hsame : (0x20000 : ℕ+) = base := Option.some.inj hbase
  rw [← hsame] at hend
  revert hend
  decide

end Viosnd.Pci
