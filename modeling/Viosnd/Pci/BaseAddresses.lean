import Viosnd.Lib.Tables
import Viosnd.Pci.CapabilityScan

/-!
# Base address registers

The header of a PCI device has six words for the addresses of its regions. The low bits of a word
say what the region is, and a memory region with an address of 64 bits takes two words.
`virtio_get_bar_index` goes back from an address to the index of the first word.
-/

namespace Viosnd.Pci.Bars

/-! ## The lookup -/

/-- One turn of the loop at `i`: the address it reads, and the `i` of the next turn. The word behind
the last one is what follows in the header. -/
def readBar (baseAddresses : ℕ → BitVec 32) (i : ℕ) : BitVec 64 × ℕ :=
  let low := baseAddresses i
  if low &&& 1#32 ≠ 0#32 then (0#32 ++ (low &&& 0xFFFFFFFC#32), i + 1)
  else if low &&& 6#32 = 4#32 then (baseAddresses (i + 1) ++ (low &&& 0xFFFFFFF0#32), i + 2)
  else (0#32 ++ (low &&& 0xFFFFFFF0#32), i + 1)

/-- The loop of `virtio_get_bar_index` from `i` on, with the turns that are left at most. -/
def barIndexFrom (baseAddresses : ℕ → BitVec 32) (basePA : BitVec 64) :
    (turns i : ℕ) → Option ℕ
  | 0, _ => none
  | turns + 1, i =>
      if pciType0Addresses ≤ i then none
      else
        let bar := readBar baseAddresses i
        if bar.1 = basePA then some i else barIndexFrom baseAddresses basePA turns bar.2

/-- `virtio_get_bar_index`, with `none` for -1. -/
def virtioGetBarIndex (baseAddresses : ℕ → BitVec 32) (basePA : BitVec 64) : Option ℕ :=
  barIndexFrom baseAddresses basePA pciType0Addresses 0

/-! ## What the words hold -/

/-- What a device asks for; one of the address 0 is not used. -/
inductive Region where
  | port (address : BitVec 30)
  | memory32 (address : BitVec 28) (prefetchable below1M : Bool)
  | memory64 (address : BitVec 60) (prefetchable : Bool)
  deriving DecidableEq

def Region.isPort : Region → Bool
  | .port _ => true
  | _ => false

def Region.start : Region → BitVec 64
  | .port address => 0#32 ++ (address ++ 0#2)
  | .memory32 address _ _ => 0#32 ++ (address ++ 0#4)
  | .memory64 address _ => address ++ 0#4

def Region.words : Region → List (BitVec 32)
  | .port address => [address ++ 1#2]
  | .memory32 address prefetchable below1M =>
      [address ++ (BitVec.ofBool prefetchable ++ (0#1 ++ (BitVec.ofBool below1M ++ 0#1)))]
  | .memory64 address prefetchable =>
      [address.extractLsb' 0 28 ++ (BitVec.ofBool prefetchable ++ 4#3), address.extractLsb' 28 32]

def places : ℕ → List Region → List (ℕ × Region)
  | _, [] => []
  | i, region :: regions => (i, region) :: places (i + region.words.length) regions

/-- The words of all regions in a row, from `i` on. -/
def HoldsRegions (baseAddresses : ℕ → BitVec 32) : ℕ → List Region → Prop
  | _, [] => True
  | i, region :: regions =>
      (∀ k < region.words.length, baseAddresses (i + k) = region.words.getD k 0) ∧
        HoldsRegions baseAddresses (i + region.words.length) regions

/-- The words of a device whose regions fit, with different addresses. -/
structure Header where
  baseAddresses : ℕ → BitVec 32
  regions : List Region
  /-- How long the region at each index is. -/
  lengths : ℕ → BitVec 32
  holds : HoldsRegions baseAddresses 0 regions
  fits : (regions.flatMap Region.words).length = pciType0Addresses
  apart : regions.Pairwise fun r r' => r.start = r'.start → r.start = 0

structure Window where
  region : Region
  used : region.start ≠ 0
  length : BitVec 32

def Header.window (h : Header) (bar : ℕ) : Option Window :=
  ((places 0 h.regions).find? fun place => place.1 = bar).bind fun place =>
    if hunused : place.2.start = 0 then none else some ⟨place.2, hunused, h.lengths bar⟩

section

variable {m n : ℕ} (high : BitVec m) (low mask : BitVec n)

private theorem and_high : (high ++ low) &&& (BitVec.allOnes m ++ 0#n) = high ++ 0#n := by
  rw [BitVec.and_append, BitVec.and_allOnes, BitVec.and_zero]

private theorem and_low : (high ++ low) &&& (0#m ++ mask) = 0#m ++ (low &&& mask) := by
  rw [BitVec.and_append, BitVec.and_zero]

end

section

variable {baseAddresses : ℕ → BitVec 32} {i : ℕ} {region : Region} {basePA : BitVec 64}

private theorem Region.words_pos (region : Region) : 0 < region.words.length := by
  cases region <;> simp [Region.words]

private theorem readBar_port {address : BitVec 30} (h : baseAddresses i = address ++ 1#2) :
    readBar baseAddresses i = (0#32 ++ (address ++ 0#2), i + 1) := by
  have hflag : (address ++ 1#2) &&& 1#32 = 1#32 := and_low address 1#2 1#2
  have haddress : (address ++ 1#2) &&& 0xFFFFFFFC#32 = address ++ 0#2 := and_high address 1#2
  simp only [readBar, h]
  rw [hflag, haddress, if_pos (by decide)]

private theorem readBar_memory {address : BitVec 28} {kind : BitVec 4}
    (h : baseAddresses i = address ++ kind) (hmemory : kind &&& 1#4 = 0#4) :
    readBar baseAddresses i =
      if kind &&& 6#4 = 4#4 then (baseAddresses (i + 1) ++ (address ++ 0#4), i + 2)
      else (0#32 ++ (address ++ 0#4), i + 1) := by
  have hflag : (address ++ kind) &&& 1#32 = 0#28 ++ (kind &&& 1#4) := and_low address kind 1#4
  have htype : (address ++ kind) &&& 6#32 = 0#28 ++ (kind &&& 6#4) := and_low address kind 6#4
  have haddress : (address ++ kind) &&& 0xFFFFFFF0#32 = address ++ 0#4 := and_high address kind
  have hwide : ∀ bits : BitVec 4, 0#28 ++ bits = 4#32 ↔ bits = 4#4 := by decide
  simp only [readBar, h]
  rw [hflag, hmemory, htype, haddress, if_neg (by decide)]
  simp only [hwide]

private theorem halves_append (address : BitVec 60) :
    address.extractLsb' 28 32 ++ (address.extractLsb' 0 28 ++ 0#4) = address ++ 0#4 := by
  apply BitVec.eq_of_getLsbD_eq
  intro k hk
  simp only [BitVec.getLsbD_append, BitVec.getLsbD_extractLsb', Nat.zero_add]
  by_cases hkind : k < 4
  · rw [if_pos (by omega), if_pos hkind, if_pos hkind]
  · by_cases hhalf : k < 32
    · have hin : k - 4 < 28 := by omega
      rw [if_pos hhalf, if_neg hkind, if_neg hkind]
      simp [hin]
    · have hhigh : 28 + (k - 32) = k - 4 := by omega
      have hin : k - 32 < 32 := by omega
      rw [if_neg hhalf, if_neg hkind, hhigh]
      simp [hin]

/-- A turn at the first word of a region reads its address and goes to the next region. -/
private theorem readBar_words
    (h : ∀ k < region.words.length, baseAddresses (i + k) = region.words.getD k 0) :
    readBar baseAddresses i = (region.start, i + region.words.length) := by
  have hfirst : baseAddresses i = region.words.getD 0 0 := h 0 region.words_pos
  cases region with
  | port address => exact readBar_port hfirst
  | memory32 address prefetchable below1M =>
      rw [readBar_memory hfirst (by cases prefetchable <;> cases below1M <;> rfl), if_neg]
      · rfl
      · cases prefetchable <;> cases below1M <;> decide
  | memory64 address prefetchable =>
      have hhigh : baseAddresses (i + 1) = address.extractLsb' 28 32 := h 1 Nat.one_lt_two
      rw [readBar_memory hfirst (by cases prefetchable <;> rfl), if_pos, hhigh, halves_append]
      · rfl
      · cases prefetchable <;> rfl

/-- From a region on the loop finds the first one with the address. -/
private theorem barIndexFrom_places {regions : List Region} {turns : ℕ}
    (h : HoldsRegions baseAddresses i regions)
    (hfits : i + (regions.flatMap Region.words).length = pciType0Addresses)
    (hturns : regions.length ≤ turns) :
    barIndexFrom baseAddresses basePA turns i =
      ((places i regions).find? fun place => place.2.start = basePA).map Prod.fst := by
  induction regions generalizing i turns with
  | nil =>
      cases turns with
      | zero => rfl
      | succ turns =>
          have hend : pciType0Addresses ≤ i := Nat.le_of_eq hfits.symm
          simp [barIndexFrom, places, hend]
  | cons region regions ih =>
      obtain ⟨hwords, hrest⟩ := h
      rw [List.flatMap_cons, List.length_append] at hfits
      rw [List.length_cons] at hturns
      have hpos := region.words_pos
      cases turns with
      | zero => omega
      | succ turns =>
          rw [barIndexFrom, if_neg (by omega), readBar_words hwords, places, List.find?_cons]
          dsimp only
          by_cases hstart : region.start = basePA
          · simp [hstart]
          · rw [if_neg hstart, ih hrest (by omega) (by omega)]
            simp [hstart]

private theorem length_le_words (regions : List Region) :
    regions.length ≤ (regions.flatMap Region.words).length := by
  induction regions with
  | nil => simp
  | cons region regions ih =>
      have hpos := region.words_pos
      rw [List.flatMap_cons, List.length_append, List.length_cons]
      omega

theorem places_bounds {regions : List Region} {place : ℕ × Region}
    (h : place ∈ places i regions) :
    i ≤ place.1 ∧ place.1 < i + (regions.flatMap Region.words).length ∧ place.2 ∈ regions := by
  induction regions generalizing i with
  | nil => simp [places] at h
  | cons region regions ih =>
      have hpos := region.words_pos
      rw [List.flatMap_cons, List.length_append]
      cases List.mem_cons.mp h with
      | inl hfirst =>
          rw [hfirst]
          exact ⟨le_rfl, by omega, List.mem_cons_self⟩
      | inr hrest =>
          obtain ⟨hlow, hhigh, hmem⟩ := ih hrest
          exact ⟨by omega, by omega, List.mem_cons_of_mem region hmem⟩

/-- Two regions have two indices, and two addresses if they are used. -/
def PlacedApart (place place' : ℕ × Region) : Prop :=
  place.1 ≠ place'.1 ∧ (place.2.start = place'.2.start → place.2.start = 0)

instance : Std.Symm PlacedApart where
  symm place place' h := by
    constructor
    · exact h.1.symm
    · intro hsame
      rw [hsame]
      exact h.2 hsame.symm

private theorem places_apart {regions : List Region}
    (h : regions.Pairwise fun r r' => r.start = r'.start → r.start = 0) :
    (places i regions).Pairwise PlacedApart := by
  induction regions generalizing i with
  | nil => exact List.Pairwise.nil
  | cons region regions ih =>
      obtain ⟨hfirst, hrest⟩ := List.pairwise_cons.mp h
      apply List.pairwise_cons.mpr
      constructor
      · intro place hplace
        have hpos := region.words_pos
        obtain ⟨hlow, -, hmem⟩ := places_bounds hplace
        constructor
        · dsimp only
          omega
        · exact hfirst place.2 hmem
      · exact ih hrest

private theorem Header.apart_of_ne (h : Header) {place place' : ℕ × Region}
    (hplace : place ∈ places 0 h.regions) (hplace' : place' ∈ places 0 h.regions)
    (hne : place ≠ place') : PlacedApart place place' := by
  have hall := places_apart (i := 0) h.apart
  exact hall.forall hplace hplace' hne

theorem Header.window_eq_some_iff (h : Header) {bar : ℕ} {w : Window} :
    h.window bar = some w ↔
      (bar, w.region) ∈ places 0 h.regions ∧ w.length = h.lengths bar := by
  constructor
  · intro hwindow
    obtain ⟨place, hfind, hplace⟩ := Option.bind_eq_some_iff.mp hwindow
    have hbar : place.1 = bar := by simpa using List.find?_some hfind
    split at hplace
    · cases hplace
    · rw [← Option.some.inj hplace, ← hbar]
      exact ⟨List.mem_of_find?_eq_some hfind, rfl⟩
  · rintro ⟨hmem, hlength⟩
    have hfind := Tables.find?_of_alone (p := fun place => decide (place.1 = bar)) hmem
      (by simp) (by
        intro place hplace hbar
        by_contra hne
        exact (h.apart_of_ne hplace hmem hne).1 (by simpa using hbar))
    rw [Header.window, hfind, Option.bind_some, dif_neg w.used, ← hlength]

theorem Header.barIndex_eq_some_iff (h : Header) {bar : ℕ} (hused : basePA ≠ 0) :
    virtioGetBarIndex h.baseAddresses basePA = some bar ↔
      ∃ w, h.window bar = some w ∧ w.region.start = basePA := by
  have hfew : h.regions.length ≤ pciType0Addresses := by
    rw [← h.fits]
    exact length_le_words h.regions
  rw [virtioGetBarIndex, barIndexFrom_places h.holds (by rw [h.fits, Nat.zero_add]) hfew]
  constructor
  · intro hfound
    obtain ⟨place, hfind, rfl⟩ := Option.map_eq_some_iff.mp hfound
    have hstart : place.2.start = basePA := by simpa using List.find?_some hfind
    have hmem := List.mem_of_find?_eq_some hfind
    refine ⟨⟨place.2, by rwa [hstart], h.lengths place.1⟩, ?_, hstart⟩
    exact h.window_eq_some_iff.mpr ⟨hmem, rfl⟩
  · rintro ⟨w, hwindow, hstart⟩
    have hmem := (h.window_eq_some_iff.mp hwindow).1
    have hfind := Tables.find?_of_alone (p := fun place => decide (place.2.start = basePA)) hmem
      (by simpa using hstart) (by
        intro place hplace hsame
        by_contra hne
        have hsame' : place.2.start = basePA := by simpa using hsame
        apply hused
        rw [← hsame']
        exact (h.apart_of_ne hplace hmem hne).2 (hsame'.trans hstart.symm))
    rw [hfind]
    rfl

end

end Viosnd.Pci.Bars
