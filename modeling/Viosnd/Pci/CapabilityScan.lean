import Mathlib.Tactic
import Viosnd.Lib.Loops

/-!
# The scan for vendor capabilities

`find_pci_vendor_capabilities` of `VirtIOPCIModern.c`. An inner loop follows the capability list to
the next vendor capability, for at most 48 entries; the outer loop starts it again behind each
capability found, for as long as there is one.
-/

namespace Viosnd.Pci

open Loops

/-- What the reads of the configuration space give. The reads that follow the list and those of the
fields of a capability are counted apart. -/
structure ConfigReads where
  bytes : ℕ → BitVec 8
  /-- Whether the `n`-th read that follows the list fails. -/
  walkFails : ℕ → Bool
  fieldFails : ℕ → Bool
  /-- What a variable holds that the `n`-th read of a field has failed to set. -/
  stale : ℕ → BitVec 8

def ConfigReads.walkByte (r : ConfigReads) (n place : ℕ) : Option (BitVec 8) :=
  if r.walkFails n then none else some (r.bytes place)

def ConfigReads.fieldByte (r : ConfigReads) (n place : ℕ) : BitVec 8 :=
  if r.fieldFails n then r.stale n else r.bytes place

/-! ## The inner loop -/

/-- `PCI_CAPABILITY_ID_VENDOR_SPECIFIC`. -/
def vendorSpecific : BitVec 8 := 0x09

/-- `offset &= ~3`. -/
def aligned (offset : BitVec 8) : BitVec 8 := offset &&& ~~~3

/-- The loop of `find_next_pci_vendor_capability`; the result comes with the number of reads made
so far. -/
def findFrom (r : ConfigReads) : (iterations : ℕ) → BitVec 8 → ℕ → BitVec 8 × ℕ
  | 0, _, n => (0, n)
  | iterations + 1, offset, n =>
      if offset < 0x40 then (0, n)
      else
        let entry := aligned offset
        match r.walkByte n entry.toNat with
        | none => (0, n + 1)
        | some id =>
            if id = 0xFF then (0, n + 1)
            else if id = vendorSpecific then (entry, n + 1)
            else
              match r.walkByte (n + 1) (entry.toNat + 1) with
              | none => (0, n + 2)
              | some next => findFrom r iterations next (n + 2)

def findNextPciVendorCapability (r : ConfigReads) (offset : BitVec 8) (n : ℕ) : BitVec 8 × ℕ :=
  match r.walkByte n offset.toNat with
  | none => (0, n + 1)
  | some first => findFrom r 48 first (n + 1)

/-- Where the header keeps the pointer to the list: type 2 is a CardBus bridge. -/
def capabilitiesPtr (hdrType : BitVec 8) : BitVec 8 :=
  if hdrType &&& ~~~0x80 = 1 then 0x34 else if hdrType &&& ~~~0x80 = 2 then 0x14 else 0x34

/-- `PCI_STATUS_CAPABILITIES_LIST` in the low byte of the status word. -/
def hasCapabilityList (bytes : ℕ → BitVec 8) : Bool := bytes 0x06 &&& 0x10 != 0

def findFirstPciVendorCapability (r : ConfigReads) : BitVec 8 × ℕ :=
  match r.walkByte 0 0x0E with
  | none => (0, 1)
  | some hdrType =>
      if r.walkFails 1 then (0, 2)
      else if hasCapabilityList r.bytes then
        findNextPciVendorCapability r (capabilitiesPtr hdrType) 2
      else (0, 2)

/-! ## The outer loop -/

structure Scan where
  offset : BitVec 8
  walkReads : ℕ
  fieldReads : ℕ
  /-- `Offsets`. -/
  offsets : ℕ → BitVec 8

/-- The BARs with a resource, and the number of configuration types that are wanted. -/
structure Wanted where
  present : ℕ → Bool
  nOffsets : ℕ

/-- `PCI_TYPE0_ADDRESSES`. -/
def pciType0Addresses : ℕ := 6

/-- The entry of `Offsets` a capability with these fields is recorded in. -/
def Wanted.records (w : Wanted) (cfgType bar : BitVec 8) : Bool :=
  bar.toNat < pciType0Addresses && cfgType.toNat < w.nOffsets && w.present bar.toNat

def scanStart (r : ConfigReads) (offsets : ℕ → BitVec 8) : Scan where
  offset := (findFirstPciVendorCapability r).1
  walkReads := (findFirstPciVendorCapability r).2
  fieldReads := 0
  offsets := offsets

def scanCond (s : Scan) : Bool := s.offset != 0

def scanBody (r : ConfigReads) (w : Wanted) (s : Scan) : Scan :=
  let cfgType := r.fieldByte s.fieldReads (s.offset.toNat + 3)
  let bar := r.fieldByte (s.fieldReads + 1) (s.offset.toNat + 4)
  let next := findNextPciVendorCapability r (s.offset + 1) s.walkReads
  { offset := next.1
    walkReads := next.2
    fieldReads := s.fieldReads + 2
    offsets := if w.records cfgType bar then Function.update s.offsets cfgType.toNat s.offset
      else s.offsets }

/-- `find_pci_vendor_capabilities`, with fuel for the outer loop. -/
def findPciVendorCapabilities (r : ConfigReads) (w : Wanted) (offsets : ℕ → BitVec 8) (fuel : ℕ) :
    Option (ℕ → BitVec 8) :=
  (whileLoop scanCond (scanBody r w) fuel (scanStart r offsets)).map Scan.offsets

/-! ## The walk without failures -/

def succeeding (bytes : ℕ → BitVec 8) : ConfigReads where
  bytes := bytes
  walkFails _ := false
  fieldFails _ := false
  stale _ := 0

/-- The vendor capability behind the one at `offset`, or 0. -/
def nextVendor (bytes : ℕ → BitVec 8) (offset : BitVec 8) : BitVec 8 :=
  (findNextPciVendorCapability (succeeding bytes) (offset + 1) 0).1

def firstVendor (bytes : ℕ → BitVec 8) : BitVec 8 :=
  (findFirstPciVendorCapability (succeeding bytes)).1

/-- From vendor capability to vendor capability one comes back to one that was met before. -/
def VendorsRepeat (bytes : ℕ → BitVec 8) : Prop :=
  Repeats (fun offset => offset != 0) (nextVendor bytes) (firstVendor bytes)

section

variable {r : ConfigReads} {w : Wanted} {offsets : ℕ → BitVec 8}

private theorem ConfigReads.walkByte_ok {n : ℕ} (h : r.walkFails n = false) (place : ℕ) :
    r.walkByte n place = some (r.bytes place) := by
  simp [walkByte, h]

private theorem ConfigReads.walkByte_some {n place : ℕ} {b : BitVec 8}
    (h : r.walkByte n place = some b) :
    r.walkFails n = false ∧ r.bytes place = b := by
  unfold walkByte at h
  split_ifs at h with hfails
  exact ⟨by simpa using hfails, Option.some.inj h⟩

/-- What an inner loop says of the reads it made: the count grows, and a capability is only found
when none of them has failed. -/
structure Followed (r : ConfigReads) (n : ℕ) (result : BitVec 8 × ℕ) : Prop where
  grows : n ≤ result.2
  sound : result.1 ≠ 0 → ∀ m, n ≤ m → m < result.2 → r.walkFails m = false

theorem Followed.nothing {n m : ℕ} (h : n ≤ m) : Followed r n (0, m) where
  grows := h
  sound hfound := absurd rfl hfound

theorem Followed.succeeded {n : ℕ} {result : BitVec 8 × ℕ} (hok : r.walkFails n = false)
    (h : Followed r (n + 1) result) : Followed r n result where
  grows := Nat.le_of_succ_le h.grows
  sound hfound m hm hlt := by
    rcases Nat.eq_or_lt_of_le hm with heq | hlater
    · rw [← heq]
      exact hok
    · exact h.sound hfound m hlater hlt

theorem Followed.found (n : ℕ) (entry : BitVec 8) : Followed r n (entry, n) where
  grows := Nat.le_refl n
  sound _ _ hm hlt := absurd hm (Nat.not_le_of_lt hlt)

private theorem findFrom_followed (iterations : ℕ) (offset : BitVec 8) (n : ℕ) :
    Followed r n (findFrom r iterations offset n) := by
  induction iterations generalizing offset n with
  | zero => exact Followed.nothing (Nat.le_refl n)
  | succ iterations ih =>
      rw [findFrom]
      split_ifs with hend
      · exact Followed.nothing (Nat.le_refl n)
      dsimp only
      cases hid : r.walkByte n (aligned offset).toNat with
      | none => exact Followed.nothing (Nat.le_succ n)
      | some id =>
          apply Followed.succeeded (r.walkByte_some hid).1
          dsimp only
          split_ifs with hff hvendor
          · exact Followed.nothing (Nat.le_refl _)
          · exact Followed.found _ _
          · cases hnext : r.walkByte (n + 1) ((aligned offset).toNat + 1) with
            | none => exact Followed.nothing (Nat.le_succ _)
            | some next =>
                apply Followed.succeeded (r.walkByte_some hnext).1
                exact ih next (n + 2)

private theorem findNext_followed (offset : BitVec 8) (n : ℕ) :
    Followed r n (findNextPciVendorCapability r offset n) ∧
      n < (findNextPciVendorCapability r offset n).2 := by
  unfold findNextPciVendorCapability
  cases hfirst : r.walkByte n offset.toNat with
  | none => exact ⟨Followed.nothing (Nat.le_succ n), Nat.lt_succ_self n⟩
  | some first =>
      have hrest := findFrom_followed (r := r) 48 first (n + 1)
      exact ⟨hrest.succeeded (r.walkByte_some hfirst).1, hrest.grows⟩

private theorem findFirst_followed : Followed r 0 (findFirstPciVendorCapability r) := by
  unfold findFirstPciVendorCapability
  cases hhdr : r.walkByte 0 0x0E with
  | none => exact Followed.nothing (Nat.zero_le _)
  | some hdrType =>
      apply Followed.succeeded (r.walkByte_some hhdr).1
      dsimp only
      split_ifs with hstatus hlist
      · exact Followed.nothing (by omega)
      · apply Followed.succeeded (by simpa using hstatus)
        exact (findNext_followed (capabilitiesPtr hdrType) 2).1
      · exact Followed.nothing (by omega)

private theorem findFrom_ok (hok : ∀ n, r.walkFails n = false) {r' : ConfigReads}
    (hok' : ∀ n, r'.walkFails n = false) (hbytes : r'.bytes = r.bytes) (iterations : ℕ)
    (offset : BitVec 8) (n n' : ℕ) :
    (findFrom r iterations offset n).1 = (findFrom r' iterations offset n').1 := by
  induction iterations generalizing offset n n' with
  | zero => rfl
  | succ iterations ih =>
      unfold findFrom
      simp only [r.walkByte_ok (hok _), r'.walkByte_ok (hok' _), hbytes]
      split_ifs
      · rfl
      · rfl
      · rfl
      · exact ih _ _ _

private theorem findNext_ok (hok : ∀ n, r.walkFails n = false) {r' : ConfigReads}
    (hok' : ∀ n, r'.walkFails n = false) (hbytes : r'.bytes = r.bytes) (offset : BitVec 8)
    (n n' : ℕ) :
    (findNextPciVendorCapability r offset n).1 = (findNextPciVendorCapability r' offset n').1 := by
  unfold findNextPciVendorCapability
  rw [r.walkByte_ok (hok n), r'.walkByte_ok (hok' n'), hbytes]
  exact findFrom_ok hok hok' hbytes _ _ _ _

private theorem findNext_eq (hok : ∀ n, r.walkFails n = false) (offset : BitVec 8) (n : ℕ) :
    (findNextPciVendorCapability r (offset + 1) n).1 = nextVendor r.bytes offset := by
  apply findNext_ok hok
  · exact fun _ => rfl
  · rfl

private theorem findFirst_eq (hok : ∀ n, r.walkFails n = false) :
    (findFirstPciVendorCapability r).1 = firstVendor r.bytes := by
  have hok' : ∀ n, (succeeding r.bytes).walkFails n = false := fun _ => rfl
  have hbytes : (succeeding r.bytes).bytes = r.bytes := rfl
  unfold firstVendor findFirstPciVendorCapability
  rw [r.walkByte_ok (hok 0), ConfigReads.walkByte_ok (hok' 0), hbytes]
  dsimp only
  simp only [hok 1, hok' 1, Bool.false_eq_true, if_false]
  cases hasCapabilityList r.bytes with
  | true => exact findNext_ok hok hok' hbytes _ _ _
  | false => rfl

/-! ## When the scan ends -/

private theorem scan_sound (k : ℕ)
    (hgo : ∀ j ≤ k, scanCond ((scanBody r w)^[j] (scanStart r offsets)) = true) :
    ∀ m < ((scanBody r w)^[k] (scanStart r offsets)).walkReads, r.walkFails m = false := by
  induction k with
  | zero =>
      intro m hm
      have hfound : (findFirstPciVendorCapability r).1 ≠ 0 := by
        simpa [scanCond, scanStart] using hgo 0 (Nat.le_refl 0)
      exact findFirst_followed.sound hfound m (Nat.zero_le m) hm
  | succ k ih =>
      have hbefore := ih fun j hj => hgo j (Nat.le_succ_of_le hj)
      have hfound := hgo (k + 1) (Nat.le_refl _)
      rw [Function.iterate_succ_apply'] at hfound ⊢
      generalize (scanBody r w)^[k] (scanStart r offsets) = s at hbefore hfound ⊢
      intro m hm
      rcases Nat.lt_or_ge m s.walkReads with hearly | hlate
      · exact hbefore m hearly
      · have hfollowed := (findNext_followed (r := r) (s.offset + 1) s.walkReads).1
        apply hfollowed.sound ?_ m hlate hm
        simpa [scanCond, scanBody] using hfound

private theorem halts_of_failure {n : ℕ} (hfails : r.walkFails n = true) :
    Halts scanCond (scanBody r w) (scanStart r offsets) := by
  apply halts_of_measure Scan.walkReads n
  · intro s _
    exact (findNext_followed (s.offset + 1) s.walkReads).2
  · intro k hgo
    by_contra hmany
    have hsound := scan_sound k hgo n (by omega)
    rw [hfails] at hsound
    exact Bool.noConfusion hsound

private theorem halts_iff_not_repeat (hok : ∀ n, r.walkFails n = false) :
    Halts scanCond (scanBody r w) (scanStart r offsets) ↔ ¬ VendorsRepeat r.bytes := by
  have hfirst : (scanStart r offsets).offset = firstVendor r.bytes := findFirst_eq hok
  have hfinite : Finite (BitVec 8) :=
    Finite.of_injective BitVec.toFin fun _ _ hsame => BitVec.eq_of_toFin_eq hsame
  unfold VendorsRepeat
  rw [← leaves_iff, ← hfirst]
  exact halts_iff_leaves Scan.offset (fun s => rfl)
    fun s => findNext_eq hok s.offset s.walkReads

end

/-! ## What the scan records -/

/-- The entries of the capability list behind a pointer. -/
inductive Lists (bytes : ℕ → BitVec 8) : BitVec 8 → List (BitVec 8) → Prop where
  | done {pointer : BitVec 8} (hend : pointer < 0x40) : Lists bytes pointer []
  | entry {pointer : BitVec 8} {rest : List (BitVec 8)} (hgo : ¬ pointer < 0x40)
      (hrest : Lists bytes (bytes ((aligned pointer).toNat + 1)) rest) :
      Lists bytes pointer (aligned pointer :: rest)

def CapabilityList (bytes : ℕ → BitVec 8) (entries : List (BitVec 8)) : Prop :=
  if hasCapabilityList bytes then Lists bytes (bytes (capabilitiesPtr (bytes 0x0E)).toNat) entries
  else entries = []

def isVendor (bytes : ℕ → BitVec 8) (entry : BitVec 8) : Bool := bytes entry.toNat == vendorSpecific

def cfgTypeOf (bytes : ℕ → BitVec 8) (entry : BitVec 8) : BitVec 8 := bytes (entry.toNat + 3)

def barOf (bytes : ℕ → BitVec 8) (entry : BitVec 8) : BitVec 8 := bytes (entry.toNat + 4)

/-- A vendor capability of the type, with a BAR that is valid and present. -/
def Wanted.Offers (w : Wanted) (bytes : ℕ → BitVec 8) (cfgType : ℕ) (entry : BitVec 8) : Bool :=
  isVendor bytes entry && (cfgTypeOf bytes entry).toNat == cfgType &&
    w.records (cfgTypeOf bytes entry) (barOf bytes entry)

def firstOf (bytes : ℕ → BitVec 8) (entries : List (BitVec 8)) : BitVec 8 :=
  (entries.find? (isVendor bytes)).getD 0

private theorem aligned_toNat (pointer : BitVec 8) :
    (aligned pointer + 1).toNat = (aligned pointer).toNat + 1 := by
  revert pointer
  decide

private theorem aligned_ne_zero {pointer : BitVec 8} (h : ¬ pointer < 0x40) :
    aligned pointer ≠ 0 := by
  revert pointer
  decide

section

variable {r : ConfigReads} {w : Wanted} {offsets : ℕ → BitVec 8} {entries : List (BitVec 8)}

/-- A short list without the id `0xFF` is followed to its first vendor capability. -/
private theorem findFrom_eq (hok : ∀ n, r.walkFails n = false) {pointer : BitVec 8}
    (hlist : Lists r.bytes pointer entries) (hids : ∀ e ∈ entries, r.bytes e.toNat ≠ 0xFF)
    {iterations : ℕ} (hshort : entries.length ≤ iterations) (n : ℕ) :
    (findFrom r iterations pointer n).1 = firstOf r.bytes entries := by
  induction hlist generalizing iterations n with
  | done hend =>
      cases iterations with
      | zero => rfl
      | succ iterations =>
          rw [findFrom, if_pos hend]
          rfl
  | @entry pointer rest hgo hrest ih =>
      obtain ⟨iterations, rfl⟩ : ∃ i, iterations = i + 1 :=
        ⟨iterations - 1, by simp at hshort; omega⟩
      have hff := hids (aligned pointer) List.mem_cons_self
      rw [findFrom, if_neg hgo]
      simp only [r.walkByte_ok (hok _), if_neg hff]
      by_cases hvendor : r.bytes (aligned pointer).toNat = vendorSpecific
      · simp [hvendor, firstOf, isVendor]
      · rw [if_neg hvendor, ih (fun e he => hids e (List.mem_cons_of_mem _ he))
          (by simpa using hshort)]
        simp [firstOf, isVendor, hvendor]

def recordOne (bytes : ℕ → BitVec 8) (w : Wanted) (offsets : ℕ → BitVec 8) (entry : BitVec 8) :
    ℕ → BitVec 8 :=
  if w.records (cfgTypeOf bytes entry) (barOf bytes entry) then
    Function.update offsets (cfgTypeOf bytes entry).toNat entry
  else offsets

/-- The outer loop comes to every vendor capability of the list once, in order. -/
private theorem whileLoop_list (hok : ∀ n, r.walkFails n = false)
    (hfields : ∀ n, r.fieldFails n = false) {pointer : BitVec 8}
    (hlist : Lists r.bytes pointer entries) (hids : ∀ e ∈ entries, r.bytes e.toNat ≠ 0xFF)
    (hshort : entries.length ≤ 48) (s : Scan) (hs : s.offset = firstOf r.bytes entries) :
    ∃ fuel t, whileLoop scanCond (scanBody r w) fuel s = some t ∧
      t.offsets = (entries.filter (isVendor r.bytes)).foldl (recordOne r.bytes w) s.offsets := by
  induction hlist generalizing s with
  | done hend =>
      refine ⟨0, s, whileLoop_stop ?_, rfl⟩
      rw [scanCond, hs]
      rfl
  | @entry pointer rest hgo hrest ih =>
      have hrestIds : ∀ e ∈ rest, r.bytes e.toNat ≠ 0xFF :=
        fun e he => hids e (List.mem_cons_of_mem _ he)
      have hrestShort : rest.length ≤ 48 := by
        simp at hshort
        omega
      by_cases hvendor : isVendor r.bytes (aligned pointer) = true
      · have hoffset : s.offset = aligned pointer := by
          rw [hs]
          simp [firstOf, hvendor]
        have hgoes : scanCond s = true := by
          rw [scanCond, hoffset]
          simpa using aligned_ne_zero hgo
        have hnext : (scanBody r w s).offset = firstOf r.bytes rest := by
          simp only [scanBody, findNextPciVendorCapability, r.walkByte_ok (hok _), hoffset,
            aligned_toNat]
          exact findFrom_eq hok hrest hrestIds hrestShort _
        have hrecord : (scanBody r w s).offsets =
            recordOne r.bytes w s.offsets (aligned pointer) := by
          simp only [scanBody, ConfigReads.fieldByte, hfields, hoffset, recordOne]
          rfl
        obtain ⟨fuel, t, hloop, ht⟩ := ih hrestIds hrestShort (scanBody r w s) hnext
        refine ⟨fuel + 1, t, ?_, ?_⟩
        · rw [whileLoop_go hgoes, hloop]
        · rw [ht, hrecord, List.filter_cons_of_pos hvendor, List.foldl_cons]
      · have hskip : s.offset = firstOf r.bytes rest := by
          rw [hs]
          simp [firstOf, hvendor]
        obtain ⟨fuel, t, hloop, ht⟩ := ih hrestIds hrestShort s hskip
        refine ⟨fuel, t, hloop, ?_⟩
        rw [ht, List.filter_cons_of_neg hvendor]

private theorem foldl_recordOne (bytes : ℕ → BitVec 8) (w : Wanted) (offsets : ℕ → BitVec 8)
    (entries : List (BitVec 8)) (cfgType : ℕ) :
    (entries.filter (isVendor bytes)).foldl (recordOne bytes w) offsets cfgType =
      ((entries.filter (w.Offers bytes cfgType)).getLast?).getD (offsets cfgType) := by
  induction entries using List.reverseRecOn with
  | nil => rfl
  | append_singleton entries entry ih =>
      rw [List.filter_append, List.filter_append]
      by_cases hvendor : isVendor bytes entry = true
      · rw [List.filter_cons_of_pos hvendor, List.filter_nil, List.foldl_append]
        simp only [List.foldl_cons, List.foldl_nil, recordOne]
        by_cases hrecords : w.records (cfgTypeOf bytes entry) (barOf bytes entry) = true
        · by_cases htype : (cfgTypeOf bytes entry).toNat = cfgType
          · simp [hrecords, htype, Wanted.Offers, hvendor]
          · have hne : cfgType ≠ (cfgTypeOf bytes entry).toNat := fun h => htype h.symm
            simp [hrecords, htype, Wanted.Offers, hvendor, Function.update_of_ne hne, ih]
        · simp [hrecords, Wanted.Offers, hvendor, ih]
      · simp [Wanted.Offers, hvendor, ih]

/-- The scan of a short list records just what the list offers. -/
private theorem scan_records (hok : ∀ n, r.walkFails n = false)
    (hfields : ∀ n, r.fieldFails n = false) (hlist : CapabilityList r.bytes entries)
    (hids : ∀ e ∈ entries, r.bytes e.toNat ≠ 0xFF) (hshort : entries.length ≤ 48) {fuel : ℕ}
    {found : ℕ → BitVec 8} (hfound : findPciVendorCapabilities r w offsets fuel = some found)
    (cfgType : ℕ) :
    found cfgType =
      ((entries.filter (w.Offers r.bytes cfgType)).getLast?).getD (offsets cfgType) := by
  have hscan : ∃ fuel t, whileLoop scanCond (scanBody r w) fuel (scanStart r offsets) = some t ∧
      t.offsets = (entries.filter (isVendor r.bytes)).foldl (recordOne r.bytes w) offsets := by
    unfold CapabilityList at hlist
    cases hhas : hasCapabilityList r.bytes with
    | true =>
        rw [hhas, if_pos rfl] at hlist
        apply whileLoop_list hok hfields hlist hids hshort
        simp only [scanStart, findFirstPciVendorCapability, r.walkByte_ok (hok _), hok, hhas,
          findNextPciVendorCapability, Bool.false_eq_true, if_true, if_false]
        exact findFrom_eq hok hlist hids hshort _
    | false =>
        rw [hhas, if_neg (by simp)] at hlist
        refine ⟨0, _, whileLoop_stop ?_, ?_⟩
        · simp [scanCond, scanStart, findFirstPciVendorCapability, r.walkByte_ok (hok _), hok, hhas]
        · rw [hlist]
          rfl
  obtain ⟨enough, t, hloop, ht⟩ := hscan
  obtain ⟨t', hloop', rfl⟩ := Option.map_eq_some_iff.mp hfound
  have hsame : t' = t := by
    have hlong := whileLoop_mono hloop (Nat.le_max_left enough fuel)
    have hlong' := whileLoop_mono hloop' (Nat.le_max_right enough fuel)
    rw [hlong] at hlong'
    exact (Option.some.inj hlong').symm
  rw [hsame, ht, foldl_recordOne]

end

/-- The scan ends, and when all reads succeed and the list is short, ends and has no entry with
the id `0xFF`, it records the last capability that offers each type, and nothing else. -/
structure ScanRight (r : ConfigReads) (w : Wanted) (offsets : ℕ → BitVec 8) : Prop where
  ends : ∃ fuel, (findPciVendorCapabilities r w offsets fuel).isSome = true
  complete : (∀ n, r.walkFails n = false) → (∀ n, r.fieldFails n = false) →
    ∀ entries, CapabilityList r.bytes entries → (∀ e ∈ entries, r.bytes e.toNat ≠ 0xFF) →
      entries.length ≤ 48 → ∀ fuel found, findPciVendorCapabilities r w offsets fuel = some found →
        ∀ cfgType, found cfgType =
          ((entries.filter (w.Offers r.bytes cfgType)).getLast?).getD (offsets cfgType)

/-- The scan is right exactly when a read that follows the list fails or no vendor capability leads
back to one that was met before. -/
theorem scanRight_iff (r : ConfigReads) (w : Wanted) (offsets : ℕ → BitVec 8) :
    ScanRight r w offsets ↔ (∃ n, r.walkFails n = true) ∨ ¬ VendorsRepeat r.bytes := by
  have hends : (∃ fuel, (findPciVendorCapabilities r w offsets fuel).isSome = true) ↔
      Halts scanCond (scanBody r w) (scanStart r offsets) := by
    simp [Halts, findPciVendorCapabilities]
  constructor
  · intro h
    by_cases hfails : ∃ n, r.walkFails n = true
    · exact Or.inl hfails
    · right
      have hok : ∀ n, r.walkFails n = false := by simpa using hfails
      exact (halts_iff_not_repeat hok).mp (hends.mp h.ends)
  · intro h
    refine ⟨hends.mpr ?_, ?_⟩
    · by_cases hfails : ∃ n, r.walkFails n = true
      · obtain ⟨n, hn⟩ := hfails
        exact halts_of_failure hn
      · have hok : ∀ n, r.walkFails n = false := by simpa using hfails
        exact (halts_iff_not_repeat hok).mpr (h.resolve_left hfails)
    · intro hok hfields entries hlist hids hshort fuel found hfound cfgType
      exact scan_records hok hfields hlist hids hshort hfound cfgType

/-- A list of one vendor capability at `0x40` whose pointer names itself. -/
def selfLinked (place : ℕ) : BitVec 8 :=
  if place = 0x06 then 0x10
  else if place = 0x34 then 0x40
  else if place = 0x40 then 0x09
  else if place = 0x41 then 0x40
  else 0

theorem selfLinked_not_right :
    ¬ ScanRight (succeeding selfLinked) ⟨fun _ => true, 5⟩ fun _ => 0 := by
  intro h
  have hends : Halts scanCond (scanBody (succeeding selfLinked) ⟨fun _ => true, 5⟩)
      (scanStart (succeeding selfLinked) fun _ => 0) := by
    simpa [Halts, findPciVendorCapabilities] using h.ends
  apply (halts_iff_not_repeat fun _ => rfl).mp hends
  refine ⟨0, 1, Nat.zero_lt_one, ?_, by decide⟩
  intro k hk
  interval_cases k <;> decide

end Viosnd.Pci
