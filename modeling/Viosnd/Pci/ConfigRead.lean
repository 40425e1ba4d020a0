import Viosnd.Lib.SequenceLock
import Viosnd.Pci.Windows

/-!
# Reading the device configuration

`virtio_get_config` reads one, two or four bytes with one access and everything else field by field,
between two reads of `config_generation`, over again until the generation stays the same. The device
may change its configuration between any two accesses.
-/

namespace Viosnd.Pci

open SequenceLock StepRun

abbrev Registers : Type := ℕ → BitVec 8

abbrev Buffer : Type := ℕ → BitVec 8

/-- `vio_modern_get_config` into the buffer at `place`; a rejected read leaves it alone. -/
def getConfigAt (v : VirtIODevice) (offset len : BitVec 32) (place : ℕ) (regs : Registers)
    (buf : Buffer) : Buffer :=
  match vioModernGetConfig v offset len with
  | none => buf
  | some addr => fun k =>
      if place ≤ k ∧ k < place + len.toNat then regs (addr + (k - place)) else buf k

/-- The reads of one pass of `virtio_cread_many`. -/
def creadFields (v : VirtIODevice) (offset bytes : BitVec 32) (count : ℕ) :
    List (Registers → Buffer → Buffer) :=
  (List.range count).map fun i =>
    getConfigAt v (offset + BitVec.ofNat 32 (bytes.toNat * i)) bytes (i * bytes.toNat)

/-- `count` and `bytes` as `virtio_get_config` chooses them for a length it does not read in one
access. -/
def creadShape (len : BitVec 32) : ℕ × BitVec 32 := if len = 8 then (2, 4) else (len.toNat, 1)

/-- `vio_modern_get_generation`, an 8-bit counter. -/
def vioModernGetGeneration (version : ℕ) : BitVec 32 := (BitVec.ofNat 8 version).setWidth 32

/-- The reads that `virtio_get_config` leaves to `virtio_cread_many`. -/
def manyReads (v : VirtIODevice) (offset len : BitVec 32) : List (Registers → Buffer → Buffer) :=
  creadFields v offset (creadShape len).2 (creadShape len).1

abbrev ReadState : Type := SequenceLock.State Registers Buffer (BitVec 32)

/-- A call that makes a single access. -/
def readOnce (v : VirtIODevice) (offset len : BitVec 32) (s : ReadState) :
    Input Registers → ReadState
  | .update regs => { s with contents := regs, version := s.version + 1 }
  | .tick =>
      match s.reader with
      | .start buf => { s with reader := .done (getConfigAt v offset len 0 s.contents buf) }
      | _ => s

/-- `virtio_get_config`: one access of the driver, or one change by the device, which counts up the
generation with it. -/
def virtioGetConfig (v : VirtIODevice) (offset len : BitVec 32) (s : ReadState)
    (i : Input Registers) : ReadState :=
  if len = 1 ∨ len = 2 ∨ len = 4 then readOnce v offset len s i
  else step vioModernGetGeneration (manyReads v offset len) s i

/-- The call as it begins, with a buffer that holds anything. -/
def beforeRead (regs : Registers) (version : ℕ) (buf : Buffer) : ReadState where
  contents := regs
  version := version
  passStart := version
  reader := .start buf

/-- A counter of 8 bits does not come round within fewer than 256 steps. -/
private theorem vioModernGetGeneration_inj (a b : ℕ) (hle : a ≤ b) (hnear : b < a + 256)
    (hsame : vioModernGetGeneration b = vioModernGetGeneration a) : b = a := by
  have hmod := congrArg BitVec.toNat hsame
  simp only [vioModernGetGeneration, BitVec.toNat_setWidth, BitVec.toNat_ofNat] at hmod
  omega

section

variable {v : VirtIODevice} {config : ℕ} {offset bytes : BitVec 32}

private theorem getConfigAt_eq (hconfig : v.config = some config) (hbytes : bytes = 1 ∨ bytes = 4)
    (hfits : offset.toNat + bytes.toNat ≤ v.configLen) (hwindow : v.configLen ≤ pageSize.toNat)
    (place : ℕ) (regs : Registers) (buf : Buffer) :
    getConfigAt v offset bytes place regs buf = fun k =>
      if place ≤ k ∧ k < place + bytes.toNat then
        regs (config + offset.toNat + (k - place))
      else buf k := by
  have hsum : (offset + bytes).toNat = offset.toNat + bytes.toNat := by
    rw [BitVec.toNat_add]
    apply Nat.mod_eq_of_lt
    have hpage : pageSize.toNat = 4096 := rfl
    omega
  have hregister : vioModernGetConfig v offset bytes = some (config + offset.toNat) := by
    have hsize : bytes = 1 ∨ bytes = 2 ∨ bytes = 4 := hbytes.imp_right Or.inr
    unfold vioModernGetConfig configRegister
    rw [hconfig]
    dsimp only
    rw [hsum, if_neg (Nat.not_lt.mpr hfits), if_pos hsize]
  unfold getConfigAt
  rw [hregister]

/-- The fields read at one time are the bytes of the window at that time. -/
private theorem readAll_creadFields (hconfig : v.config = some config)
    (hbytes : bytes = 1 ∨ bytes = 4) (hwindow : v.configLen ≤ pageSize.toNat) (regs : Registers)
    (buf : Buffer) (count : ℕ) (hfits : offset.toNat + bytes.toNat * count ≤ v.configLen) (k : ℕ)
    (hk : k < bytes.toNat * count) :
    readAll regs (creadFields v offset bytes count) buf k = regs (config + offset.toNat + k) := by
  induction count with
  | zero => simp at hk
  | succ count ih =>
      have hpage : pageSize.toNat = 4096 := rfl
      rw [Nat.mul_succ] at hfits hk
      have hplace : (offset + BitVec.ofNat 32 (bytes.toNat * count)).toNat =
          offset.toNat + bytes.toNat * count := by
        rw [BitVec.toNat_add, BitVec.toNat_ofNat, Nat.add_mod_mod]
        apply Nat.mod_eq_of_lt
        omega
      have hlast := getConfigAt_eq hconfig hbytes
        (by rw [hplace]; omega) hwindow
      unfold creadFields readAll at ih ⊢
      rw [List.range_succ, List.map_append, List.foldl_append]
      simp only [List.map_cons, List.map_nil, List.foldl_cons, List.foldl_nil]
      rw [hlast, hplace, Nat.mul_comm count]
      dsimp only
      by_cases hearly : k < bytes.toNat * count
      · rw [if_neg (by omega)]
        exact ih (by omega) hearly
      · rw [if_pos (by omega)]
        congr 1
        omega

end

private theorem creadShape_size (len : BitVec 32) :
    (creadShape len).2.toNat * (creadShape len).1 = len.toNat ∧
      ((creadShape len).2 = 1 ∨ (creadShape len).2 = 4) := by
  unfold creadShape
  split_ifs with height
  · rw [height]
    decide
  · simp

/-- However the accesses of a call fall between the changes of the device, with fewer than 256
changes in a pass, what the call returns is what the window held at one moment of the call. -/
theorem getConfig_consistent {d : PciDevice} {fuel : ℕ} {v : VirtIODevice}
    (hinit : vioModernInitialize d fuel = some (.ok v)) {config : ℕ}
    (hconfig : v.config = some config) {offset len : BitVec 32}
    (hsize : len ≠ 1 ∧ len ≠ 2 ∧ len ≠ 4) (hwindow : offset.toNat + len.toNat ≤ v.configLen)
    (regs : Registers) (version : ℕ) (buf : Buffer) {inputs : List (Input Registers)}
    (hfew : Guarded (virtioGetConfig v offset len) (FewUpdates 256) (beforeRead regs version buf)
      inputs) {got : Buffer}
    (hdone : (run (virtioGetConfig v offset len) (beforeRead regs version buf) inputs).reader =
      .done got) :
    ∃ first, first <+: inputs ∧
      (∃ old acc, (run (virtioGetConfig v offset len) (beforeRead regs version buf) first).reader =
        .reading old [] acc) ∧
      ∀ k < len.toNat, got k =
        (run (virtioGetConfig v offset len) (beforeRead regs version buf) first).contents
          (config + offset.toNat + k) := by
  obtain ⟨caps, -, hwith⟩ := Option.map_eq_some_iff.mp hinit
  have hpage : v.configLen ≤ pageSize.toNat := by
    rw [(initializeWith_config hwith hconfig).2]
    exact Nat.min_le_right _ _
  have hsound : (beforeRead regs version buf).Sound vioModernGetGeneration
      (manyReads v offset len) 256 := by
    intro old rest acc hreader
    simp [beforeRead] at hreader
  have hmany : virtioGetConfig v offset len =
      step vioModernGetGeneration (manyReads v offset len) := by
    funext s i
    apply if_neg
    simp only [hsize.1, hsize.2.1, hsize.2.2, or_self, not_false_eq_true]
  rw [hmany] at hfew hdone ⊢
  obtain ⟨first, hfirst, hcall, before, hgot⟩ := read_at_once (by decide)
    vioModernGetGeneration_inj hsound (by simp [beforeRead]) hfew hdone
  refine ⟨first, hfirst, hcall, ?_⟩
  intro k hk
  obtain ⟨hbytes, hshape⟩ := creadShape_size len
  rw [hgot]
  apply readAll_creadFields hconfig hshape hpage
  · rw [hbytes]
    exact hwindow
  · rw [hbytes]
    exact hk

/-- A change between the second and the third byte makes a second pass. -/
theorem getConfig_consistent_small : ∃ (got : Buffer) (first : List (Input Registers)),
    first <+: [.tick, .tick, .tick, .update fun _ => 7, .tick, .tick, .tick, .tick, .tick, .tick] ∧
      ∀ k < 3, got k = (run (virtioGetConfig smallMapped 0 3) (beforeRead (fun _ => 5) 9 fun _ => 0)
        first).contents (0x12000 + k) := by
  have hdone : ∃ got, (run (virtioGetConfig smallMapped 0 3) (beforeRead (fun _ => 5) 9 fun _ => 0)
      [.tick, .tick, .tick, .update fun _ => 7, .tick, .tick, .tick, .tick, .tick, .tick]).reader =
        .done got := ⟨_, rfl⟩
  obtain ⟨got, hdone⟩ := hdone
  have hinit : vioModernInitialize smallDevice 8 = some (.ok smallMapped) := by decide
  have hfew : Guarded (virtioGetConfig smallMapped 0 3) (FewUpdates 256)
      (beforeRead (fun _ => 5) 9 fun _ => 0)
      [.tick, .tick, .tick, .update fun _ => 7, .tick, .tick, .tick, .tick, .tick, .tick] :=
    ⟨trivial, trivial, trivial, Nat.lt_of_sub_ne_zero (by decide), trivial, trivial, trivial,
      trivial, trivial, trivial, trivial⟩
  obtain ⟨first, hfirst, -, hgot⟩ := getConfig_consistent hinit rfl (by decide) (by decide)
    (fun _ => 5) 9 (fun _ => 0) hfew hdone
  exact ⟨got, first, hfirst, hgot⟩

end Viosnd.Pci
