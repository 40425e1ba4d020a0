import Viosnd.Pci.CapabilityScan

/-!
# Register windows

`vio_modern_initialize` maps the regions that the capabilities describe, and later calls access them
at offsets of their own. `bar_offset` and `bar_length` are 32-bit words, sizes are 64-bit, and the
sums of the two kinds wrap in different places. The reads of the configuration space succeed here.
-/

namespace Viosnd.Pci

open Loops

/-- `VIOSND_BAR`. -/
structure Bar where
  present : Bool
  portSpace : Bool
  basePA : ℕ+
  length : BitVec 32
  /-- What `MmMapIoSpaceEx` gives for the BAR, `none` for `NULL`. -/
  baseVA : Option ℕ+

/-- A device whose configuration space can always be read. -/
structure PciDevice where
  bytes : ℕ → BitVec 8
  bars : ℕ → Bar

def Bar.base (bar : Bar) : Option ℕ+ := if bar.portSpace then some bar.basePA else bar.baseVA

/-- `ViosndGetResourceLength`. -/
def viosndGetResourceLength (d : PciDevice) (bar : ℕ) : ℕ :=
  if pciType0Addresses ≤ bar ∨ (d.bars bar).present = false then 0 else (d.bars bar).length.toNat

/-- `ViosndMapAddressRange`, which maps the whole BAR; `none` for `NULL`. -/
def viosndMapAddressRange (d : PciDevice) (bar offset : ℕ) : Option ℕ :=
  if pciType0Addresses ≤ bar ∨ (d.bars bar).present = false then none
  else if (d.bars bar).length.toNat ≤ offset then none
  else (d.bars bar).base.map fun base : ℕ+ => (base : ℕ) + offset

/-- `pci_read_config_dword`. -/
def PciDevice.readDword (d : PciDevice) (place : ℕ) : BitVec 32 :=
  d.bytes (place + 3) ++ d.bytes (place + 2) ++ d.bytes (place + 1) ++ d.bytes place

/-- The fields of `struct virtio_pci_cap`. -/
def PciDevice.capBar (d : PciDevice) (cap : ℕ) : ℕ := (d.bytes (cap + 4)).toNat

def PciDevice.capOffset (d : PciDevice) (cap : ℕ) : BitVec 32 := d.readDword (cap + 8)

def PciDevice.capLength (d : PciDevice) (cap : ℕ) : BitVec 32 := d.readDword (cap + 12)

/-- `notify_off_multiplier` of `struct virtio_pci_notify_cap`. -/
def PciDevice.capMultiplier (d : PciDevice) (cap : ℕ) : BitVec 32 := d.readDword (cap + 16)

/-- `vio_modern_map_capability`: the address with the length it reports, `none` for `NULL`. -/
def vioModernMapCapability (d : PciDevice) (cap minlen : ℕ) (alignment start size : BitVec 32) :
    Option (ℕ × ℕ) :=
  if (d.capLength cap).toNat < start.toNat + minlen then none
  else
    let barLength := d.capLength cap - start
    let barOffset := d.capOffset cap + start
    if barOffset &&& (alignment - 1) ≠ 0 then none
    else if viosndGetResourceLength d (d.capBar cap) < barOffset.toNat + minlen then none
    else (viosndMapAddressRange d (d.capBar cap) barOffset.toNat).map fun addr =>
      (addr, min barLength.toNat size.toNat)

/-- `vio_modern_map_simple_capability`. -/
def vioModernMapSimpleCapability (d : PciDevice) (cap length : ℕ) (alignment : BitVec 32) :
    Option ℕ :=
  (vioModernMapCapability d cap length alignment 0 (BitVec.ofNat 32 length)).map Prod.fst

/-! ## Initialization -/

/-- The configuration types, up to `VIRTIO_PCI_CAP_PCI_CFG`. -/
def capCommonCfg : ℕ := 1

def capNotifyCfg : ℕ := 2

def capIsrCfg : ℕ := 3

def capDeviceCfg : ℕ := 4

def capPciCfg : ℕ := 5

/-- `sizeof(struct virtio_pci_common_cfg)`. -/
def commonCfgSize : ℕ := 56

def pageSize : BitVec 32 := 4096

inductive InitStatus where
  | deviceNotConnected
  | invalidParameter
  deriving DecidableEq

/-- The fields of `VirtIODevice` that initialization sets. -/
structure VirtIODevice where
  common : ℕ
  isr : ℕ
  notifyOffsetMultiplier : BitVec 32
  notifyBase : Option ℕ
  notifyLen : ℕ
  notifyMapCap : ℕ
  config : Option ℕ
  configLen : ℕ
  deriving DecidableEq

def PciDevice.capabilities (d : PciDevice) (fuel : ℕ) : Option (ℕ → BitVec 8) :=
  findPciVendorCapabilities (succeeding d.bytes)
    ⟨fun bar => decide (0 < viosndGetResourceLength d bar), capPciCfg⟩ (fun _ => 0) fuel

/-- `notify_length + (notify_offset % PAGE_SIZE) <= PAGE_SIZE`. -/
def premaps (notifyOffset notifyLength : BitVec 32) : Bool :=
  notifyLength + notifyOffset % pageSize ≤ pageSize

/-- `NULL` fails the initialization. -/
def orInvalid {α : Type} : Option α → Except InitStatus α
  | some a => .ok a
  | none => .error .invalidParameter

/-- `notify_base` with `notify_len`, when the notification area is mapped as a whole. -/
def mapNotify (d : PciDevice) (cap : ℕ) : Except InitStatus (Option (ℕ × ℕ)) :=
  if premaps (d.capOffset cap) (d.capLength cap) then
    (orInvalid (vioModernMapCapability d cap 2 2 0 (d.capLength cap))).map some
  else .ok none

/-- `config` with `config_len`. -/
def mapConfig (d : PciDevice) (cap : ℕ) : Except InitStatus (Option (ℕ × ℕ)) :=
  if cap = 0 then .ok none
  else (orInvalid (vioModernMapCapability d cap 0 4 0 pageSize)).map some

/-- `vio_modern_initialize` behind the scan. -/
def initializeWith (d : PciDevice) (caps : ℕ → BitVec 8) : Except InitStatus VirtIODevice := do
  let cap := fun cfgType => (caps cfgType).toNat
  if cap capCommonCfg = 0 then
    throw .deviceNotConnected
  if cap capIsrCfg = 0 ∨ cap capNotifyCfg = 0 then
    throw .invalidParameter
  let common ← orInvalid (vioModernMapSimpleCapability d (cap capCommonCfg) commonCfgSize 4)
  let isr ← orInvalid (vioModernMapSimpleCapability d (cap capIsrCfg) 1 1)
  let notify ← mapNotify d (cap capNotifyCfg)
  let config ← mapConfig d (cap capDeviceCfg)
  return {
    common := common
    isr := isr
    notifyOffsetMultiplier := d.capMultiplier (cap capNotifyCfg)
    notifyBase := notify.map Prod.fst
    notifyLen := (notify.map Prod.snd).getD 0
    notifyMapCap := if notify.isSome then 0 else cap capNotifyCfg
    config := config.map Prod.fst
    configLen := (config.map Prod.snd).getD 0 }

/-- `vio_modern_initialize`, with fuel for the scan. -/
def vioModernInitialize (d : PciDevice) (fuel : ℕ) : Option (Except InitStatus VirtIODevice) :=
  (d.capabilities fuel).map (initializeWith d)

/-! ## Accesses to the device configuration -/

/-- What `vio_modern_get_config` and `vio_modern_set_config` do before they access a register: the
address they come to, `none` when they reject the call. -/
def configRegister (v : VirtIODevice) (offset len : BitVec 32) : Option ℕ :=
  match v.config with
  | none => none
  | some config =>
      if v.configLen < (offset + len).toNat then none
      else if len = 1 ∨ len = 2 ∨ len = 4 then some (config + offset.toNat)
      else none

/-- The register `vio_modern_get_config` reads. -/
def vioModernGetConfig (v : VirtIODevice) (offset len : BitVec 32) : Option ℕ :=
  configRegister v offset len

/-- The register `vio_modern_set_config` writes. -/
def vioModernSetConfig (v : VirtIODevice) (offset len : BitVec 32) : Option ℕ :=
  configRegister v offset len

/-- The `n` bytes at an address lie inside a BAR. -/
def InBar (d : PciDevice) (bar addr n : ℕ) : Prop :=
  ∃ base : ℕ+, (d.bars bar).base = some base ∧ base ≤ addr ∧
    addr + n ≤ base + viosndGetResourceLength d bar

/-- The `n` bytes at an address lie inside the region a capability describes. -/
def InCapability (d : PciDevice) (cap addr n : ℕ) : Prop :=
  ∃ base : ℕ+, (d.bars (d.capBar cap)).base = some base ∧ base + (d.capOffset cap).toNat ≤ addr ∧
    addr + n ≤ base + (d.capOffset cap).toNat + (d.capLength cap).toNat

/-! ## What a mapping says -/

/-- The region at `start` in the capability `cap` was mapped at `addr`. -/
structure MappedAt (d : PciDevice) (cap minlen : ℕ) (alignment start : BitVec 32)
    (addr : ℕ) : Prop where
  inCap : start.toNat + minlen ≤ (d.capLength cap).toNat
  aligned : (d.capOffset cap + start) &&& (alignment - 1) = 0
  inBar : (d.capOffset cap + start).toNat + minlen ≤ viosndGetResourceLength d (d.capBar cap)
  inside : (d.capOffset cap + start).toNat < viosndGetResourceLength d (d.capBar cap)
  base : ∃ base : ℕ+, (d.bars (d.capBar cap)).base = some base ∧
    addr = base + (d.capOffset cap + start).toNat

section

variable {d : PciDevice} {cap minlen addr len : ℕ} {alignment start size : BitVec 32}

private theorem viosndMapAddressRange_some {bar offset : ℕ}
    (h : viosndMapAddressRange d bar offset = some addr) :
    offset < viosndGetResourceLength d bar ∧
      ∃ base : ℕ+, (d.bars bar).base = some base ∧ addr = base + offset := by
  unfold viosndMapAddressRange at h
  unfold viosndGetResourceLength
  split_ifs at h ⊢ with hbar hlength
  obtain ⟨base, hbase, haddr⟩ := Option.map_eq_some_iff.mp h
  exact ⟨by omega, base, hbase, haddr.symm⟩

private theorem vioModernMapCapability_some
    (h : vioModernMapCapability d cap minlen alignment start size = some (addr, len)) :
    MappedAt d cap minlen alignment start addr ∧
      len = min (d.capLength cap - start).toNat size.toNat := by
  unfold vioModernMapCapability at h
  dsimp only at h
  split_ifs at h with hlength halign hbar
  obtain ⟨addr', hmap, hresult⟩ := Option.map_eq_some_iff.mp h
  simp only [Prod.mk.injEq] at hresult
  obtain ⟨rfl, rfl⟩ := hresult
  obtain ⟨hinside, hbase⟩ := viosndMapAddressRange_some hmap
  exact ⟨⟨by omega, by simpa using halign, by omega, hinside, hbase⟩, rfl⟩

private theorem vioModernMapSimpleCapability_some {length : ℕ}
    (h : vioModernMapSimpleCapability d cap length alignment = some addr) :
    MappedAt d cap length alignment 0 addr := by
  obtain ⟨⟨addr', len'⟩, hmap, rfl⟩ := Option.map_eq_some_iff.mp h
  exact (vioModernMapCapability_some hmap).1

private theorem MappedAt.inBar_bytes (h : MappedAt d cap minlen alignment start addr) :
    InBar d (d.capBar cap) addr minlen := by
  obtain ⟨base, hbase, haddr⟩ := h.base
  have hfits := h.inBar
  exact ⟨base, hbase, by omega, by omega⟩

end

section

variable {d : PciDevice} {caps : ℕ → BitVec 8} {v : VirtIODevice}

private theorem orInvalid_ok {α : Type} {o : Option α} {a : α} (h : orInvalid o = .ok a) :
    o = some a := by
  cases o with
  | none => simp [orInvalid] at h
  | some b => simpa [orInvalid] using h

private theorem ok_of_bind {ε α β : Type} {x : Except ε α} {f : α → Except ε β} {b : β}
    (h : (x >>= f) = .ok b) : ∃ a, x = .ok a ∧ f a = .ok b := by
  cases x with
  | error e => cases h
  | ok a => exact ⟨a, rfl, h⟩

theorem initializeWith_ok (h : initializeWith d caps = .ok v) :
    vioModernMapSimpleCapability d (caps capCommonCfg).toNat commonCfgSize 4 = some v.common ∧
    vioModernMapSimpleCapability d (caps capIsrCfg).toNat 1 1 = some v.isr ∧
    (∃ notify, mapNotify d (caps capNotifyCfg).toNat = .ok notify ∧
      v.notifyBase = notify.map Prod.fst ∧ v.notifyLen = (notify.map Prod.snd).getD 0 ∧
      v.notifyMapCap = if notify.isSome then 0 else (caps capNotifyCfg).toNat) ∧
    v.notifyOffsetMultiplier = d.capMultiplier (caps capNotifyCfg).toNat ∧
    ∃ config, mapConfig d (caps capDeviceCfg).toNat = .ok config ∧
      v.config = config.map Prod.fst ∧ v.configLen = (config.map Prod.snd).getD 0 := by
  unfold initializeWith at h
  dsimp only at h
  by_cases hcommon : (caps capCommonCfg).toNat = 0
  · rw [if_pos hcommon] at h
    cases h
  rw [if_neg hcommon] at h
  by_cases hmissing : (caps capIsrCfg).toNat = 0 ∨ (caps capNotifyCfg).toNat = 0
  · rw [if_pos hmissing] at h
    cases h
  rw [if_neg hmissing] at h
  obtain ⟨common, hcommonMapped, h⟩ := ok_of_bind h
  obtain ⟨isr, hisrMapped, h⟩ := ok_of_bind h
  obtain ⟨notify, hnotify, h⟩ := ok_of_bind h
  obtain ⟨config, hconfig, h⟩ := ok_of_bind h
  have hv := Except.ok.inj h
  rw [← hv]
  exact ⟨orInvalid_ok hcommonMapped, orInvalid_ok hisrMapped, ⟨notify, hnotify, rfl, rfl, rfl⟩, rfl,
    config, hconfig, rfl, rfl⟩

end

/-! ## Where the accesses lie -/

/-- The bytes of an access lie inside the device configuration capability and inside its BAR. -/
def AccessInside (d : PciDevice) (cap addr : ℕ) (len : BitVec 32) : Prop :=
  InCapability d cap addr len.toNat ∧ InBar d (d.capBar cap) addr len.toNat

/-- The call to get or to set comes to the address. -/
def Accesses (v : VirtIODevice) (offset len : BitVec 32) (addr : ℕ) : Prop :=
  vioModernGetConfig v offset len = some addr ∨ vioModernSetConfig v offset len = some addr

/-- The window that is mapped for the device configuration ends inside its BAR. -/
def WindowFits (d : PciDevice) (cap : ℕ) : Prop :=
  (d.capOffset cap).toNat + min (d.capLength cap).toNat pageSize.toNat ≤
    viosndGetResourceLength d (d.capBar cap)

section

variable {d : PciDevice} {cap addr : ℕ} {caps : ℕ → BitVec 8} {v : VirtIODevice}
  {offset len : BitVec 32}

theorem Accesses.register (h : Accesses v offset len addr) :
    ∃ config, v.config = some config ∧ (offset + len).toNat ≤ v.configLen ∧
      (len = 1 ∨ len = 2 ∨ len = 4) ∧ addr = config + offset.toNat := by
  have hregister : configRegister v offset len = some addr := h.elim id id
  unfold configRegister at hregister
  cases hconfig : v.config with
  | none => simp [hconfig] at hregister
  | some config =>
      rw [hconfig] at hregister
      dsimp only at hregister
      split_ifs at hregister with hlong hsize
      exact ⟨config, rfl, by omega, hsize, (Option.some.inj hregister).symm⟩

private theorem mapConfig_some {mapped : ℕ × ℕ} (h : mapConfig d cap = .ok (some mapped)) :
    MappedAt d cap 0 4 0 mapped.1 ∧ mapped.2 = min (d.capLength cap).toNat pageSize.toNat := by
  unfold mapConfig at h
  split_ifs at h with hcap
  · cases h
  · cases hmap : vioModernMapCapability d cap 0 4 0 pageSize with
    | none =>
        rw [hmap] at h
        cases h
    | some result =>
        rw [hmap] at h
        have hsame : result = mapped := Option.some.inj (Except.ok.inj h)
        subst hsame
        obtain ⟨addr, len⟩ := result
        simpa using vioModernMapCapability_some hmap

theorem initializeWith_config (h : initializeWith d caps = .ok v) {config : ℕ}
    (hconfig : v.config = some config) :
    MappedAt d (caps capDeviceCfg).toNat 0 4 0 config ∧
      v.configLen = min (d.capLength (caps capDeviceCfg).toNat).toNat pageSize.toNat := by
  obtain ⟨-, -, -, -, mapped, hmap, hfield, hlen⟩ := initializeWith_ok h
  rw [hconfig] at hfield
  cases mapped with
  | none => cases hfield
  | some mapped =>
      obtain ⟨hmapped, hmin⟩ := mapConfig_some hmap
      rw [Option.some.inj hfield, hlen]
      exact ⟨hmapped, hmin⟩

theorem viosndGetResourceLength_lt (d : PciDevice) (bar : ℕ) :
    viosndGetResourceLength d bar < 2 ^ 32 := by
  unfold viosndGetResourceLength
  split_ifs
  · decide
  · exact (d.bars bar).length.isLt

private theorem accessInside_iff {config : ℕ} (hmapped : MappedAt d cap 0 4 0 config) :
    AccessInside d cap (config + offset.toNat) len ↔
      offset.toNat + len.toNat ≤ (d.capLength cap).toNat ∧
        (d.capOffset cap).toNat + offset.toNat + len.toNat ≤
          viosndGetResourceLength d (d.capBar cap) := by
  obtain ⟨base, hbase, hconfig⟩ := hmapped.base
  simp only [BitVec.ofNat_eq_ofNat, BitVec.add_zero] at hconfig
  constructor
  · rintro ⟨⟨base₁, hbase₁, -, hcap⟩, base₂, hbase₂, -, hbar⟩
    rw [hbase] at hbase₁ hbase₂
    rw [← Option.some.inj hbase₁] at hcap
    rw [← Option.some.inj hbase₂] at hbar
    omega
  · rintro ⟨hcap, hbar⟩
    exact ⟨⟨base, hbase, by omega, by omega⟩, base, hbase, by omega, by omega⟩

/-- An accepted access is inside when it does not wrap and does not pass the end of the BAR. -/
private theorem Accesses.inside_iff (h : Accesses v offset len addr)
    (hinit : initializeWith d caps = .ok v) :
    AccessInside d (caps capDeviceCfg).toNat addr len ↔ offset.toNat + len.toNat < 2 ^ 32 ∧
      (d.capOffset (caps capDeviceCfg).toNat).toNat + offset.toNat + len.toNat ≤
        viosndGetResourceLength d (d.capBar (caps capDeviceCfg).toNat) := by
  obtain ⟨config, hconfig, hlen, -, rfl⟩ := h.register
  obtain ⟨hmapped, hwindow⟩ := initializeWith_config hinit hconfig
  rw [accessInside_iff hmapped]
  constructor
  · rintro ⟨hcap, hbar⟩
    have hword := (d.capLength (caps capDeviceCfg).toNat).isLt
    exact ⟨by omega, hbar⟩
  · rintro ⟨hnowrap, hbar⟩
    refine ⟨?_, hbar⟩
    rw [BitVec.toNat_add, Nat.mod_eq_of_lt hnowrap, hwindow] at hlen
    exact hlen.trans (Nat.min_le_left _ _)

end

/-- After a successful initialization the common configuration and the ISR lie inside their BARs. An
accepted access to the device configuration is inside exactly when its offset and length do not wrap
and it does not pass the end of the BAR; all that do not wrap are inside exactly when the window
fits, and one that wraps never is. -/
theorem windows_inside_iff {d : PciDevice} {fuel : ℕ} {v : VirtIODevice}
    (hinit : vioModernInitialize d fuel = some (.ok v)) :
    ∃ caps, d.capabilities fuel = some caps ∧
      InBar d (d.capBar (caps capCommonCfg).toNat) v.common commonCfgSize ∧
      InBar d (d.capBar (caps capIsrCfg).toNat) v.isr 1 ∧
      (∀ offset len addr, Accesses v offset len addr →
        (AccessInside d (caps capDeviceCfg).toNat addr len ↔ offset.toNat + len.toNat < 2 ^ 32 ∧
          (d.capOffset (caps capDeviceCfg).toNat).toNat + offset.toNat + len.toNat ≤
            viosndGetResourceLength d (d.capBar (caps capDeviceCfg).toNat))) ∧
      (v.config.isSome = true →
        ((∀ offset len addr, Accesses v offset len addr → offset.toNat + len.toNat < 2 ^ 32 →
          AccessInside d (caps capDeviceCfg).toNat addr len) ↔
            WindowFits d (caps capDeviceCfg).toNat)) := by
  obtain ⟨caps, hcaps, hwith⟩ := Option.map_eq_some_iff.mp hinit
  obtain ⟨hcommon, hisr, -, -, -⟩ := initializeWith_ok hwith
  refine ⟨caps, hcaps, (vioModernMapSimpleCapability_some hcommon).inBar_bytes,
    (vioModernMapSimpleCapability_some hisr).inBar_bytes,
    fun offset len addr h => h.inside_iff hwith, ?_⟩
  intro hsome
  obtain ⟨config, hconfig⟩ := Option.isSome_iff_exists.mp hsome
  obtain ⟨hmapped, hwindow⟩ := initializeWith_config hwith hconfig
  unfold WindowFits
  rw [← hwindow]
  constructor
  · intro hall
    by_cases hempty : v.configLen = 0
    · have hinside := hmapped.inside
      simp only [BitVec.ofNat_eq_ofNat, BitVec.add_zero] at hinside
      omega
    · -- the last byte of the window
      have hpage : v.configLen ≤ 4096 := by
        rw [hwindow]
        exact Nat.min_le_right _ _
      have hlast : (BitVec.ofNat 32 (v.configLen - 1)).toNat = v.configLen - 1 := by
        rw [BitVec.toNat_ofNat]
        omega
      have haccess : Accesses v (BitVec.ofNat 32 (v.configLen - 1)) 1
          (config + (v.configLen - 1)) := by
        left
        have hfits : ¬ v.configLen < (BitVec.ofNat 32 (v.configLen - 1) + 1).toNat := by
          rw [BitVec.toNat_add, hlast]
          simp
          omega
        simp only [vioModernGetConfig, configRegister, hconfig, if_neg hfits, true_or, if_true,
          hlast]
      have hnowrap : (BitVec.ofNat 32 (v.configLen - 1)).toNat + (1 : BitVec 32).toNat <
          2 ^ 32 := by
        rw [hlast]
        simp
        omega
      have hinside := (haccess.inside_iff hwith).mp (hall _ _ _ haccess hnowrap)
      have hend := hinside.2
      rw [hlast] at hend
      simp at hend
      omega
  · intro hfits offset len addr haccess hnowrap
    apply (haccess.inside_iff hwith).mpr
    refine ⟨hnowrap, ?_⟩
    obtain ⟨-, -, hlen, -⟩ := haccess.register
    rw [BitVec.toNat_add, Nat.mod_eq_of_lt hnowrap] at hlen
    omega

/-- Four capabilities at `0x40`, `0x54`, `0x68` and `0x78`, all in BAR 0. -/
def smallBytes : ℕ → BitVec 8
  | 0x06 => 0x10
  | 0x34 => 0x40
  | 0x40 => 0x09
  | 0x41 => 0x54
  | 0x43 => 1
  | 0x4C => 0x38
  | 0x54 => 0x09
  | 0x55 => 0x68
  | 0x57 => 2
  | 0x5D => 0x10
  | 0x60 => 0x10
  | 0x64 => 4
  | 0x68 => 0x09
  | 0x69 => 0x78
  | 0x6B => 3
  | 0x70 => 0x40
  | 0x74 => 1
  | 0x78 => 0x09
  | 0x7B => 4
  | 0x81 => 0x20
  | 0x84 => 0x24
  | _ => 0

/-- The device configuration is 36 bytes at offset `0x2000` of a BAR of `0x4000` bytes. -/
def smallDevice : PciDevice where
  bytes := smallBytes
  bars _ := ⟨true, false, 0xFEBC0000, 0x4000, some 0x10000⟩

def smallMapped : VirtIODevice where
  common := 0x10000
  isr := 0x10040
  notifyOffsetMultiplier := 4
  notifyBase := some 0x11000
  notifyLen := 0x10
  notifyMapCap := 0
  config := some 0x12000
  configLen := 0x24

theorem windows_inside_small :
    ∃ caps, smallDevice.capabilities 8 = some caps ∧
      InBar smallDevice (smallDevice.capBar (caps capCommonCfg).toNat) smallMapped.common
        commonCfgSize ∧
      AccessInside smallDevice (caps capDeviceCfg).toNat 0x12020 4 ∧
      ∀ offset len addr, Accesses smallMapped offset len addr →
        offset.toNat + len.toNat < 2 ^ 32 →
          AccessInside smallDevice (caps capDeviceCfg).toNat addr len := by
  have hinit : vioModernInitialize smallDevice 8 = some (.ok smallMapped) := by decide
  have hread : Accesses smallMapped 0x20 4 0x12020 := Or.inl (by decide)
  obtain ⟨caps, hcaps, hcommon, -, haccess, hall⟩ := windows_inside_iff hinit
  have hcap : (caps capDeviceCfg).toNat = 0x78 := by
    have hsame : smallDevice.capabilities 8 = some caps := hcaps
    have hfound : (smallDevice.capabilities 8).map (fun caps => (caps capDeviceCfg).toNat) =
        some 0x78 := by decide
    rw [hsame] at hfound
    exact Option.some.inj hfound
  have hfits : WindowFits smallDevice (caps capDeviceCfg).toNat := by
    unfold WindowFits
    rw [hcap]
    decide
  have hinside := (haccess 0x20 4 0x12020 hread).mpr (by rw [hcap]; decide)
  exact ⟨caps, hcaps, hcommon, hinside, (hall rfl).mpr hfits⟩

/-- A byte read at offset `0xFFFFFFFF` is accepted and lies far behind the window. -/
theorem smallMapped_wraps : vioModernInitialize smallDevice 8 = some (.ok smallMapped) ∧
    vioModernGetConfig smallMapped 0xFFFFFFFF 1 = some (0x12000 + 0xFFFFFFFF) ∧
    ¬ AccessInside smallDevice 0x78 (0x12000 + 0xFFFFFFFF) 1 := by
  refine ⟨by decide, by decide, ?_⟩
  rintro ⟨-, base, hbase, -, hend⟩
  have hsame : (0x10000 : ℕ+) = base := Option.some.inj hbase
  rw [← hsame] at hend
  revert hend
  decide

end Viosnd.Pci
