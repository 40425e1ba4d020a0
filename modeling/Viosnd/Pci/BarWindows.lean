import Viosnd.Lib.Machines
import Viosnd.Pci.BaseAddresses

/-!
# The BARs of the two drivers

Both drivers take the regions of the device from the resources that the system reports, the WaveRT
driver into a table (`ViosndMapBars`) and the ACX driver into a list (`PCIAllocBars`), and map a
memory region when the transport first asks for an address in it.
-/

namespace Viosnd.Pci.Bars

open Machine

/-! ## Resources and mappings -/

inductive ResourceType where
  | port
  | memory
  | interrupt
  | other
  deriving DecidableEq

/-- `CM_PARTIAL_RESOURCE_DESCRIPTOR`. -/
structure Descriptor where
  type : ResourceType
  flags : BitVec 16
  start : BitVec 64
  length : BitVec 32
  deriving DecidableEq

def Descriptor.isBar (r : Descriptor) : Bool := r.type == .port || r.type == .memory

/-- `CM_RESOURCE_PORT_IO`. -/
def cmResourcePortIo : BitVec 16 := 1

/-- `CM_RESOURCE_INTERRUPT_LATCHED | CM_RESOURCE_INTERRUPT_MESSAGE`. -/
def cmResourceInterruptMsi : BitVec 16 := 3

/-- What the system has mapped and unmapped, each address with its length. -/
structure IoSpaces where
  mapped : List (ℕ+ × BitVec 32)
  unmapped : List (ℕ+ × BitVec 32)
  deriving DecidableEq

/-- `MmMapIoSpaceEx`, with what it returns. -/
def IoSpaces.map (io : IoSpaces) (grant : Option ℕ+) (length : BitVec 32) : IoSpaces := { io with
  mapped := (grant.map fun va => (va, length)).toList ++ io.mapped }

/-- `MmUnmapIoSpace` of one space after the other. -/
def IoSpaces.unmapAll (io : IoSpaces) (spaces : List (ℕ+ × BitVec 32)) : IoSpaces := { io with
  unmapped := spaces.reverse ++ io.unmapped }

/-- A call to map an address range, with what the system returns if the BAR has to be mapped. -/
structure MapCall where
  bar : ℕ
  offset : ℕ
  grant : Option ℕ+

def addressAt (offset : ℕ) (base : ℕ+) : ℕ := base + offset

/-- What the transport is told in a session: the addresses it asks for, and at the end the lengths
of the BARs. -/
structure Answers where
  addresses : List (Option ℕ)
  lengths : List ℕ
  deriving DecidableEq

/-! ## The WaveRT driver -/

/-- `VIOSND_BAR`, with any address. -/
structure ViosndBar where
  present : Bool
  portSpace : Bool
  basePA : BitVec 64
  length : BitVec 32
  baseVA : Option ℕ+

structure WaveBars where
  bars : ℕ → ViosndBar
  io : IoSpaces

/-- The index, if the table has a place for it. -/
def viosndBarIndex (baseAddresses : ℕ → BitVec 32) (r : Descriptor) : Option ℕ :=
  (virtioGetBarIndex baseAddresses r.start).filter fun bar => decide (bar < pciType0Addresses)

def ViosndBar.describe (portSpace : Bool) (r : Descriptor) (bar : ViosndBar) : ViosndBar :=
  { bar with
    present := true
    portSpace := portSpace
    basePA := r.start
    length := r.length }

/-- `ViosndMapBars`: the memory resources, then the ports. -/
def viosndMapBars (baseAddresses : ℕ → BitVec 32) (resources : List Descriptor)
    (bars : ℕ → ViosndBar) : ℕ → ViosndBar :=
  let bars := Tables.fill (viosndBarIndex baseAddresses) (ViosndBar.describe false) bars
    (resources.filter fun r => r.type = .memory)
  Tables.fill (viosndBarIndex baseAddresses) (ViosndBar.describe true) bars
    (resources.filter fun r => r.type = .port)

/-- `ViosndMapAddressRange`. -/
def WaveBars.viosndMapAddressRange (d : WaveBars) (call : MapCall) : WaveBars × Option ℕ :=
  let bar := d.bars call.bar
  if pciType0Addresses ≤ call.bar ∨ bar.present = false then (d, none)
  else if bar.length.toNat ≤ call.offset then (d, none)
  else if bar.portSpace then (d, some (bar.basePA.toNat + call.offset))
  else
    match bar.baseVA with
    | some va => (d, some (addressAt call.offset va))
    | none =>
        ({ d with
          bars := Function.update d.bars call.bar { bar with
            baseVA := call.grant }
          io := d.io.map call.grant bar.length }, call.grant.map (addressAt call.offset))

/-- `ViosndGetResourceLength`. -/
def WaveBars.viosndGetResourceLength (d : WaveBars) (bar : ℕ) : ℕ :=
  if pciType0Addresses ≤ bar ∨ (d.bars bar).present = false then 0 else (d.bars bar).length.toNat

def ViosndBar.space (bar : ViosndBar) : Option (ℕ+ × BitVec 32) :=
  bar.baseVA.map fun va => (va, bar.length)

/-- `ViosndDestroyDevice`, as far as the BARs go. -/
def WaveBars.viosndDestroyDevice (d : WaveBars) : IoSpaces :=
  d.io.unmapAll ((List.range pciType0Addresses).filterMap fun bar => (d.bars bar).space)

/-- The BARs from `ViosndCreateDevice` to `ViosndDestroyDevice`. -/
def waveSession (baseAddresses : ℕ → BitVec 32) (resources : List Descriptor) (io : IoSpaces)
    (calls : List MapCall) : Answers × IoSpaces :=
  let bars := viosndMapBars baseAddresses resources fun _ => ⟨false, false, 0, 0, none⟩
  let r := respond WaveBars.viosndMapAddressRange ⟨bars, io⟩ calls
  (⟨r.2, (List.range pciType0Addresses).map r.1.viosndGetResourceLength⟩,
    r.1.viosndDestroyDevice)

/-! ## The ACX driver -/

/-- `VIRTIO_WDF_BAR`. -/
structure WdfBar where
  iBar : ℕ
  basePA : BitVec 64
  uLength : BitVec 32
  pBase : Option ℕ+
  bPortSpace : Bool

/-- The fields of `VIRTIO_WDF_DRIVER`; the BAR that was pushed last comes first. -/
structure WdfBars where
  pciBars : List WdfBar
  nInterrupts : ℕ
  nMSIInterrupts : ℕ
  io : IoSpaces

inductive AllocStatus where
  | deviceConfigurationError
  | insufficientResources
  | notFound
  deriving DecidableEq

def WdfBar.space (bar : WdfBar) : Option (ℕ+ × BitVec 32) :=
  if bar.bPortSpace then none else bar.pBase.map fun base => (base, bar.uLength)

/-- `PCIFreeBars`. -/
def pciFreeBars (d : WdfBars) : WdfBars := { d with
  pciBars := []
  io := d.io.unmapAll (d.pciBars.filterMap WdfBar.space) }

def pointer (address : BitVec 64) : Option ℕ+ :=
  if h : 0 < address.toNat then some ⟨address.toNat, h⟩ else none

def wdfBar (bar : ℕ) (r : Descriptor) : WdfBar where
  iBar := bar
  basePA := r.start
  uLength := r.length
  pBase := if r.flags &&& cmResourcePortIo = 0 then none else pointer r.start
  bPortSpace := r.flags &&& cmResourcePortIo ≠ 0

/-- The loop of `PCIAllocBars`, with the interrupts so far; each resource comes with whether the
pool grants a block for its BAR. -/
def pciAllocFrom (baseAddresses : ℕ → BitVec 32) : (nInterrupts nMSIInterrupts : ℕ) →
    List (Descriptor × Bool) → WdfBars → Except AllocStatus Unit × WdfBars
  | nInterrupts, nMSIInterrupts, [], d => (.ok (), { d with
      nInterrupts := nInterrupts
      nMSIInterrupts := nMSIInterrupts })
  | nInterrupts, nMSIInterrupts, (r, granted) :: rest, d =>
      if r.isBar then
        if granted = false then (.error .insufficientResources, pciFreeBars d)
        else
          match virtioGetBarIndex baseAddresses r.start with
          | none => (.error .notFound, pciFreeBars d)
          | some bar => pciAllocFrom baseAddresses nInterrupts nMSIInterrupts rest { d with
              pciBars := wdfBar bar r :: d.pciBars }
      else if r.type = .interrupt then
        let msi := if r.flags &&& cmResourceInterruptMsi = 0 then 0 else 1
        pciAllocFrom baseAddresses (nInterrupts + 1) (nMSIInterrupts + msi) rest d
      else pciAllocFrom baseAddresses nInterrupts nMSIInterrupts rest d

/-- `PCIAllocBars`, with `none` for a header that cannot be read. -/
def pciAllocBars (baseAddresses : Option (ℕ → BitVec 32)) (resources : List (Descriptor × Bool))
    (d : WdfBars) : Except AllocStatus Unit × WdfBars :=
  match baseAddresses with
  | none => (.error .deviceConfigurationError, d)
  | some baseAddresses => pciAllocFrom baseAddresses 0 0 resources d

/-- `find_bar`. -/
def findBar (pciBars : List WdfBar) (bar : ℕ) : Option WdfBar :=
  pciBars.find? fun b => b.iBar = bar

/-- Sets `pBase` of the BAR that `find_bar` finds. -/
def setBase (bar : ℕ) (base : Option ℕ+) : List WdfBar → List WdfBar
  | [] => []
  | b :: pciBars =>
      if b.iBar = bar then { b with
        pBase := base } :: pciBars
      else b :: setBase bar base pciBars

/-- `pci_map_address_range`, which maps the BAR before it looks at the offset. -/
def WdfBars.pciMapAddressRange (d : WdfBars) (call : MapCall) : WdfBars × Option ℕ :=
  match findBar d.pciBars call.bar with
  | none => (d, none)
  | some b =>
      let inside (base : Option ℕ+) : Option ℕ :=
        if call.offset < b.uLength.toNat then base.map (addressAt call.offset) else none
      match b.pBase with
      | some base => (d, inside base)
      | none =>
          ({ d with
            pciBars := setBase call.bar call.grant d.pciBars
            io := d.io.map call.grant b.uLength }, inside call.grant)

/-- `pci_get_resource_len`. -/
def WdfBars.pciGetResourceLen (d : WdfBars) (bar : ℕ) : ℕ :=
  (findBar d.pciBars bar).elim 0 fun b => b.uLength.toNat

/-- The BARs from `VirtIOWdfInitialize` to `VirtIOWdfShutdown`. -/
def acxSession (baseAddresses : Option (ℕ → BitVec 32)) (resources : List (Descriptor × Bool))
    (io : IoSpaces) (calls : List MapCall) : Except AllocStatus Answers × IoSpaces :=
  match pciAllocBars baseAddresses resources ⟨[], 0, 0, io⟩ with
  | (.error status, d) => (.error status, d.io)
  | (.ok (), d) =>
      let r := respond WdfBars.pciMapAddressRange d calls
      (.ok ⟨r.2, (List.range pciType0Addresses).map r.1.pciGetResourceLen⟩, (pciFreeBars r.1).io)

end Viosnd.Pci.Bars
