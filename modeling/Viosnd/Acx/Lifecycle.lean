import Viosnd.Device.Registers
import Viosnd.Device.StreamPair
import Viosnd.Lib.Runs

/-!
# The life of the ACX device

The callbacks of `ViosndAcxDriver.cpp` that the framework calls when the device gets its hardware,
is powered up or down and loses its hardware again, with `ViosndAcxVirtio.cpp` and `VirtIOWdf.c`
behind them. What the system and the device answer is part of the input.
-/

namespace Viosnd.Startup

open Viosnd.Device

/-- `VIOSND_ACX_DEVICE`, with the `VIRTIO_WDF_DRIVER` in it. -/
structure AcxDevice where
  vio : VioDevice
  /-- The descriptors in the list `PCIBars`, and how many were ever allocated and freed. -/
  bars : ℕ
  barsAllocated : ℕ
  barsFreed : ℕ
  /-- Resources that belong to no BAR. -/
  unknownResources : ℕ
  uFeatures : BitVec 64
  queuesReady : Bool
  virtioReady : Bool
  /-- `EventPoolVa != NULL`. -/
  eventPool : Bool
  streams : StreamPair
  renderCircuitAdded : Bool
  captureCircuitAdded : Bool

/-- What a resource comes to: a descriptor, no memory for one, or one that cannot be used. -/
inductive BarAnswer where
  | granted
  | noMemory
  | unknown

/-- What the system answers to `VirtIOWdfInitialize`. -/
structure HardwareAnswers where
  bus : Option Failure
  interrupt : Option Failure
  header : Option Failure
  resources : List BarAnswer
  objects : Option Failure
  transport : NtStatus
  iommu : Option Failure

/-- How the query for the PCM infos ends. -/
inductive QueryAnswer where
  | noStreams
  | noMemory
  | busy
  | answered (control : NtStatus) (found : NtStatus × StreamPair)

/-- What the system and the device answer while the device is powered up. -/
structure PowerAnswers where
  refusesFeatures : Bool
  interrupts : Option Failure
  queues : QueueAnswer
  eventPool : Bool
  eventPosts : Option Failure
  query : QueryAnswer

structure CircuitAnswers where
  render : Option Failure
  capture : Option Failure

/-! ## The BARs -/

/-- `PCIFreeBars`. -/
def pciFreeBars (d : AcxDevice) : AcxDevice := { d with
  vio := { d.vio with
    mapped := false }
  bars := 0
  barsFreed := d.barsFreed + d.bars }

/-- The loop of `PCIAllocBars`. -/
def pciAllocBars : List BarAnswer → AcxDevice → NtStatus × AcxDevice
  | [], d => (.success, d)
  | .granted :: rest, d => pciAllocBars rest { d with
      bars := d.bars + 1
      barsAllocated := d.barsAllocated + 1 }
  | .noMemory :: _, d => (.insufficientResources, pciFreeBars d)
  | .unknown :: _, d =>
      -- the descriptor of the resource is in no list yet
      (.notFound, pciFreeBars { d with
        barsAllocated := d.barsAllocated + 1
        unknownResources := d.unknownResources + 1 })

/-- `VirtIOWdfInitialize`. -/
def virtIOWdfInitialize (a : HardwareAnswers) (d : AcxDevice) : NtStatus × AcxDevice :=
  -- the structure is zeroed
  let vio := d.vio.check .lostMemory (d.bars == 0 && d.vio.queues == [])
  let d := { d with
    vio := { vio with
      mapped := false
      packedRing := false
      eventSuppression := false
      queues := [] }
    bars := 0
    uFeatures := 0 }
  match a.bus, a.interrupt, a.header with
  | some failure, _, _ => (failure.val, d)
  | none, some failure, _ => (failure.val, d)
  | none, none, some failure => (failure.val, d)
  | none, none, none =>
      match pciAllocBars a.resources d with
      | (.success, d) =>
          match a.objects with
          | some failure => (failure.val, d)
          | none =>
              match virtioDeviceInitialize a.transport d.vio with
              | (.success, vio) =>
                  let d := { d with
                    vio := vio.access id }
                  match a.iommu with
                  | some failure => (failure.val, pciFreeBars d)
                  | none => (.success, d)
              | (status, vio) => (status, pciFreeBars { d with
                  vio := vio })
      | failed => failed

/-! ## Features and queues -/

def followStatusProtocol (v : VioDevice) : VioDevice :=
  let status := v.registers.status
  let v := v.access id
  let v := if status &&& sAcknowledge = 0 then virtioAddStatus sAcknowledge v else v
  if status &&& sDriver = 0 then virtioAddStatus sDriver v else v

/-- The features that `VirtIOWdfSetDriverFeatures` accepts by itself. -/
def ownFeatures (offered : BitVec 64) : BitVec 64 :=
  let features : BitVec 64 := 0
  let features :=
    if isFeatureEnabled offered fVersion1 then featureEnable features fVersion1 else features
  let features :=
    if isFeatureEnabled offered fAnyLayout then featureEnable features fAnyLayout else features
  if isFeatureEnabled offered fAccessPlatform then featureEnable features fAccessPlatform
  else features

def virtIOWdfSetDriverFeatures (refuses : Bool) (privateOn off : BitVec 64) (d : AcxDevice) :
    NtStatus × AcxDevice :=
  let d := { d with
    vio := d.vio.access id }
  let offered := d.vio.registers.features
  if offered &&& privateOn ≠ privateOn then (.invalidParameter, d)
  else
    let features := (ownFeatures offered ||| privateOn) &&& ~~~off
    let r := virtioSetFeatures refuses features (followStatusProtocol d.vio)
    (r.1, { d with
      vio := r.2
      uFeatures := features })

def virtIOWdfFinalizeFeatures (refuses : Bool) (d : AcxDevice) : NtStatus × AcxDevice :=
  let first := if d.uFeatures = 0 then virtIOWdfSetDriverFeatures refuses 0 0 d else (.success, d)
  match first with
  | (.success, d) =>
      let missing := d.vio.registers.status &&& sFeaturesOk = 0
      let vio := followStatusProtocol d.vio
      if missing then
        let r := virtioSetFeatures refuses d.uFeatures vio
        (r.1, { d with
          vio := r.2 })
      else (.success, { d with
        vio := vio })
  | failed => failed

def virtIOWdfInitQueues (a : PowerAnswers) (d : AcxDevice) : NtStatus × AcxDevice :=
  match virtIOWdfFinalizeFeatures a.refusesFeatures d with
  | (.success, d) =>
      match a.interrupts with
      | some failure => (failure.val, d)
      | none =>
          let r := virtioFindQueues a.queues d.vio
          (r.1, { d with
            vio := r.2 })
  | failed => failed

/-! ## Powering up -/

/-- `ViosndInitializeEventQueue`, as far as its memory goes. -/
def initializeEventQueue (a : PowerAnswers) (d : AcxDevice) : NtStatus × AcxDevice :=
  if d.vio.queues.contains eventQueue = false then (.deviceNotReady, d)
  else if a.eventPool = false then (.insufficientResources, d)
  else
    let d := { d with
      eventPool := true
      vio := { d.vio with
        registers := { d.vio.registers with
          eventPool := true } } }
    match a.eventPosts with
    | some failure => (failure.val, d)
    | none => (.success, { d with
        vio := virtqueueNotify eventQueue d.vio })

def viosndAcxInitializeVirtio (a : PowerAnswers) (d : AcxDevice) : NtStatus × AcxDevice :=
  let d := { d with
    vio := d.vio.access id }
  let driverFeatures :=
    if isFeatureEnabled d.vio.registers.features fVersion1 then featureEnable 0 fVersion1 else 0
  match virtIOWdfSetDriverFeatures a.refusesFeatures driverFeatures 0 d with
  | (.success, d) =>
      match virtIOWdfInitQueues a d with
      | (.success, d) =>
          initializeEventQueue a { d with
            queuesReady := true
            vio := d.vio.access id }
      | failed => failed
  | failed => failed

/-- `ViosndAcxQueryPcmStreams`, without the DMA memory of its message. -/
def queryPcmStreams (a : QueryAnswer) (d : AcxDevice) : NtStatus × AcxDevice :=
  match a with
  | .noStreams => (.notFound, d)
  | .noMemory => (.insufficientResources, d)
  | .busy => (.deviceBusy, d)
  | .answered control found =>
      let d := { d with
        vio := virtqueueNotify controlQueue d.vio }
      if control ≠ .success then (control, d)
      else (found.1, { d with
        streams := found.2 })

/-- `ViosndAcxStopStreams`: the streams are stopped and the queues drained. -/
def stopStreams (kicks : List ℕ) (d : AcxDevice) : AcxDevice := { d with
  vio := kicks.foldl (fun v queue => virtqueueNotify queue v) d.vio }

/-- `VirtIOWdfDestroyQueues`. -/
def destroyQueues (d : AcxDevice) : AcxDevice := { d with
  vio := virtioDeleteQueues (virtioDeviceReset d.vio)
  queuesReady := false }

/-- `ViosndAcxFreeEventBuffers`. -/
def freeEventBuffers (d : AcxDevice) : AcxDevice :=
  if d.eventPool then { d with
    vio := d.vio.check .freedInUse
      (!(decide d.vio.registers.Live && d.vio.registers.eventPool))
    eventPool := false }
  else d

def stopWhenReady (kicks : List ℕ) (d : AcxDevice) : AcxDevice :=
  if d.virtioReady then { stopStreams kicks d with
    virtioReady := false }
  else d

def viosndAcxDestroyDevice (kicks : List ℕ) (d : AcxDevice) : AcxDevice :=
  let d := stopWhenReady kicks d
  let d := if d.queuesReady then destroyQueues d else d
  pciFreeBars (freeEventBuffers d)

/-- `VirtIOWdfSetDriverFailed`, and what follows it everywhere. -/
def giveUp (d : AcxDevice) : AcxDevice :=
  viosndAcxDestroyDevice [] { d with
    vio := virtioAddStatus sFailed d.vio }

/-! ## The callbacks -/

def addStaticCircuits (a : CircuitAnswers) (d : AcxDevice) : NtStatus × AcxDevice :=
  let first : NtStatus × AcxDevice :=
    if d.streams.hasRender && !d.renderCircuitAdded then
      match a.render with
      | some failure => (failure.val, d)
      | none => (.success, { d with
          renderCircuitAdded := true })
    else (.success, d)
  match first with
  | (.success, d) =>
      if d.streams.hasCapture && !d.captureCircuitAdded then
        match a.capture with
        | some failure => (failure.val, d)
        | none => (.success, { d with
            captureCircuitAdded := true })
      else (.success, d)
  | failed => failed

/-- `ViosndAcxRemoveStaticCircuits`: a circuit that cannot be removed stays. -/
def removeStaticCircuits (a : CircuitAnswers) (d : AcxDevice) : AcxDevice := { d with
  captureCircuitAdded := d.captureCircuitAdded && a.capture.isSome
  renderCircuitAdded := d.renderCircuitAdded && a.render.isSome }

/-- `VirtIOWdfSetDriverOK`. -/
def setDriverOk (d : AcxDevice) : AcxDevice := { d with
  vio := virtioDeviceReady (d.vio.access id)
  virtioReady := true }

def viosndEvtDevicePrepareHardware (h : HardwareAnswers) (p : PowerAnswers)
    (add remove : CircuitAnswers) (d : AcxDevice) : NtStatus × AcxDevice :=
  match virtIOWdfInitialize h d with
  | (.success, d) =>
      match viosndAcxInitializeVirtio p d with
      | (.success, d) =>
          match queryPcmStreams p.query d with
          | (.success, d) =>
              match addStaticCircuits add d with
              | (.success, d) => (.success, setDriverOk d)
              | (status, d) => (status, giveUp (removeStaticCircuits remove d))
          | (status, d) => (status, giveUp d)
      | (status, d) => (status, giveUp d)
  | failed => failed

def viosndEvtDeviceReleaseHardware (remove : CircuitAnswers) (kicks : List ℕ) (d : AcxDevice) :
    AcxDevice :=
  viosndAcxDestroyDevice kicks (removeStaticCircuits remove d)

def viosndEvtDeviceD0Entry (p : PowerAnswers) (d : AcxDevice) : NtStatus × AcxDevice :=
  if d.queuesReady then (.success, d)
  else
    match viosndAcxInitializeVirtio p d with
    | (.success, d) =>
        match queryPcmStreams p.query d with
        | (.success, d) => (.success, setDriverOk d)
        | (status, d) => (status, giveUp d)
    | (status, d) => (status, giveUp d)

def viosndEvtDeviceD0Exit (kicks : List ℕ) (d : AcxDevice) : AcxDevice :=
  let d := stopWhenReady kicks d
  if d.queuesReady then freeEventBuffers (destroyQueues d) else d

/-- `ViosndEvtInterruptIsr`, or `ViosndEvtInterruptDpc` with what the drained queues are notified
of. -/
def interrupt (kicks : List ℕ) (d : AcxDevice) : AcxDevice :=
  if d.virtioReady then stopStreams kicks { d with
    vio := d.vio.access id }
  else d

/-! ## The framework -/

inductive Phase where
  | noHardware
  | poweredDown
  | poweredUp
  /-- A callback has failed: the hardware is released next. -/
  | failed
  deriving DecidableEq

structure AcxWorld where
  device : AcxDevice
  phase : Phase

inductive AcxInput where
  | prepareHardware (h : HardwareAnswers) (p : PowerAnswers) (add remove : CircuitAnswers)
  | releaseHardware (remove : CircuitAnswers) (kicks : List ℕ)
  | d0Entry (p : PowerAnswers)
  | d0Exit (kicks : List ℕ)
  | interrupt (kicks : List ℕ)
  /-- The device sets `VIRTIO_CONFIG_S_NEEDS_RESET`. -/
  | needsReset

def AcxWorld.step (w : AcxWorld) : AcxInput → AcxWorld
  | .prepareHardware h p add remove =>
      if w.phase = .noHardware then
        let r := viosndEvtDevicePrepareHardware h p add remove w.device
        ⟨r.2, if r.1 = .success then .poweredDown else .failed⟩
      else w
  | .releaseHardware remove kicks =>
      if w.phase = .poweredDown ∨ w.phase = .failed then
        ⟨viosndEvtDeviceReleaseHardware remove kicks w.device, .noHardware⟩
      else w
  | .d0Entry p =>
      if w.phase = .poweredDown then
        let r := viosndEvtDeviceD0Entry p w.device
        ⟨r.2, if r.1 = .success then .poweredUp else .failed⟩
      else w
  | .d0Exit kicks =>
      if w.phase = .poweredUp then ⟨viosndEvtDeviceD0Exit kicks w.device, .poweredDown⟩ else w
  | .interrupt kicks => { w with
      device := interrupt kicks w.device }
  | .needsReset => { w with
      device := { w.device with
        vio := { w.device.vio with
          registers := { w.device.vio.registers with
            status := w.device.vio.registers.status ||| sNeedsReset } } } }

def AcxWorld.added (modern : Bool) (offered : BitVec 64) (status : BitVec 8) : AcxWorld where
  device := {
    vio := {
      registers := ⟨modern, offered, status, 0, [], false, []⟩
      mapped := false
      packedRing := false
      eventSuppression := false
      queues := []
      faults := [] }
    bars := 0
    barsAllocated := 0
    barsFreed := 0
    unknownResources := 0
    uFeatures := 0
    queuesReady := false
    virtioReady := false
    eventPool := false
    streams := ⟨0, 0, false, false⟩
    renderCircuitAdded := false
    captureCircuitAdded := false }
  phase := .noHardware

end Viosnd.Startup
