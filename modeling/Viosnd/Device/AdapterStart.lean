import Viosnd.Device.Registers
import Viosnd.Device.StreamPair
import Viosnd.Lib.Runs

/-!
# Starting the WaveRT adapter

`XcbVirtioAudioStartDevice` of `Adapter.cpp`, with `ViosndCreateDevice`, `ViosndInitVirtio` and
`ViosndDestroyDevice` behind it, and the subdevices that it registers with the port class. A start
may come again at any time. What the system and the device answer is part of the input.
-/

namespace Viosnd.Startup

open Viosnd.Device

/-- `VIOSND_DEVICE` as far as a start goes. -/
structure WaveDevice where
  vio : VioDevice
  virtioInitialized : Bool
  /-- The reference to the physical device object. -/
  physicalDevice : Bool
  /-- The reference to the bus interface. -/
  pciBus : Bool
  dmaAdapter : Bool
  /-- The BARs that are mapped. -/
  bars : ℕ
  /-- The DMA blocks beside the queues: messages that the device did not answer. -/
  messages : ℕ
  /-- The structure was given back to the pool. -/
  freed : Bool

/-- A subdevice that the port class knows. The miniport of a wave port points to the device. -/
inductive Subdevice where
  | topology (capture : Bool)
  | wave (capture : Bool) (device : ℕ)
  deriving DecidableEq

/-- The adapter, with the devices by the number of their allocation. -/
structure Adapter where
  registers : Registers
  devices : List WaveDevice
  /-- `g_ViosndDevice`. -/
  current : Option ℕ
  subdevices : List Subdevice
  /-- References to ports and miniports that the driver holds itself. -/
  references : ℤ
  /-- The devices whose start succeeded. -/
  started : List ℕ

/-! ## What the system answers -/

structure SubdeviceAnswers where
  port : Option Failure
  miniport : Bool
  init : Option Failure
  register : Option Failure

structure EndpointAnswers where
  topology : SubdeviceAnswers
  wave : SubdeviceAnswers
  connection : Option Failure

/-- How the query for the streams goes: the messages it sends, those that stay with the device, and
what it finds. -/
structure QueryRun where
  sent : ℕ
  unanswered : ℕ
  status : NtStatus
  streams : StreamPair

structure StartAnswers where
  physicalDevice : Option Failure
  endpointRole : ULONG
  memory : Bool
  busInterface : Option Failure
  header : Bool
  dmaAdapter : Bool
  bars : ℕ
  transport : NtStatus
  refusesFeatures : Bool
  queues : QueueAnswer
  query : QueryRun
  render : EndpointAnswers
  capture : EndpointAnswers

inductive StartFailure where
  | status (status : NtStatus)
  /-- `STATUS_DEVICE_CONFIGURATION_ERROR`. -/
  | deviceConfiguration
  deriving DecidableEq

/-! ## The device -/

/-- The reset that takes the queues from the device, before they are deleted. -/
def resetAndDelete (v : VioDevice) : VioDevice := virtioDeleteQueues (virtioDeviceReset v)

def viosndInitVirtio (a : StartAnswers) (d : WaveDevice) : NtStatus × WaveDevice :=
  let opened := virtioDeviceInitialize a.transport d.vio
  let d := { d with
    vio := opened.2
    bars := a.bars }
  if opened.1 ≠ .success then (opened.1, d)
  else
    let v := virtioAddStatus sDriver (virtioAddStatus sAcknowledge (virtioDeviceReset d.vio))
    let v := v.access id
    let features := v.registers.features &&& 1#64 <<< fVersion1
    let written := virtioSetFeatures a.refusesFeatures features v
    if written.1 ≠ .success then (written.1, { d with
      vio := resetAndDelete written.2 })
    else
      let found := virtioFindQueues a.queues written.2
      if found.1 ≠ .success then (found.1, { d with
        vio := resetAndDelete found.2 })
      else (.success, { d with
        vio := (virtioDeviceReady found.2).access id
        virtioInitialized := true })

/-- `ViosndQueryPcmStreams`. -/
def queryStreams (q : QueryRun) (d : WaveDevice) : WaveDevice := { d with
  vio := (List.replicate q.sent controlQueue).foldl (fun v queue => virtqueueNotify queue v) d.vio
  messages := d.messages + q.unanswered }

def viosndDestroyDevice (d : WaveDevice) : WaveDevice :=
  let v := if d.virtioInitialized then resetAndDelete d.vio else d.vio
  -- the DMA blocks that are left
  let v := v.check .freedInUse (!(decide v.registers.Live && decide (0 < d.messages)))
  { d with
    vio := { v with
      mapped := false }
    physicalDevice := false
    pciBus := false
    dmaAdapter := false
    bars := 0
    messages := 0
    freed := true }

/-- The structure is zeroed, and the physical device object referenced. -/
def newDevice (registers : Registers) : WaveDevice where
  vio := ⟨registers, false, false, false, [], []⟩
  virtioInitialized := false
  physicalDevice := true
  pciBus := false
  dmaAdapter := false
  bars := 0
  messages := 0
  freed := false

/-- `ViosndCreateDevice`: the device is destroyed again when it fails behind its allocation. -/
def viosndCreateDevice (a : StartAnswers) (registers : Registers) :
    Option StartFailure × Option WaveDevice :=
  if a.memory = false then (some (.status .insufficientResources), none)
  else
    let d := newDevice registers
    match a.busInterface with
    | some failure => (some (.status failure.val), some (viosndDestroyDevice d))
    | none =>
        let d := { d with
          pciBus := true }
        if a.header = false then (some .deviceConfiguration, some (viosndDestroyDevice d))
        else if a.dmaAdapter = false then
          (some (.status .insufficientResources), some (viosndDestroyDevice d))
        else (none, some { d with
          dmaAdapter := true })

/-! ## Subdevices -/

/-- `ViosndCreateAndRegisterWaveRTSubdevice` and `ViosndCreateAndRegisterTopologySubdevice`: on
success the caller holds a port and a miniport. -/
def createAndRegister (subdevice : Subdevice) (a : SubdeviceAnswers) (w : Adapter) :
    NtStatus × Adapter :=
  match a.port with
  | some failure => (failure.val, w)
  | none =>
      let w := { w with
        references := w.references + 1 }
      if a.miniport = false then (.insufficientResources, { w with
        references := w.references - 1 })
      else
        let w := { w with
          references := w.references + 1 }
        match a.init, a.register with
        | some failure, _ | none, some failure => (failure.val, { w with
            references := w.references - 2 })
        | none, none => (.success, { w with
            subdevices := w.subdevices ++ [subdevice] })

def viosndRegisterAudioEndpoint (a : EndpointAnswers) (capture : Bool) (device : ℕ) (w : Adapter) :
    NtStatus × Adapter :=
  let topology := createAndRegister (.topology capture) a.topology w
  if topology.1 ≠ .success then topology
  else
    let wave := createAndRegister (.wave capture device) a.wave topology.2
    if wave.1 ≠ .success then (wave.1, { wave.2 with
      references := wave.2.references - 2 })
    else
      let status := match a.connection with
        | some failure => failure.val
        | none => .success
      (status, { wave.2 with
        references := wave.2.references - 4 })

/-! ## The start -/

def StartAnswers.enableRender (a : StartAnswers) : Bool := decide (a.endpointRole ≠ 1)
def StartAnswers.enableCapture (a : StartAnswers) : Bool := decide (a.endpointRole ≠ 0)

def registerEndpoints (a : StartAnswers) (device : ℕ) (w : Adapter) : NtStatus × Adapter :=
  let render :=
    if a.enableRender && a.query.streams.hasRender then
      viosndRegisterAudioEndpoint a.render false device w
    else (.success, w)
  if render.1 ≠ .success then render
  else if a.enableCapture && a.query.streams.hasCapture then
    viosndRegisterAudioEndpoint a.capture true device render.2
  else render

/-- A device that was created, as the start leaves it. -/
def Adapter.add (w : Adapter) (d : WaveDevice) : Adapter := { w with
  registers := d.vio.registers
  devices := w.devices ++ [d] }

def StartAnswers.lacksStream (a : StartAnswers) : Bool :=
  (a.enableRender && !a.query.streams.hasRender) ||
    (a.enableCapture && !a.query.streams.hasCapture)

/-- What `XcbVirtioAudioStartDevice` does with a device that was created. -/
def startCreated (a : StartAnswers) (d : WaveDevice) (w : Adapter) :
    Option StartFailure × Adapter :=
  let initialized := viosndInitVirtio a d
  if initialized.1 ≠ .success then
    (some (.status initialized.1), w.add (viosndDestroyDevice initialized.2))
  else
    let d := queryStreams a.query initialized.2
    if a.query.status ≠ .success then
      (some (.status a.query.status), w.add (viosndDestroyDevice d))
    else if a.lacksStream then (some .deviceConfiguration, w.add (viosndDestroyDevice d))
    else
      let device := w.devices.length
      let registered := registerEndpoints a device w
      if registered.1 ≠ .success then
        (some (.status registered.1), registered.2.add (viosndDestroyDevice d))
      else (none, { registered.2.add d with
        current := some device
        started := w.started ++ [device] })

/-- `XcbVirtioAudioStartDevice`. -/
def startDevice (a : StartAnswers) (w : Adapter) : Option StartFailure × Adapter :=
  match a.physicalDevice with
  | some failure => (some (.status failure.val), w)
  | none =>
      match viosndCreateDevice a w.registers with
      | (failure, none) => (failure, w)
      | (some failure, some d) => (some failure, w.add d)
      | (none, some d) => startCreated a d w

def Adapter.step (w : Adapter) (a : StartAnswers) : Adapter := (startDevice a w).2

/-- The driver was loaded; the device has no queue. -/
def Adapter.loaded (modern : Bool) (offered : BitVec 64) (status : BitVec 8) : Adapter where
  registers := ⟨modern, offered, status, 0, [], false, []⟩
  devices := []
  current := none
  subdevices := []
  references := 0
  started := []

end Viosnd.Startup
