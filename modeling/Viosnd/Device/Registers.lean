import Viosnd.Basic

/-!
# The registers of the device

The device status, the features and the queues as the functions of `VirtIOPCICommon.c` write them,
through the modern or the legacy transport, with the memory the driver holds for them. What must not
happen is logged as a fault.
-/

namespace Viosnd.Startup

/-! ## Status and features -/

/-- `VIRTIO_CONFIG_S_…`. -/
def sAcknowledge : BitVec 8 := 1
def sDriver : BitVec 8 := 2
def sDriverOk : BitVec 8 := 4
def sFeaturesOk : BitVec 8 := 8
def sNeedsReset : BitVec 8 := 0x40
def sFailed : BitVec 8 := 0x80

/-- The bits of `VIRTIO_F_…` and `VIRTIO_RING_F_…`. -/
def fAnyLayout : ℕ := 27
def ringFEventIdx : ℕ := 29
def fVersion1 : ℕ := 32
def fAccessPlatform : ℕ := 33
def fRingPacked : ℕ := 34

/-- `virtio_is_feature_enabled`. -/
def isFeatureEnabled (features : BitVec 64) (bit : ℕ) : Bool := features.getLsbD bit

/-- `virtio_feature_enable`. -/
def featureEnable (features : BitVec 64) (bit : ℕ) : BitVec 64 := features ||| 1#64 <<< bit

/-- `vring_transport_features`: of the bits 28 to 31 only the first two stay. -/
def vringTransportFeatures (features : BitVec 64) : BitVec 64 :=
  features &&& ~~~(1#64 <<< 30) &&& ~~~(1#64 <<< 31)

abbrev Failure := { status : NtStatus // status ≠ .success }

structure Registers where
  modern : Bool
  offered : BitVec 64
  status : BitVec 8
  driverFeatures : BitVec 64
  /-- The queues it has memory for. -/
  queues : List ℕ
  /-- It has buffers in the event pool. -/
  eventPool : Bool
  /-- The queues it was notified of before `VIRTIO_CONFIG_S_DRIVER_OK`. -/
  earlyKicks : List ℕ
  deriving DecidableEq

inductive Fault where
  /-- A register was accessed that is not mapped. -/
  | strayAccess
  /-- The features were written once more after `VIRTIO_CONFIG_S_FEATURES_OK`. -/
  | lateFeatures
  /-- The legacy transport was to write more than 32 features. -/
  | wideFeatures
  /-- `VIRTIO_CONFIG_S_DRIVER_OK` was set already. -/
  | readyTwice
  /-- Memory was freed that the device may access. -/
  | freedInUse
  /-- The record of memory in use was overwritten. -/
  | lostMemory
  deriving DecidableEq

/-- The device may access memory: it was told that the driver is there, or notified. -/
def Registers.Live (r : Registers) : Prop := r.status &&& sDriverOk ≠ 0 ∨ r.earlyKicks ≠ []

instance (r : Registers) : Decidable r.Live := inferInstanceAs (Decidable (_ ∨ _))

/-- `VIODevice`, with the device behind it. -/
structure VioDevice where
  registers : Registers
  mapped : Bool
  packedRing : Bool
  eventSuppression : Bool
  /-- The queues there is memory for: `info[i].vq != NULL`. -/
  queues : List ℕ
  faults : List Fault
  deriving DecidableEq

def VioDevice.fault (v : VioDevice) (fault : Fault) : VioDevice := { v with
  faults := v.faults ++ [fault] }

def VioDevice.check (v : VioDevice) (fault : Fault) (good : Bool) : VioDevice :=
  if good then v else v.fault fault

def VioDevice.access (v : VioDevice) (f : Registers → Registers) : VioDevice :=
  if v.mapped then { v with
    registers := f v.registers }
  else v.fault .strayAccess

def Registers.reset (r : Registers) : Registers := { r with
  status := 0
  driverFeatures := 0
  queues := []
  eventPool := false
  earlyKicks := [] }

/-- A write to the status: a device that refuses the features does not show
`VIRTIO_CONFIG_S_FEATURES_OK`. -/
def Registers.setStatus (refuses : Bool) (status : BitVec 8) (r : Registers) : Registers := { r with
  status := if refuses then status &&& ~~~sFeaturesOk else status }

def virtioDeviceReset (v : VioDevice) : VioDevice := v.access Registers.reset

def virtioAddStatus (status : BitVec 8) (v : VioDevice) : VioDevice :=
  v.access fun r => r.setStatus false (r.status ||| status)

/-- `virtio_device_ready`. -/
def virtioDeviceReady (v : VioDevice) : VioDevice :=
  let v := v.check .readyTwice (v.registers.status &&& sDriverOk == 0)
  v.access fun r => r.setStatus false (r.status ||| sDriverOk)

/-- `virtio_get_features`: the legacy register has 32 bits. -/
def Registers.features (r : Registers) : BitVec 64 :=
  if r.modern then r.offered else (r.offered.setWidth 32).setWidth 64

/-- `set_features` of the transport. -/
def transportSetFeatures (features : BitVec 64) (v : VioDevice) : NtStatus × VioDevice :=
  let features := vringTransportFeatures features
  if v.registers.modern then
    if isFeatureEnabled features fVersion1 = false then (.invalidParameter, v)
    else
      let v := v.check .lateFeatures (v.registers.status &&& sFeaturesOk == 0)
      (.success, v.access fun r => { r with
        driverFeatures := features })
  else
    let v := v.check .wideFeatures ((features.setWidth 32).setWidth 64 == features)
    (.success, v.access fun r => { r with
      driverFeatures := (features.setWidth 32).setWidth 64 })

/-- `virtio_set_features`. -/
def virtioSetFeatures (refuses : Bool) (features : BitVec 64) (v : VioDevice) :
    NtStatus × VioDevice :=
  let v := { v with
    eventSuppression := isFeatureEnabled features ringFEventIdx
    packedRing := isFeatureEnabled features fRingPacked }
  match transportSetFeatures features v with
  | (.success, v) =>
      if isFeatureEnabled features fVersion1 = false then (.success, v)
      else
        let v := v.access fun r => r.setStatus refuses (r.status ||| sFeaturesOk)
        if v.registers.status &&& sFeaturesOk = 0 then (.invalidParameter, v)
        else (.success, v)
  | failed => failed

/-! ## Queues -/

def sndQueues : List ℕ := [0, 1, 2, 3]
def controlQueue : ℕ := 0
def eventQueue : ℕ := 1

/-- `delete_queue` of each queue: the legacy transport takes the memory from the device, the modern
one does not. -/
def virtioDeleteQueues (v : VioDevice) : VioDevice :=
  if v.queues = [] then v
  else
    let v := v.access fun r => if r.modern then r else { r with
      queues := r.queues.filter fun q => !v.queues.contains q }
    let v := v.check .freedInUse
      (!(decide v.registers.Live && v.queues.any fun q => v.registers.queues.contains q))
    { v with
      queues := [] }

/-- What setting up the queues comes to: all of them, or a failure behind the first few. -/
inductive QueueAnswer where
  | all
  | failed (status : Failure) (count : ℕ)

def virtioFindQueues (answer : QueueAnswer) (v : VioDevice) : NtStatus × VioDevice :=
  let created : List ℕ := match answer with
    | .all => sndQueues
    | .failed _ count => sndQueues.take count
  let v := { v.access fun r => { r with
      queues := created } with
    queues := created }
  match answer with
  | .all => (.success, v)
  | .failed status _ => (status, virtioDeleteQueues v)

/-- `virtqueue_notify`. -/
def virtqueueNotify (queue : ℕ) (v : VioDevice) : VioDevice :=
  v.access fun r => if r.status &&& sDriverOk = 0 then { r with
      earlyKicks := r.earlyKicks ++ [queue] }
    else r

/-- `virtio_device_initialize`: the transport maps the registers. -/
def virtioDeviceInitialize (transport : NtStatus) (v : VioDevice) : NtStatus × VioDevice :=
  let v := { v with
    packedRing := false
    eventSuppression := false
    queues := [] }
  if transport = .success then
    let v := virtioDeviceReset { v with
      mapped := true }
    (.success, virtioAddStatus sDriver (virtioAddStatus sAcknowledge v))
  else (transport, v)

end Viosnd.Startup
