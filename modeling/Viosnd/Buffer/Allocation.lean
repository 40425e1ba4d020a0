import Viosnd.Capture.Integrity
import Viosnd.Lib.SlotRanges
import Viosnd.Render.Outstanding

/-!
# Allocating the WaveRT buffer

`AllocateAudioBuffer` asks for at least the default size and takes what whole packets fit in what
was granted; `AllocateBufferWithNotification` asks for the requested number of packets through it.
Both streams share the code; each of the two models has its own fields.
-/

namespace Viosnd.Buffer

open SlotRanges
open Render (PagesInput)

/-- `VIOSND_DEFAULT_BUFFER_BYTES`. -/
def defaultBufferBytes : ULONG := defaultPeriodBytes * 16

/-- The size `AllocateAudioBuffer` asks `MmAllocatePagesForMdlEx` for. -/
def allocationSize (requestedSize : ULONG) : ULONG :=
  if requestedSize < defaultBufferBytes then defaultBufferBytes else requestedSize

/-- `periodAlignedSize` of `AllocateBufferWithNotification`. -/
def periodAlignedSize (notificationCount : ULONG) : ULONGLONG :=
  let requestedNotificationCount :=
    if notificationCount ≠ 0 then notificationCount else defaultBufferBytes / defaultPeriodBytes
  let requestedNotificationCount :=
    if requestedNotificationCount < 1 then 1 else requestedNotificationCount
  requestedNotificationCount.setWidth 64 * defaultPeriodBytes.setWidth 64

/-- `MmAllocatePagesForMdlEx` and what follows from it, for every size. -/
abbrev MemoryManager := ULONG → PagesInput

end Viosnd.Buffer

namespace Viosnd.Render

open Buffer

/-- `AllocateAudioBuffer`; `*ActualSize` is `m_BufferSize`. -/
def allocateBuffer (requestedSize : ULONG) (mm : MemoryManager) (w : World) : NtStatus × World :=
  allocateAudioBuffer (mm (allocationSize requestedSize)) w

def allocateBufferWithNotification (notificationCount _requestedSize : ULONG) (mm : MemoryManager)
    (w : World) : NtStatus × World :=
  if maxULONG.setWidth 64 < periodAlignedSize notificationCount then (.invalidBufferSize, w)
  else
    let r := allocateBuffer ((periodAlignedSize notificationCount).setWidth 32) mm w
    if r.1.isSuccess then
      let count := viosndNotificationCountFromBufferSize r.2.bufferSize
      (r.1, { r.2 with
        notificationCount := count
        packetSize := viosndPacketSizeFromNotificationCount r.2.bufferSize count })
    else r

def freeBufferWithNotification (w : World) : World :=
  { freeAudioBuffer true w with
    notificationCount := 0
    packetSize := 0 }

end Viosnd.Render

namespace Viosnd.Capture

open Buffer
open Render (PagesInput)

/-- The fields `FreeAudioBuffer` resets. -/
def forgetBuffer (w : World) : World := { w with
  buffer := none
  bufferSize := 0
  notificationCount := 0
  packetSize := 0
  packetNumber := 0
  nextSubmitPacket := 0
  nextReadPacket := 0
  outstandingWrites := 0
  captureOverflows := if w.captureInFlight = 0 then 0 else w.captureOverflows
  position := 0 }

/-- `FreeAudioBuffer`; `current` when the MDL it gets is `m_Mdl`. -/
def freeAudioBuffer (current : Bool) (w : World) : World :=
  if current then forgetBuffer (freeCaptureIoPool w) else w

def allocateAudioBuffer (pages : PagesInput) (w : World) : NtStatus × World :=
  match pages with
  | .none => (.insufficientResources, w)
  | .unmapped => (.insufficientResources, freeAudioBuffer true { w with
      buffer := none })
  | .mapped allocatedSize =>
      let bufferSize := viosndUsableBufferSizeFromAllocatedSize allocatedSize
      (.success, { w with
        buffer := some fun _ => 0
        bufferSize := bufferSize
        notificationCount := viosndNotificationCountFromBufferSize bufferSize
        packetSize := viosndPacketSizeFromNotificationCount bufferSize })

/-- `AllocateAudioBuffer`; `*ActualSize` is `m_BufferSize`. -/
def allocateBuffer (requestedSize : ULONG) (mm : MemoryManager) (w : World) : NtStatus × World :=
  allocateAudioBuffer (mm (allocationSize requestedSize)) w

def allocateBufferWithNotification (notificationCount _requestedSize : ULONG) (mm : MemoryManager)
    (w : World) : NtStatus × World :=
  if maxULONG.setWidth 64 < periodAlignedSize notificationCount then (.invalidBufferSize, w)
  else
    let r := allocateBuffer ((periodAlignedSize notificationCount).setWidth 32) mm w
    if r.1.isSuccess then
      (r.1, { r.2 with
        notificationCount := viosndNotificationCountFromBufferSize r.2.bufferSize
        packetSize := viosndPacketSizeFromNotificationCount r.2.bufferSize })
    else r

def freeBufferWithNotification (w : World) : World :=
  { freeAudioBuffer true w with
    notificationCount := 0
    packetSize := 0 }

end Viosnd.Capture

namespace Viosnd.Buffer

open SlotRanges

/-! ## The geometry of a grant -/

def grantedCount (allocatedSize : ℕ) : ℕ :=
  if allocatedSize = 0 then 0 else max (allocatedSize / 2048) 1

def grantedPacketSize (allocatedSize : ℕ) : ℕ := min allocatedSize 2048

section

variable (allocatedSize : ULONG)

private theorem period_toNat : defaultPeriodBytes.toNat = 2048 := rfl

private theorem count_div_toNat (size : ULONG) :
    (size / defaultPeriodBytes).toNat = size.toNat / 2048 :=
  BitVec.toNat_udiv

theorem notificationCount_toNat (size : ULONG) :
    (Render.viosndNotificationCountFromBufferSize size).toNat = grantedCount size.toNat := by
  have hone : (1 : ULONG).toNat = 1 := rfl
  unfold Render.viosndNotificationCountFromBufferSize grantedCount
  by_cases hzero : size = 0
  · simp [hzero]
  · have hpos : size.toNat ≠ 0 := fun h => hzero (BitVec.eq_of_toNat_eq h)
    rw [if_neg hzero, if_neg hpos]
    split_ifs with hfew
    · rw [BitVec.lt_def, count_div_toNat, hone] at hfew
      rw [hone]
      omega
    · rw [BitVec.lt_def, count_div_toNat, hone] at hfew
      rw [count_div_toNat]
      omega

theorem packetSize_toNat (size count : ULONG) :
    (Render.viosndPacketSizeFromNotificationCount size count).toNat =
      grantedPacketSize size.toNat := by
  unfold Render.viosndPacketSizeFromNotificationCount grantedPacketSize
  split_ifs with hshort
  · rw [BitVec.lt_def, period_toNat] at hshort
    omega
  · rw [BitVec.lt_def, period_toNat] at hshort
    rw [period_toNat]
    omega

/-- The product in `ViosndUsableBufferSizeFromAllocatedSize` does not wrap. -/
theorem usableBufferSize_toNat :
    (Render.viosndUsableBufferSizeFromAllocatedSize allocatedSize).toNat =
      grantedCount allocatedSize.toNat * grantedPacketSize allocatedSize.toNat := by
  have hlt := allocatedSize.isLt
  unfold Render.viosndUsableBufferSizeFromAllocatedSize
  split_ifs with hshort
  · rw [BitVec.lt_def, period_toNat] at hshort
    unfold grantedCount grantedPacketSize
    rcases Nat.eq_zero_or_pos allocatedSize.toNat with hzero | hpos
    · rw [hzero]
      rfl
    · rw [if_neg (by omega), Nat.div_eq_of_lt hshort, Nat.max_eq_right (Nat.zero_le 1),
        Nat.one_mul]
      omega
  · rw [BitVec.lt_def, period_toNat] at hshort
    have hcount := notificationCount_toNat allocatedSize
    rw [BitVec.toNat_mul, hcount, period_toNat]
    unfold grantedCount grantedPacketSize
    rw [if_neg (by omega), Nat.min_eq_right (by omega), Nat.max_eq_left (by omega)]
    exact Nat.mod_eq_of_lt (by omega)

theorem usableBufferSize_le :
    grantedCount allocatedSize.toNat * grantedPacketSize allocatedSize.toNat ≤
      allocatedSize.toNat := by
  unfold grantedCount grantedPacketSize
  split_ifs with hzero
  · omega
  · rcases Nat.lt_or_ge allocatedSize.toNat 2048 with hshort | hlong
    · rw [Nat.div_eq_of_lt hshort, Nat.max_eq_right (Nat.zero_le 1)]
      omega
    · rw [Nat.min_eq_right hlong, Nat.max_eq_left (by omega)]
      omega

end

end Viosnd.Buffer
