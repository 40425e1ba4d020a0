import Mathlib.Tactic

/-!
# Words, status codes and constants

Fixed-width integers of the driver are bit vectors of the same width. Byte buffers are memories
indexed from the start of the buffer.
-/

namespace Viosnd

abbrev ULONG := BitVec 32
abbrev ULONGLONG := BitVec 64
/-- Signed 64-bit values are compared through `BitVec.toInt`. -/
abbrev LONGLONG := BitVec 64
abbrev Byte := BitVec 8

/-- `MAXULONG`, which the stream also uses for "no packet". -/
def maxULONG : ULONG := 0xffffffff

inductive NtStatus where
  | success
  | notFound
  | deviceNotReady
  | deviceBusy
  | ioTimeout
  | ioDeviceError
  | invalidParameter
  | invalidDeviceRequest
  | invalidBufferSize
  | insufficientResources
  | notSupported
  deriving DecidableEq, Repr

/-- `NT_SUCCESS`. -/
def NtStatus.isSuccess (status : NtStatus) : Bool := status == .success

@[simp] theorem NtStatus.isSuccess_iff (status : NtStatus) :
    status.isSuccess = true ↔ status = .success := by
  simp [NtStatus.isSuccess]

@[simp] theorem NtStatus.isSuccess_false_iff (status : NtStatus) :
    status.isSuccess = false ↔ status ≠ .success := by
  simp [NtStatus.isSuccess]

/-- `KSSTATE`. -/
inductive KsState where
  | stop
  | acquire
  | pause
  | run
  deriving DecidableEq, Repr

inductive PcmCommand where
  | setParams
  | prepare
  | release
  | start
  | stop
  deriving DecidableEq, Repr

/-! ## Constants of the stream -/

def renderIoPoolSize : Nat := 12
def renderTargetOutstandingPackets : Nat := 8
def renderCyclicOutstandingPackets : Nat := 2
def renderFallbackOutstandingPackets : Nat := 2
def renderStartPrerollPackets : Nat := 2
def renderCyclicPrerollPackets : Nat := renderStartPrerollPackets
def captureIoPoolSize : Nat := 8
def captureTargetOutstandingPackets : Nat := 4
def captureSoftwareGain : Int := 1
def fallbackMonitorMs : ULONGLONG := 2000
def fallbackTriggerPercent : ULONGLONG := 65
def defaultSampleRate : ULONG := 48000
def fallbackSampleRate : ULONG := 16000
def defaultChannels : Nat := 2
def defaultPeriodBytes : ULONG := 2048
def fallbackPeriodBytes : ULONG := 2048
/-- Bytes of one second of the default format: rate, channels and two bytes a sample. -/
def bytesPerSecond : ULONGLONG := 48000 * 2 * 2
/-- Bytes of one frame. -/
def blockAlign : ULONGLONG := 2 * 2
def sizeofPcmXfer : Nat := 4
def sizeofPcmStatus : Nat := 8

/-! ## Memories -/

abbrev Memory := ℕ → Byte

/-- The bytes `[offset, offset + length)`. -/
def Memory.slice (m : Memory) (offset length : ℕ) : List Byte :=
  (List.range length).map fun i => m (offset + i)

/-- `RtlZeroMemory`. -/
def Memory.zero (m : Memory) (offset length : ℕ) : Memory := fun i =>
  if offset ≤ i ∧ i < offset + length then 0 else m i

/-- Write the bytes from `offset` on. -/
def Memory.write (m : Memory) (offset : ℕ) (bytes : List Byte) : Memory := fun i =>
  if offset ≤ i then (bytes[i - offset]?).getD (m i) else m i

@[simp] theorem Memory.slice_length (m : Memory) (offset length : ℕ) :
    (m.slice offset length).length = length := by
  simp [Memory.slice]

theorem Memory.slice_congr {m m' : Memory} {offset length : ℕ}
    (h : ∀ i, offset ≤ i → i < offset + length → m i = m' i) :
    m.slice offset length = m'.slice offset length := by
  unfold Memory.slice
  apply List.map_congr_left
  intro i hi
  rw [List.mem_range] at hi
  exact h _ (by omega) (by omega)

theorem Memory.slice_add (m : Memory) (offset first rest : ℕ) :
    m.slice offset (first + rest) = m.slice offset first ++ m.slice (offset + first) rest := by
  unfold Memory.slice
  rw [List.range_add, List.map_append, List.map_map]
  simp only [Function.comp_def, Nat.add_assoc]

theorem Memory.write_outside (m : Memory) (offset : ℕ) (bytes : List Byte) {i : ℕ}
    (hi : i < offset ∨ offset + bytes.length ≤ i) : m.write offset bytes i = m i := by
  unfold Memory.write
  split_ifs with hle
  · rw [List.getElem?_eq_none (by omega)]
    rfl
  · rfl

theorem Memory.zero_outside (m : Memory) (offset length : ℕ) {i : ℕ}
    (hi : i < offset ∨ offset + length ≤ i) : m.zero offset length i = m i :=
  if_neg (by omega)

@[simp] theorem Memory.write_nil (m : Memory) (offset : ℕ) : m.write offset [] = m := by
  funext i
  simp [Memory.write]

theorem Memory.write_replicate (m : Memory) (offset length : ℕ) :
    m.write offset (List.replicate length 0) = m.zero offset length := by
  funext i
  simp only [Memory.write, Memory.zero, List.getElem?_replicate]
  split_ifs <;> first | rfl | omega

theorem Memory.write_append (m : Memory) (offset : ℕ) (first second : List Byte) :
    m.write offset (first ++ second) =
      (m.write offset first).write (offset + first.length) second := by
  funext i
  unfold Memory.write
  rcases Nat.lt_or_ge i (offset + first.length) with hfirst | hsecond
  · rw [if_neg (Nat.not_le.mpr hfirst)]
    split_ifs with hoffset
    · rw [List.getElem?_append_left (by omega)]
    · rfl
  · rw [if_pos hsecond, if_pos (by omega), List.getElem?_append_right (by omega),
      List.getElem?_eq_none (l := first) (by omega)]
    have hindex : i - offset - first.length = i - (offset + first.length) := by omega
    rw [hindex]
    split_ifs <;> rfl

theorem Memory.slice_write (m : Memory) (offset : ℕ) (bytes : List Byte) :
    (m.write offset bytes).slice offset bytes.length = bytes := by
  apply List.ext_getElem
  · simp
  · intro i hi hi'
    simp [Memory.slice, Memory.write, hi']

theorem Memory.slice_zero (m : Memory) (offset length : ℕ) :
    (m.zero offset length).slice offset length = List.replicate length 0 := by
  unfold Memory.slice
  rw [List.eq_replicate_iff]
  refine ⟨by simp, ?_⟩
  intro b hb
  obtain ⟨i, hi, rfl⟩ := List.mem_map.mp hb
  rw [List.mem_range] at hi
  exact if_pos (by omega)

end Viosnd
