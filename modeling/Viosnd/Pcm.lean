import Viosnd.Basic

/-!
# Packet arithmetic and sample conversion

The pure helpers of the WaveRT stream: targets of outstanding packets, packet-number comparison,
the byte clock, the software gain and the fallback resampler.
-/

namespace Viosnd

/-! ## Outstanding packets -/

/-- The three target functions differ in their limit only. -/
def outstandingTarget (limit : Nat) (notificationCount : ULONG) : Nat :=
  if notificationCount = 0 then 0
  else if notificationCount = 1 then 1
  else min (notificationCount.toNat - 1) limit

def viosndTargetOutstandingPackets (notificationCount : ULONG) : Nat :=
  outstandingTarget renderTargetOutstandingPackets notificationCount

def viosndCyclicTargetOutstandingPackets (notificationCount : ULONG) : Nat :=
  outstandingTarget renderCyclicOutstandingPackets notificationCount

def viosndFallbackTargetOutstandingPackets (notificationCount : ULONG) : Nat :=
  outstandingTarget renderFallbackOutstandingPackets notificationCount

theorem outstandingTarget_le (limit : Nat) (hl : 1 ≤ limit) (notificationCount : ULONG) :
    outstandingTarget limit notificationCount ≤ limit := by
  unfold outstandingTarget
  split_ifs <;> omega

/-! ## Packet numbers -/

/-- The 32-bit difference read as a signed number. -/
def viosndPacketNumberLessOrEqual (left right : ULONG) : Bool := (left - right).toInt ≤ 0

def viosndHasWritableRenderPacket (nextSubmitPacket lastOsWritePacket : ULONG) : Bool :=
  lastOsWritePacket ≠ maxULONG && viosndPacketNumberLessOrEqual nextSubmitPacket lastOsWritePacket

/-- The `n` packet numbers from `first` on. -/
def packetsFrom (first : ULONG) (n : Nat) : List ULONG :=
  (List.range n).map fun i => first + BitVec.ofNat 32 i

@[simp] theorem packetsFrom_zero (first : ULONG) : packetsFrom first 0 = [] := rfl

@[simp] theorem packetsFrom_length (first : ULONG) (n : Nat) :
    (packetsFrom first n).length = n := by
  simp [packetsFrom]

theorem packetsFrom_succ (first : ULONG) (n : Nat) :
    packetsFrom first (n + 1) = packetsFrom first n ++ [first + BitVec.ofNat 32 n] := by
  simp [packetsFrom, List.range_succ]

theorem packetsFrom_append (first : ULONG) (m n : Nat) :
    packetsFrom first m ++ packetsFrom (first + BitVec.ofNat 32 m) n =
      packetsFrom first (m + n) := by
  induction n with
  | zero => simp
  | succ n ih =>
      rw [packetsFrom_succ, ← List.append_assoc, ih, ← Nat.add_assoc, packetsFrom_succ,
        BitVec.add_assoc, ← BitVec.ofNat_add]

/-- Start of the slot a packet number selects in the WaveRT buffer. -/
def packetOffset (packetNumber notificationCount packetSize : ULONG) : ULONG :=
  (packetNumber % (if notificationCount = 0 then 1 else notificationCount)) * packetSize

/-! ## The byte clock -/

def viosndRenderBytesFromQpc (qpcDelta qpcFrequency : LONGLONG) : ULONGLONG :=
  if qpcDelta.toInt ≤ 0 ∨ qpcFrequency.toInt ≤ 0 then 0
  else
    let bytes := qpcDelta * bytesPerSecond / qpcFrequency
    bytes - bytes % blockAlign

/-! ## Samples -/

/-- One 16-bit sample times the gain, saturated. -/
def gainSample (gain : Int) (sample : BitVec 16) : BitVec 16 :=
  let scaled := sample.toInt * gain
  BitVec.ofInt 16 (if scaled > 32767 then 32767 else if scaled < -32768 then -32768 else scaled)

/-- `ViosndPcmCopyGain16`: little-endian samples in byte pairs; an odd last byte is copied. -/
def viosndPcmCopyGain16 (gain : Int) : List Byte → List Byte
  | lo :: hi :: rest =>
      let sample := gainSample gain (hi ++ lo)
      sample.setWidth 8 :: (sample >>> 8).setWidth 8 :: viosndPcmCopyGain16 gain rest
  | [last] => [last]
  | [] => []

private theorem gainSample_one (sample : BitVec 16) : gainSample 1 sample = sample := by
  have hlow : -32768 ≤ sample.toInt := BitVec.le_toInt sample
  have hhigh : sample.toInt < 32768 := BitVec.toInt_lt
  unfold gainSample
  dsimp only
  rw [Int.mul_one, if_neg (by omega), if_neg (by omega), BitVec.ofInt_toInt]

private theorem append_getLsbD (hi lo : Byte) (i : Nat) :
    (hi ++ lo : BitVec 16).getLsbD i = if i < 8 then lo.getLsbD i else hi.getLsbD (i - 8) :=
  BitVec.getLsbD_append

theorem viosndPcmCopyGain16_one (bytes : List Byte) : viosndPcmCopyGain16 1 bytes = bytes := by
  induction bytes using viosndPcmCopyGain16.induct 1 with
  | case1 lo hi rest ih =>
      have hlo : (hi ++ lo : BitVec 16).setWidth 8 = lo := by
        apply BitVec.eq_of_getLsbD_eq
        intro i hi'
        rw [BitVec.getLsbD_setWidth, append_getLsbD, if_pos hi']
        simp [hi']
      have hhi : ((hi ++ lo : BitVec 16) >>> 8).setWidth 8 = hi := by
        apply BitVec.eq_of_getLsbD_eq
        intro i hi'
        rw [BitVec.getLsbD_setWidth, BitVec.getLsbD_ushiftRight, append_getLsbD,
          if_neg (by omega), Nat.add_sub_cancel_left]
        simp [hi']
      unfold viosndPcmCopyGain16
      dsimp only
      rw [gainSample_one, ih, hlo, hhi]
  | case2 last => rfl
  | case3 => rfl

/-! ## The fallback resampler -/

def viosndFallbackInitialPhase : ULONG := defaultSampleRate - fallbackSampleRate

/-- The loop of `ViosndDownsampleStereo16`: `frames` source frames are left, `room` destination
frames are free, `frame` is the next source frame. -/
def downsampleLoop (source : Memory) (rate : ULONG) :
    (frames frame room : Nat) → ULONG → List Byte × ULONG
  | 0, _, _, phase => ([], phase)
  | _, _, 0, phase => ([], phase)
  | frames + 1, frame, room + 1, phase =>
      let phase := phase + rate
      if defaultSampleRate ≤ phase then
        let rest := downsampleLoop source rate frames (frame + 1) room (phase - defaultSampleRate)
        (source.slice (4 * frame) 4 ++ rest.1, rest.2)
      else downsampleLoop source rate frames (frame + 1) (room + 1) phase

/-- The bytes written to the destination and the new phase; the source returns their number. -/
def viosndDownsampleStereo16 (destinationLength : Nat) (source : Memory) (sourceLength : ULONG)
    (rate phase : ULONG) : List Byte × ULONG :=
  if rate = 0 ∨ defaultSampleRate ≤ rate then ([], phase)
  else downsampleLoop source rate (sourceLength.toNat / 4) 0 (destinationLength / 4) phase

end Viosnd
