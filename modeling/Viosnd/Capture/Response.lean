import Viosnd.Capture.World

/-!
# The response of a capture transfer

The device writes the audio and, behind it, a `VIRTIO_SND_PCM_STATUS` into one buffer and reports
how many bytes it wrote. Two routines parse such a response: the prepared reads of the WaveRT stream
and the synchronous `ViosndReadPcm`.
-/

namespace Viosnd.Capture.Response

/-- `VIRTIO_SND_S_OK`. -/
def statusOk : ULONG := 0x8000

/-- `VIRTIO_SND_PCM_STATUS`. -/
structure PcmStatus where
  status : ULONG
  latencyBytes : ULONG

def loadULONG (m : Memory) (offset : ℕ) : ULONG :=
  m (offset + 3) ++ m (offset + 2) ++ m (offset + 1) ++ m offset

def loadStatus (m : Memory) (offset : ℕ) : PcmStatus :=
  ⟨loadULONG m offset, loadULONG m (offset + 4)⟩

/-- `VirtIOBufferDescriptor`. -/
structure Descriptor where
  physAddr : ULONGLONG
  length : ULONG

/-! ## Prepared reads -/

/-- `VIOSND_PCM_IO` of a capture stream. -/
structure ReadIo where
  requestVa : Option Memory
  requestPa : ULONGLONG
  audioVa : Option Memory
  audioPa : ULONGLONG
  maxAudioLength : ULONG
  audioLength : ULONG
  packetNumber : ULONG
  streamId : ULONG

def bytesOf (x : ULONG) : List Byte :=
  [x.setWidth 8, (x >>> 8).setWidth 8, (x >>> 16).setWidth 8, (x >>> 24).setWidth 8]

/-- `ViosndSubmitPreparedReadPcm`: status, the IO and what `virtqueue_add_buf` was given. `queue`
says that the RX queue exists, `room` that it took the descriptors. -/
def viosndSubmitPreparedReadPcm (queue room : Bool) (streamId length packetNumber : ULONG)
    (io : Option ReadIo) : NtStatus × Option ReadIo × List Descriptor :=
  if queue = false then (.deviceNotReady, io, [])
  else match io with
    | none => (.invalidParameter, none, [])
    | some io => match io.requestVa, io.audioVa with
      | some requestVa, some audioVa =>
          if io.maxAudioLength < length then (.invalidParameter, some io, [])
          else
            let filled := { io with
              audioVa := some (audioVa.zero 0 (length.toNat + sizeofPcmStatus))
              requestVa := some (requestVa.write 0 (bytesOf streamId))
              streamId := streamId
              audioLength := length
              packetNumber := packetNumber }
            (if room then .success else .deviceBusy, some filled,
              [⟨io.requestPa, BitVec.ofNat 32 sizeofPcmXfer⟩,
                ⟨io.audioPa, length + BitVec.ofNat 32 sizeofPcmStatus⟩])
      | _, _ => (.invalidParameter, some io, [])

structure Parsed where
  result : NtStatus
  bytesRead : ULONG
  latencyBytes : ULONG
  /-- Where in the response it read the status. -/
  statusAt : Option ℕ

/-- `ViosndReclaimPreparedReadPcm` for the IO and the length `virtqueue_get_buf` returned, with the
contents of `AudioVa` by then. -/
def viosndReclaimPreparedReadPcm (queue : Bool) (got : Option (ReadIo × ULONG))
    (audioVa : Memory) : Parsed × Option ReadIo :=
  if queue = false then (⟨.deviceNotReady, 0, 0, none⟩, none)
  else match got with
    | none => (⟨.notFound, 0, 0, none⟩, none)
    | some (io, usedLength) =>
        if usedLength < BitVec.ofNat 32 sizeofPcmStatus then
          (⟨.ioDeviceError, 0, 0, none⟩, some io)
        else
          let audioBytes := usedLength - BitVec.ofNat 32 sizeofPcmStatus
          let status := loadStatus audioVa audioBytes.toNat
          let result := if status.status = statusOk then .success else .ioDeviceError
          (⟨result,
            if result.isSuccess then
              if io.audioLength < audioBytes then io.audioLength else audioBytes
            else 0,
            status.latencyBytes, some audioBytes.toNat⟩, some io)

/-! ## Synchronous reads -/

/-- What `ViosndReadPcm` meets: the RX queue, its two allocations, room on the queue, the end of the
wait with the used length, and the response by then. -/
structure ReadInput where
  queue : Bool
  allocated : Bool
  room : Bool
  wait : NtStatus
  usedLength : ULONG
  response : Memory

/-- `ViosndReadPcm`, with the caller's buffer. -/
def viosndReadPcm (i : ReadInput) (length : ULONG) (buffer : Memory) : Parsed × Memory :=
  let responseLength := length + BitVec.ofNat 32 sizeofPcmStatus
  if i.queue = false then (⟨.deviceNotReady, 0, 0, none⟩, buffer)
  else if i.allocated = false then (⟨.insufficientResources, 0, 0, none⟩, buffer)
  else if i.room = false then (⟨.deviceBusy, 0, 0, none⟩, buffer)
  else if i.wait.isSuccess = false then (⟨i.wait, 0, 0, none⟩, buffer)
  else if i.usedLength < BitVec.ofNat 32 sizeofPcmStatus ∨ responseLength < i.usedLength then
    (⟨.ioDeviceError, 0, 0, none⟩, buffer)
  else
    let audioBytes := i.usedLength - BitVec.ofNat 32 sizeofPcmStatus
    let status := loadStatus i.response audioBytes.toNat
    if status.status = statusOk then
      let bytesRead := if audioBytes < length then audioBytes else length
      (⟨.success, bytesRead, 0, some audioBytes.toNat⟩,
        buffer.write 0 (i.response.slice 0 bytesRead.toNat))
    else (⟨.ioDeviceError, 0, 0, some audioBytes.toNat⟩, buffer)

/-! ## The two parsers -/

/-- A buffer of which `given` bytes were given to the device, which wrote `contents`. -/
def answered (given : ULONG) (contents beyond : Memory) : Memory := fun i =>
  if i < given.toNat then contents i else beyond i

section

variable {given : ULONG} {offset : ℕ} (contents beyond : Memory)

private theorem loadULONG_answered (hfit : offset + 4 ≤ given.toNat) :
    loadULONG (answered given contents beyond) offset = loadULONG contents offset := by
  have hinside : ∀ i < 4, answered given contents beyond (offset + i) = contents (offset + i) := by
    intro i hi
    exact if_pos (by omega)
  unfold loadULONG
  rw [hinside 3 (by decide), hinside 2 (by decide), hinside 1 (by decide)]
  congr 1
  exact hinside 0 (by decide)

/-- What lies in the part the device was given does not depend on what lies behind it. -/
private theorem loadStatus_answered (hfit : offset + sizeofPcmStatus ≤ given.toNat) :
    loadStatus (answered given contents beyond) offset = loadStatus contents offset := by
  unfold sizeofPcmStatus at hfit
  unfold loadStatus
  rw [loadULONG_answered contents beyond (by omega), loadULONG_answered contents beyond (by omega)]

end

/-- The prepared read given to the device as `given` bytes parses a response like `ViosndReadPcm`,
without a look behind the response. -/
structure Agrees (length given : ULONG) (prepared parsed : Parsed) : Prop where
  inside : ∀ offset ∈ prepared.statusAt, offset + sizeofPcmStatus ≤ given.toNat
  bounded : prepared.bytesRead ≤ length
  result : prepared.result = parsed.result
  bytesRead : prepared.bytesRead = parsed.bytesRead

private theorem viosndSubmitPreparedReadPcm_success {queue room : Bool}
    {streamId length packetNumber : ULONG} {io filled : Option ReadIo} {sg : List Descriptor}
    (h : viosndSubmitPreparedReadPcm queue room streamId length packetNumber io =
      (.success, filled, sg)) :
    ∃ audio header audioPa, filled = some audio ∧ audio.audioLength = length ∧
      sg = [header, ⟨audioPa, length + BitVec.ofNat 32 sizeofPcmStatus⟩] := by
  unfold viosndSubmitPreparedReadPcm at h
  by_cases hqueue : queue = false
  · simp [hqueue] at h
  rw [if_neg hqueue] at h
  cases io with
  | none => simp at h
  | some io =>
      rcases hrequest : io.requestVa with _ | requestVa
      · simp [hrequest] at h
      rcases haudio : io.audioVa with _ | audioVa
      · simp [hrequest, haudio] at h
      simp only [hrequest, haudio] at h
      by_cases hlarge : io.maxAudioLength < length
      · simp [hlarge] at h
      · simp only [if_neg hlarge, Prod.mk.injEq] at h
        obtain ⟨-, hfilled, hsg⟩ := h
        exact ⟨_, _, _, hfilled.symm, rfl, hsg.symm⟩

section

private theorem ulong_zero_le (x : ULONG) : 0 ≤ x := BitVec.le_def.mpr (Nat.zero_le _)

variable {io : ReadIo} {usedLength length : ULONG} {audioVa : Memory} {i : ReadInput}
  {buffer : Memory}

private theorem reclaim_short (hshort : usedLength < BitVec.ofNat 32 sizeofPcmStatus) :
    (viosndReclaimPreparedReadPcm true (some (io, usedLength)) audioVa).1 =
      ⟨.ioDeviceError, 0, 0, none⟩ := by
  simp [viosndReclaimPreparedReadPcm, hshort]

/-- The status of any other response is looked for at its reported end. -/
private theorem reclaim_statusAt (hlong : ¬ usedLength < BitVec.ofNat 32 sizeofPcmStatus) :
    (viosndReclaimPreparedReadPcm true (some (io, usedLength)) audioVa).1.statusAt =
      some (usedLength - BitVec.ofNat 32 sizeofPcmStatus).toNat := by
  simp [viosndReclaimPreparedReadPcm, hlong]

private theorem viosndReadPcm_reject (hqueue : i.queue = true) (hallocated : i.allocated = true)
    (hroom : i.room = true) (hwait : i.wait = .success)
    (hlength : i.usedLength < BitVec.ofNat 32 sizeofPcmStatus ∨
      length + BitVec.ofNat 32 sizeofPcmStatus < i.usedLength) :
    (viosndReadPcm i length buffer).1 = ⟨.ioDeviceError, 0, 0, none⟩ := by
  simp [viosndReadPcm, hqueue, hallocated, hroom, hwait, hlength]

/-- Within the response both routines read the same status and count the same bytes. -/
private theorem reclaim_viosndReadPcm (io : ReadIo) (i : ReadInput) (buffer : Memory)
    (hqueue : i.queue = true) (hallocated : i.allocated = true)
    (hroom : i.room = true) (hwait : i.wait = .success)
    (hlong : ¬ i.usedLength < BitVec.ofNat 32 sizeofPcmStatus)
    (hfit : i.usedLength ≤ io.audioLength + BitVec.ofNat 32 sizeofPcmStatus)
    (hstatus : loadStatus audioVa (i.usedLength - BitVec.ofNat 32 sizeofPcmStatus).toNat =
      loadStatus i.response (i.usedLength - BitVec.ofNat 32 sizeofPcmStatus).toNat) :
    (viosndReclaimPreparedReadPcm true (some (io, i.usedLength)) audioVa).1.result =
        (viosndReadPcm i io.audioLength buffer).1.result ∧
      (viosndReclaimPreparedReadPcm true (some (io, i.usedLength)) audioVa).1.bytesRead =
        (viosndReadPcm i io.audioLength buffer).1.bytesRead := by
  have hlength : ¬ (i.usedLength < BitVec.ofNat 32 sizeofPcmStatus ∨
      io.audioLength + BitVec.ofNat 32 sizeofPcmStatus < i.usedLength) :=
    not_or.mpr ⟨hlong, BitVec.not_lt.mpr hfit⟩
  have hmin : ∀ a b : ULONG, (if a < b then a else b) = if b < a then b else a := by
    intro a b
    simp only [BitVec.lt_def]
    split_ifs with hab hba hba
    · omega
    · rfl
    · rfl
    · exact BitVec.eq_of_toNat_eq (by omega)
  unfold viosndReclaimPreparedReadPcm viosndReadPcm
  simp only [hqueue, hallocated, hroom, hwait, NtStatus.isSuccess_false_iff, ne_eq,
    not_true_eq_false, Bool.true_eq_false, if_false, if_neg hlong, if_neg hlength, hstatus]
  generalize loadStatus i.response (i.usedLength - BitVec.ofNat 32 sizeofPcmStatus).toNat = status
  generalize i.usedLength - BitVec.ofNat 32 sizeofPcmStatus = audioBytes
  by_cases hok : status.status = statusOk
  · simp only [if_pos hok, NtStatus.isSuccess_iff, if_true, true_and]
    exact hmin io.audioLength audioBytes
  · simp only [if_neg hok, NtStatus.isSuccess_iff, reduceCtorEq, if_false, true_and]

private theorem reclaim_bytesRead_le :
    (viosndReclaimPreparedReadPcm true (some (io, usedLength)) audioVa).1.bytesRead ≤
      io.audioLength := by
  by_cases hshort : usedLength < BitVec.ofNat 32 sizeofPcmStatus
  · rw [reclaim_short hshort]
    exact ulong_zero_le _
  · simp only [viosndReclaimPreparedReadPcm, Bool.true_eq_false, if_false, if_neg hshort]
    generalize loadStatus audioVa (usedLength - BitVec.ofNat 32 sizeofPcmStatus).toNat = status
    by_cases hok : status.status = statusOk
    · simp only [if_pos hok, NtStatus.isSuccess_iff, if_true]
      split_ifs with hmore
      · exact BitVec.le_refl _
      · exact BitVec.not_lt.mp hmore
    · simp only [if_neg hok, NtStatus.isSuccess_iff, reduceCtorEq, if_false]
      exact ulong_zero_le _

end

/-- The parsers agree on the lengths that are too short for a status and on those that do not go
beyond what the device was given. -/
theorem viosndReclaimPreparedReadPcm_agrees_iff {room : Bool} {streamId length packetNumber : ULONG}
    {io : Option ReadIo} {audio : ReadIo} {header response : Descriptor}
    (hsubmit : viosndSubmitPreparedReadPcm true room streamId length packetNumber io =
      (.success, some audio, [header, response]))
    (usedLength : ULONG) (contents beyond beyond' buffer : Memory) :
    Agrees length response.length
        (viosndReclaimPreparedReadPcm true (some (audio, usedLength))
          (answered response.length contents beyond)).1
        (viosndReadPcm ⟨true, true, true, .success, usedLength,
          answered (length + BitVec.ofNat 32 sizeofPcmStatus) contents beyond'⟩ length buffer).1 ↔
      usedLength < BitVec.ofNat 32 sizeofPcmStatus ∨
        usedLength ≤ length + BitVec.ofNat 32 sizeofPcmStatus := by
  obtain ⟨filled, header', audioPa, hfilled, hlength, hsg⟩ :=
    viosndSubmitPreparedReadPcm_success hsubmit
  obtain rfl := Option.some.inj hfilled
  have hresponse : response = ⟨audioPa, length + BitVec.ofNat 32 sizeofPcmStatus⟩ := by
    simp only [List.cons.injEq, and_true] at hsg
    exact hsg.2
  subst hresponse
  dsimp only
  by_cases hshort : usedLength < BitVec.ofNat 32 sizeofPcmStatus
  · rw [reclaim_short hshort, viosndReadPcm_reject rfl rfl rfl rfl (Or.inl hshort)]
    have hagrees : Agrees length (length + BitVec.ofNat 32 sizeofPcmStatus)
        ⟨.ioDeviceError, 0, 0, none⟩ ⟨.ioDeviceError, 0, 0, none⟩ :=
      ⟨by simp, ulong_zero_le _, rfl, rfl⟩
    exact iff_of_true hagrees (Or.inl hshort)
  · have hlong : (BitVec.ofNat 32 sizeofPcmStatus).toNat ≤ usedLength.toNat :=
      BitVec.not_lt.mp hshort
    have hat : (usedLength - BitVec.ofNat 32 sizeofPcmStatus).toNat + sizeofPcmStatus =
        usedLength.toNat := by
      rw [BitVec.toNat_sub_of_le hlong]
      exact Nat.sub_add_cancel hlong
    constructor
    · intro h
      have hinside := h.inside _ (reclaim_statusAt hshort)
      rw [hat] at hinside
      exact Or.inr hinside
    · intro h
      have hfit := h.resolve_left hshort
      have hinside : (usedLength - BitVec.ofNat 32 sizeofPcmStatus).toNat + sizeofPcmStatus ≤
          (length + BitVec.ofNat 32 sizeofPcmStatus).toNat := by
        rw [hat]
        exact hfit
      have hsame := reclaim_viosndReadPcm audio ⟨true, true, true, .success, usedLength,
        answered (length + BitVec.ofNat 32 sizeofPcmStatus) contents beyond'⟩ buffer
        rfl rfl rfl rfl hshort (hlength.symm ▸ hfit)
        ((loadStatus_answered contents beyond hinside).trans
          (loadStatus_answered contents beyond' hinside).symm)
      rw [hlength] at hsame
      refine ⟨fun offset hoffset => ?_, ?_, hsame.1, hsame.2⟩
      · rw [reclaim_statusAt hshort] at hoffset
        obtain rfl := Option.some.inj hoffset
        exact hinside
      · exact hlength ▸ reclaim_bytesRead_le

/-- A submission of eight bytes whose response is reported to be as long as it can be. -/
theorem viosndReclaimPreparedReadPcm_agrees_iff_full :
    ∃ audio : ReadIo, ∃ response : Descriptor,
      Agrees 8 response.length
        (viosndReclaimPreparedReadPcm true (some (audio, 16))
          (answered response.length (fun _ => 0) fun _ => 1)).1
        (viosndReadPcm ⟨true, true, true, .success, 16,
          answered (8 + BitVec.ofNat 32 sizeofPcmStatus) (fun _ => 0) fun _ => 2⟩ 8
            fun _ => 0).1 :=
  have hsubmit : viosndSubmitPreparedReadPcm true true 0 8 0
      (some ⟨some fun _ => 0, 0, some fun _ => 0, 0, 64, 0, 0, 0⟩) = _ := rfl
  ⟨_, _, (viosndReclaimPreparedReadPcm_agrees_iff hsubmit 16 (fun _ => 0) (fun _ => 1) (fun _ => 2)
    fun _ => 0).mpr (by decide)⟩

/-- A device that reports 24 bytes for a response of 16 has its status read behind the response. -/
theorem viosndReclaimPreparedReadPcm_outside :
    ∃ (audio : ReadIo) (header response : Descriptor),
      viosndSubmitPreparedReadPcm true true 0 8 0
          (some ⟨some fun _ => 0, 0, some fun _ => 0, 0, 64, 0, 0, 0⟩) =
        (.success, some audio, [header, response]) ∧
      ¬ Agrees 8 response.length
        (viosndReclaimPreparedReadPcm true (some (audio, 24))
          (answered response.length (fun _ => 0) fun _ => 0)).1
        (viosndReadPcm ⟨true, true, true, .success, 24,
          answered (8 + BitVec.ofNat 32 sizeofPcmStatus) (fun _ => 0) fun _ => 0⟩ 8
            fun _ => 0).1 := by
  refine ⟨_, _, _, rfl, fun h => ?_⟩
  exact absurd (h.inside 16 rfl) (by decide)

/-- The stream's model of the routine sees of the response only its length and whether the status
is `VIRTIO_SND_S_OK`. -/
theorem viosndReclaimPreparedReadPcm_stream (io : ReadIo) (entry : RxEntry) (w : World) (k : ℕ)
    (usedLength : ULONG) (audioVa : Memory) (hentry : w.rxQueue[k]? = some entry)
    (hlength : io.audioLength = entry.audioLength) :
    let parsed := (viosndReclaimPreparedReadPcm true (some (io, usedLength)) audioVa).1
    let r := Capture.viosndReclaimPreparedReadPcm (.used k usedLength
      (decide ((loadStatus audioVa
        (usedLength - BitVec.ofNat 32 sizeofPcmStatus).toNat).status = statusOk)) audioVa) w
    parsed.result = r.1 ∧ parsed.bytesRead = r.2.2.1 := by
  by_cases hshort : usedLength < BitVec.ofNat 32 sizeofPcmStatus
  · rw [reclaim_short hshort]
    simp [Capture.viosndReclaimPreparedReadPcm, hentry, hshort]
  · simp only [viosndReclaimPreparedReadPcm, Capture.viosndReclaimPreparedReadPcm, hentry,
      Bool.true_eq_false, if_false, hshort, false_or, decide_eq_false_iff_not]
    generalize loadStatus audioVa (usedLength - BitVec.ofNat 32 sizeofPcmStatus).toNat = status
    by_cases hok : status.status = statusOk
    · simp [hok, hlength]
    · simp [hok]

end Viosnd.Capture.Response
