import Viosnd.Device.StreamPair
import Viosnd.Lib.Dialogue

/-!
# Requests

The requests of the WaveRT driver, byte by byte, and the routines that send them: a PCM command is
sent again while the answer is a zero or a bad-message status, and the query for the PCM infos while
the answer is empty.
-/

namespace Viosnd.Control

open Viosnd.Device

/-! ## Words in a buffer -/

def byteAt (bytes : List Byte) (offset : ℕ) : Byte := (bytes[offset]?).getD 0

/-- The `ULONG` at an offset, least significant byte first. -/
def ulongAt (bytes : List Byte) (offset : ℕ) : ULONG :=
  byteAt bytes (offset + 3) ++ byteAt bytes (offset + 2) ++ byteAt bytes (offset + 1) ++
    byteAt bytes offset

def ulonglongAt (bytes : List Byte) (offset : ℕ) : BitVec 64 :=
  ulongAt bytes (offset + 4) ++ ulongAt bytes offset

def ulongBytes (x : ULONG) : List Byte :=
  [x.setWidth 8, (x >>> 8).setWidth 8, (x >>> 16).setWidth 8, (x >>> 24).setWidth 8]

theorem ulongAt_ulongBytes (x : ULONG) (rest : List Byte) :
    ulongAt (ulongBytes x ++ rest) 0 = x := by
  change (((x >>> 24).setWidth 8 ++ (x >>> 16).setWidth 8 : BitVec 16) ++
    (x >>> 8).setWidth 8 : BitVec 24) ++ x.setWidth 8 = x
  apply BitVec.eq_of_getLsbD_eq
  intro i hi
  simp only [BitVec.getLsbD_append, BitVec.getLsbD_setWidth, BitVec.getLsbD_ushiftRight]
  split_ifs with h8 h16 h24
  · simp [h8]
  · have hindex : 8 + (i - 8) = i := by omega
    simp [hindex, h16]
  · have hindex : 16 + (i - 8 - 8) = i := by omega
    simp [hindex, h24]
  · have hindex : 24 + (i - 8 - 8 - 8) = i := by omega
    have hlt : i - 8 - 8 - 8 < 8 := by omega
    simp [hindex, hlt]

/-! ## The messages -/

/-- `VIRTIO_SND_S_OK`. -/
def sndOk : ULONG := 0x8000
/-- `VIRTIO_SND_S_BAD_MSG`. -/
def sndBadMsg : ULONG := 0x8001

/-- The request codes `VIRTIO_SND_R_PCM_…`. -/
def requestCode : PcmCommand → ULONG
  | .setParams => 0x101
  | .prepare => 0x102
  | .release => 0x103
  | .start => 0x104
  | .stop => 0x105

def pcmInfoRequest : ULONG := 0x100

def sizeofSndHdr : ℕ := 4
def sizeofPcmInfo : ℕ := 32

/-- `VIOSND_PCM_FORMAT`, the fields the parameters are made of. -/
structure PcmFormat where
  sampleRate : ULONG
  channels : Byte
  bufferBytes : ULONG
  periodBytes : ULONG
  deriving DecidableEq

def viosndGetDefaultPcmFormat : PcmFormat := ⟨defaultSampleRate, BitVec.ofNat 8 defaultChannels,
  defaultPeriodBytes * 16, defaultPeriodBytes⟩

def viosndGetFallbackPcmFormat : PcmFormat := { viosndGetDefaultPcmFormat with
  sampleRate := fallbackSampleRate
  periodBytes := fallbackPeriodBytes
  bufferBytes := fallbackPeriodBytes * 16 }

def viosndPcmRateFromSampleRate (sampleRate : ULONG) : Byte :=
  if sampleRate = 16000 then 3
  else if sampleRate = 44100 then 6
  else 7

/-- `VIRTIO_SND_PCM_HDR`. -/
def pcmHdr (command : PcmCommand) (streamId : ULONG) : List Byte :=
  ulongBytes (requestCode command) ++ ulongBytes streamId

/-- `VIRTIO_SND_PCM_SET_PARAMS`: no features, samples of 16 bits. -/
def viosndBuildSetParams (streamId : ULONG) (format : PcmFormat) : List Byte :=
  pcmHdr .setParams streamId ++ (ulongBytes format.bufferBytes ++ ulongBytes format.periodBytes ++
    ulongBytes 0 ++ [format.channels, 5, viosndPcmRateFromSampleRate format.sampleRate, 0])

/-- `VIRTIO_SND_QUERY_INFO`. -/
def queryInfo (count : ULONG) : List Byte :=
  ulongBytes pcmInfoRequest ++ (ulongBytes 0 ++ ulongBytes count ++
    ulongBytes (BitVec.ofNat 32 sizeofPcmInfo))

/-! ## PCM commands -/

/-- The arguments of `ViosndControlCommand`. -/
structure Question where
  request : List Byte
  responseLength : ℕ

/-- What `ViosndControlCommand` returns, with the response it has copied. -/
structure Answer where
  status : NtStatus
  response : List Byte

/-- `VIRTIO_SND_HDR.code` of the response. -/
def Answer.code (a : Answer) : ULONG := ulongAt a.response 0

abbrev Routine (ρ : Type) := Dialogue Question Answer ρ

def controlStatusRetryCount : ℕ := 4
def pcmBadMsgRetryCount : ℕ := 4

def viosndIsPcmStatusCommand (command : ULONG) : Bool :=
  command == requestCode .setParams || command == requestCode .prepare ||
    command == requestCode .start || command == requestCode .stop || command == requestCode .release

/-- Both `continue`s of the loop of `ViosndControlStatusCommandEx`. -/
def statusAgain (command : ULONG) (attempt : ℕ) (a : Answer) : Bool :=
  a.status.isSuccess && viosndIsPcmStatusCommand command && a.code != sndOk &&
    (a.code == 0 && decide (attempt + 1 < controlStatusRetryCount) ||
      a.code == sndBadMsg && decide (attempt + 1 < pcmBadMsgRetryCount))

/-- The way out of the loop, and what stands behind it. -/
def statusResult (command : ULONG) (a : Answer) : NtStatus :=
  if a.status.isSuccess = false then a.status
  else if a.code ≠ sndOk then
    -- a status that stays zero is accepted
    if a.code = 0 ∧ viosndIsPcmStatusCommand command then .success else .notSupported
  else .success

/-- `ViosndControlStatusCommandEx`, but for the code it also hands out. -/
def viosndControlStatusCommand (request : List Byte) : Routine NtStatus :=
  let command := ulongAt request 0
  (Dialogue.attempts ⟨request, sizeofSndHdr⟩ (statusAgain command) controlStatusRetryCount 0
    ⟨.success, []⟩).bind fun a => .done (statusResult command a)

def viosndPcmCommand (streamId : ULONG) (command : PcmCommand) : Routine NtStatus :=
  viosndControlStatusCommand (pcmHdr command streamId)

def viosndConfigurePcmFormat (streamId : ULONG) (format : PcmFormat) : Routine NtStatus :=
  (viosndControlStatusCommand (viosndBuildSetParams streamId format)).bind fun status =>
    if status.isSuccess = false then .done status
    else viosndControlStatusCommand (pcmHdr .prepare streamId)

def viosndConfigureDefaultPcm (streamId : ULONG) : Routine NtStatus :=
  viosndConfigurePcmFormat streamId viosndGetDefaultPcmFormat

def viosndConfigureFallbackPcm (streamId : ULONG) : Routine NtStatus :=
  viosndConfigurePcmFormat streamId viosndGetFallbackPcmFormat

/-! ## The query -/

def maxPcmStreams : ULONG := 64
def pcmInfoRetryCount : ℕ := 8

/-- A `VIRTIO_SND_PCM_INFO` with the field that the choice of the streams does not read. -/
structure PcmInfoRecord extends PcmInfo where
  features : ULONG

/-- The record in the 32 bytes from an offset on. -/
def pcmInfoAt (bytes : List Byte) (offset : ℕ) : PcmInfoRecord where
  features := ulongAt bytes (offset + 4)
  formats := ulonglongAt bytes (offset + 8)
  rates := ulonglongAt bytes (offset + 16)
  direction := byteAt bytes (offset + 24)
  channelsMin := byteAt bytes (offset + 25)
  channelsMax := byteAt bytes (offset + 26)

def pcmInfosAt (bytes : List Byte) (offset : ℕ) (count : ULONG) : List PcmInfoRecord :=
  (List.range count.toNat).map fun i => pcmInfoAt bytes (offset + i * sizeofPcmInfo)

def viosndPcmInfoLooksEmpty (infos : List PcmInfoRecord) : Bool :=
  infos.all fun info => info.direction == 0 && info.channelsMin == 0 && info.channelsMax == 0 &&
    info.formats == 0 && info.rates == 0 && info.features == 0

def streamInfosAt (bytes : List Byte) (offset : ℕ) (count : ULONG) : PcmInfos where
  infos := (pcmInfosAt bytes offset count).map PcmInfoRecord.toPcmInfo
  count_lt := by
    simp only [pcmInfosAt, List.length_map, List.length_range]
    exact count.isLt

def queryAgain (count : ULONG) (attempt : ℕ) (a : Answer) : Bool :=
  a.status.isSuccess && (a.code == 0 || a.code == sndOk &&
    viosndPcmInfoLooksEmpty (pcmInfosAt a.response sizeofSndHdr count)) &&
      decide (attempt + 1 < pcmInfoRetryCount)

/-- The status of a query, and the pair where one was looked for. -/
def queryResult (count : ULONG) (a : Answer) : NtStatus × Option StreamPair :=
  if a.status.isSuccess = false then (a.status, none)
  else if a.code = sndOk then
    let found := viosndFindStreamPair (streamInfosAt a.response sizeofSndHdr count)
    (found.1, some found.2)
  else (.notSupported, none)

def queryLength (count : ULONG) : ℕ := sizeofSndHdr + count.toNat * sizeofPcmInfo

/-- `min(Device->Config.streams, VIOSND_MAX_PCM_STREAMS)`. -/
def queryCount (streams : ULONG) : ULONG :=
  if streams < maxPcmStreams then streams else maxPcmStreams

/-- `streams` is the number in the configuration of the device, `allocated` whether there is memory
for the response. -/
def viosndQueryPcmStreams (streams : ULONG) (allocated : Bool) :
    Routine (NtStatus × Option StreamPair) :=
  let count := queryCount streams
  if count = 0 then .done (.notFound, none)
  else if allocated = false then .done (.insufficientResources, none)
  else (Dialogue.attempts ⟨queryInfo count, queryLength count⟩ (queryAgain count) pcmInfoRetryCount
    0 ⟨.success, []⟩).bind fun a => .done (queryResult count a)

/-! ## What a routine has been answered -/

/-- The answers to a PCM command that was accepted: a zero or a bad-message status up to the last,
which is `VIRTIO_SND_S_OK`, or zero when no attempt is left. -/
structure Accepted (answers : List Answer) : Prop where
  success : ∀ a ∈ answers, a.status = .success
  earlier : ∀ a ∈ answers.dropLast, a.code = 0 ∨ a.code = sndBadMsg
  last : ∃ a ∈ answers.getLast?, a.code = sndOk ∨
    a.code = 0 ∧ answers.length = controlStatusRetryCount

def repeated (request : List Byte) (responseLength : ℕ) (answers : List Answer) :
    List (Question × Answer) :=
  answers.map (⟨request, responseLength⟩, ·)

section

variable {log : List (Question × Answer)} {command : ULONG} {a : Answer} {attempt : ℕ}
  {request : List Byte}

private theorem statusAgain_iff : statusAgain command attempt a = true ↔ a.status = .success ∧
    viosndIsPcmStatusCommand command = true ∧ (a.code = 0 ∨ a.code = sndBadMsg) ∧
      attempt + 1 < controlStatusRetryCount := by
  unfold statusAgain
  simp only [Bool.and_eq_true, Bool.or_eq_true, NtStatus.isSuccess_iff, beq_iff_eq, bne_iff_ne,
    decide_eq_true_eq]
  constructor
  · rintro ⟨⟨⟨hstatus, hpcm⟩, -⟩, ⟨hzero, hmore⟩ | ⟨hbad, hmore⟩⟩
    · exact ⟨hstatus, hpcm, Or.inl hzero, hmore⟩
    · exact ⟨hstatus, hpcm, Or.inr hbad, hmore⟩
  · rintro ⟨hstatus, hpcm, hzero | hbad, hmore⟩
    · exact ⟨⟨⟨hstatus, hpcm⟩, by rw [hzero]; decide⟩, Or.inl ⟨hzero, hmore⟩⟩
    · exact ⟨⟨⟨hstatus, hpcm⟩, by rw [hbad]; decide⟩, Or.inr ⟨hbad, hmore⟩⟩

private theorem statusResult_success_iff (hpcm : viosndIsPcmStatusCommand command = true) :
    statusResult command a = .success ↔
      a.status = .success ∧ (a.code = sndOk ∨ a.code = 0) := by
  unfold statusResult
  by_cases hstatus : a.status = .success
  · by_cases hok : a.code = sndOk
    · simp [hstatus, hok]
    · by_cases hzero : a.code = 0
      · simp [hstatus, hpcm, hzero, sndOk]
      · have hother : a.code ≠ 0#32 := hzero
        simp [hstatus, hok, hother]
  · simp [hstatus]

/-- A command of a PCM stream succeeds when it was accepted within four attempts. -/
private theorem controlStatusCommand_spec {status : NtStatus}
    (hpcm : viosndIsPcmStatusCommand (ulongAt request 0) = true)
    (h : (viosndControlStatusCommand request).After log (.done status)) :
    ∃ answers, log = repeated request sizeofSndHdr answers ∧
      answers.length ≤ controlStatusRetryCount ∧ (status = .success ↔ Accepted answers) := by
  obtain ⟨first, a, second, rfl, hattempts, hdone⟩ := h.of_bind
  obtain ⟨rfl, rfl⟩ := Dialogue.after_done_iff.mp hdone
  obtain ⟨earlier, rfl, hlength, hearlier, hlast⟩ := hattempts.of_attempts
  have hcount : (earlier ++ [a]).length ≤ controlStatusRetryCount := by
    rw [List.length_append]
    exact Nat.succ_le_succ hlength
  refine ⟨earlier ++ [a], List.append_nil _, hcount, ?_⟩
  rw [statusResult_success_iff hpcm]
  have hgood : ∀ e ∈ earlier, e.status = .success ∧ (e.code = 0 ∨ e.code = sndBadMsg) := by
    intro e he
    obtain ⟨i, hi, rfl⟩ := List.getElem_of_mem he
    obtain ⟨hstatus, -, hcode, -⟩ := statusAgain_iff.mp (hearlier i hi)
    exact ⟨hstatus, hcode⟩
  constructor
  · intro hsuccess
    obtain ⟨hstatus, hcode⟩ := hsuccess
    refine ⟨?_, ?_, a, List.getLast?_concat, ?_⟩
    · intro e he
      rcases List.mem_append.mp he with hold | hnew
      · exact (hgood e hold).1
      · rw [List.mem_singleton.mp hnew]
        exact hstatus
    · rw [List.dropLast_concat]
      exact fun e he => (hgood e he).2
    · apply hcode.imp_right
      intro hzero
      refine ⟨hzero, ?_⟩
      rw [List.length_append, List.length_singleton]
      -- a zero status ends the loop with the last attempt only
      by_contra hless
      have hmore : 0 + earlier.length + 1 < controlStatusRetryCount := by
        simp only [controlStatusRetryCount] at hlength hless ⊢
        omega
      have hall := hlast (statusAgain_iff.mpr ⟨hstatus, hpcm, Or.inl hzero, hmore⟩)
      exact hless (congrArg (· + 1) hall)
  · intro haccepted
    obtain ⟨e, he, hcode⟩ := haccepted.last
    rw [List.getLast?_concat, Option.mem_some_iff] at he
    rw [he]
    exact ⟨haccepted.success e (by simp [he]), hcode.imp_right And.left⟩

private theorem ulongAt_pcmHdr (pcm : PcmCommand) (streamId : ULONG) :
    ulongAt (pcmHdr pcm streamId) 0 = requestCode pcm := ulongAt_ulongBytes _ _

private theorem isPcmStatusCommand_requestCode (pcm : PcmCommand) :
    viosndIsPcmStatusCommand (requestCode pcm) = true := by
  cases pcm <;> rfl

theorem pcmCommand_spec {streamId : ULONG} {pcm : PcmCommand} {status : NtStatus}
    (h : (viosndPcmCommand streamId pcm).After log (.done status)) :
    ∃ answers, log = repeated (pcmHdr pcm streamId) sizeofSndHdr answers ∧
      answers.length ≤ controlStatusRetryCount ∧ (status = .success ↔ Accepted answers) := by
  apply controlStatusCommand_spec _ h
  rw [ulongAt_pcmHdr]
  exact isPcmStatusCommand_requestCode pcm

/-- The parameters come first: the stream is prepared only when they were accepted. -/
theorem configurePcmFormat_spec {streamId : ULONG} {format : PcmFormat} {status : NtStatus}
    (h : (viosndConfigurePcmFormat streamId format).After log (.done status)) :
    ∃ first second, log = repeated (viosndBuildSetParams streamId format) sizeofSndHdr first ++
        repeated (pcmHdr .prepare streamId) sizeofSndHdr second ∧
      first.length ≤ controlStatusRetryCount ∧ second.length ≤ controlStatusRetryCount ∧
      (second ≠ [] → Accepted first) ∧
      (status = .success ↔ Accepted first ∧ Accepted second) := by
  obtain ⟨_, middle, _, rfl, hparams, hprepare⟩ := h.of_bind
  have hcode : ulongAt (viosndBuildSetParams streamId format) 0 = requestCode .setParams := by
    unfold viosndBuildSetParams pcmHdr
    rw [List.append_assoc]
    exact ulongAt_ulongBytes _ _
  have hpcm : viosndIsPcmStatusCommand (ulongAt (viosndBuildSetParams streamId format) 0) =
      true := by
    rw [hcode]
    exact isPcmStatusCommand_requestCode _
  obtain ⟨first, rfl, hfirst, hmiddle⟩ := controlStatusCommand_spec hpcm hparams
  by_cases hsuccess : middle = .success
  · rw [if_neg (by simp [hsuccess])] at hprepare
    obtain ⟨second, rfl, hsecond, hstatus⟩ := pcmCommand_spec hprepare
    have haccepted := hmiddle.mp hsuccess
    exact ⟨first, second, rfl, hfirst, hsecond, fun _ => haccepted,
      hstatus.trans (and_iff_right haccepted).symm⟩
  · rw [if_pos (by simpa using hsuccess)] at hprepare
    obtain ⟨rfl, rfl⟩ := Dialogue.after_done_iff.mp hprepare
    refine ⟨first, [], rfl, hfirst, Nat.zero_le _, fun h => absurd rfl h, ?_⟩
    rw [hmiddle]
    constructor
    · intro haccepted
      exact absurd (hmiddle.mpr haccepted) hsuccess
    · intro haccepted
      exact haccepted.1

private theorem queryAgain_iff {count : ULONG} :
    queryAgain count attempt a = true ↔ a.status = .success ∧
    (a.code = 0 ∨ a.code = sndOk ∧
      viosndPcmInfoLooksEmpty (pcmInfosAt a.response sizeofSndHdr count) = true) ∧
      attempt + 1 < pcmInfoRetryCount := by
  simp [queryAgain, and_assoc]

/-- The pair that a query ends with was chosen from the infos of its last answer; every answer
before that had none. -/
theorem queryPcmStreams_spec {streams : ULONG} {allocated : Bool} {status : NtStatus}
    {pair : Option StreamPair}
    (h : (viosndQueryPcmStreams streams allocated).After log (.done (status, pair))) :
    ∃ answers, log = repeated (queryInfo (queryCount streams)) (queryLength (queryCount streams))
        answers ∧
      answers.length ≤ pcmInfoRetryCount ∧
      (∀ a ∈ answers.dropLast, a.status = .success ∧ (a.code = 0 ∨ a.code = sndOk ∧
        viosndPcmInfoLooksEmpty (pcmInfosAt a.response sizeofSndHdr (queryCount streams)))) ∧
      (status = .success → ∃ a ∈ answers.getLast?, a.status = .success ∧ a.code = sndOk ∧
        viosndFindStreamPair (streamInfosAt a.response sizeofSndHdr (queryCount streams)) =
          (.success, pair.getD ⟨0, 0, false, false⟩)) := by
  unfold viosndQueryPcmStreams at h
  dsimp only at h
  split at h
  · obtain ⟨rfl, hresult⟩ := Dialogue.after_done_iff.mp h
    exact ⟨[], rfl, Nat.zero_le _, by simp, fun hs => by simp [hs] at hresult⟩
  split at h
  · obtain ⟨rfl, hresult⟩ := Dialogue.after_done_iff.mp h
    exact ⟨[], rfl, Nat.zero_le _, by simp, fun hs => by simp [hs] at hresult⟩
  obtain ⟨_, a, _, rfl, hattempts, hdone⟩ := h.of_bind
  obtain ⟨rfl, hresult⟩ := Dialogue.after_done_iff.mp hdone
  obtain ⟨earlier, rfl, hlength, hearlier, -⟩ := hattempts.of_attempts
  have hcount : (earlier ++ [a]).length ≤ pcmInfoRetryCount := by
    rw [List.length_append]
    exact Nat.succ_le_succ hlength
  refine ⟨earlier ++ [a], List.append_nil _, hcount, ?_, ?_⟩
  · rw [List.dropLast_concat]
    intro e he
    obtain ⟨i, hi, rfl⟩ := List.getElem_of_mem he
    obtain ⟨hstatus, hempty, -⟩ := queryAgain_iff.mp (hearlier i hi)
    exact ⟨hstatus, hempty⟩
  · intro hsuccess
    unfold queryResult at hresult
    split_ifs at hresult with hfailed hok
    · simp only [NtStatus.isSuccess_false_iff] at hfailed
      exact absurd ((Prod.mk.inj hresult).1.symm.trans hsuccess) hfailed
    · obtain ⟨hfound, hpair⟩ := Prod.mk.inj hresult
      refine ⟨a, List.getLast?_concat, by simpa using hfailed, hok, ?_⟩
      rw [hpair, Option.getD_some, ← hsuccess, hfound]
    · have hnot := (Prod.mk.inj hresult).1.symm.trans hsuccess
      cases hnot

end

end Viosnd.Control
