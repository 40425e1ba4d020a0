import Viosnd.Control.Requests

/-!
# The query of the ACX driver

The device packs the header and the PCM infos. `ViosndQueryPcmInfo` reads the infos through a
structure whose array starts at offset 8, because an info holds 64-bit words, and so sees every info
shifted by four bytes. The WaveRT driver reads them where they are.
-/

namespace Viosnd.Acx

open Viosnd.Control Viosnd.Device

/-- The offset of `Info` in `_PCM_INFO_RESPONSE`. -/
def responseInfoOffset : ℕ := 8

/-- `ViosndQueryPcmInfo` and `ViosndAcxQueryPcmStreams` behind the control command; `behind` is the
memory behind the response. -/
def acxQueryResult (behind : List Byte) (streams : ULONG) (a : Answer) :
    NtStatus × Option StreamPair :=
  if a.status.isSuccess = false then (a.status, none)
  else if a.code ≠ sndOk then (.ioDeviceError, none)
  else
    let found :=
      viosndFindStreamPair (streamInfosAt (a.response ++ behind) responseInfoOffset streams)
    (found.1, some found.2)

/-- `ViosndAcxQueryPcmStreams`: one attempt. -/
def viosndAcxQueryPcmStreams (behind : List Byte) (streams : ULONG) (allocated : Bool) :
    Routine (NtStatus × Option StreamPair) :=
  if streams = 0 ∨ maxPcmStreams < streams then .done (.notFound, none)
  else if allocated = false then .done (.insufficientResources, none)
  else .ask ⟨queryInfo streams, queryLength streams⟩ fun a =>
    .done (acxQueryResult behind streams a)

/-! ## What the device writes -/

def ulonglongBytes (x : BitVec 64) : List Byte :=
  ulongBytes (x.setWidth 32) ++ ulongBytes ((x >>> 32).setWidth 32)

/-- `VIRTIO_SND_PCM_INFO` as the device writes it: the padding is zero. -/
def infoBytes (hdaFnNid : ULONG) (info : PcmInfoRecord) : List Byte :=
  ulongBytes hdaFnNid ++ ulongBytes info.features ++ ulonglongBytes info.formats ++
    ulonglongBytes info.rates ++
    [info.direction, info.channelsMin, info.channelsMax, 0, 0, 0, 0, 0]

/-- A response without an error: each info with its node. -/
def responseBytes (infos : List (ULONG × PcmInfoRecord)) : List Byte :=
  ulongBytes sndOk ++ infos.flatMap fun i => infoBytes i.1 i.2

section

variable {infos : List (ULONG × PcmInfoRecord)} {i k : ℕ}

private theorem infoBytes_length (hdaFnNid : ULONG) (info : PcmInfoRecord) :
    (infoBytes hdaFnNid info).length = sizeofPcmInfo := rfl

private theorem byteAt_flatMap (hi : i < infos.length) (hk : k < sizeofPcmInfo) :
    byteAt (infos.flatMap fun i => infoBytes i.1 i.2) (i * sizeofPcmInfo + k) =
      byteAt (infoBytes infos[i].1 infos[i].2) k := by
  induction infos generalizing i with
  | nil => exact absurd hi (Nat.not_lt_zero i)
  | cons info rest ih =>
      unfold byteAt at ih ⊢
      rw [List.flatMap_cons]
      cases i with
      | zero =>
          rw [Nat.zero_mul, Nat.zero_add, List.getElem?_append_left]
          · rfl
          · rw [infoBytes_length]
            exact hk
      | succ i =>
          rw [Nat.succ_mul, Nat.add_right_comm, List.getElem?_append_right]
          · rw [infoBytes_length, Nat.add_sub_cancel]
            exact ih (Nat.lt_of_succ_lt_succ hi)
          · rw [infoBytes_length]
            exact Nat.le_add_left _ _

private theorem byteAt_response (hi : i < infos.length) (hk : k < sizeofPcmInfo)
    (behind : List Byte) :
    byteAt (responseBytes infos ++ behind) (sizeofSndHdr + i * sizeofPcmInfo + k) =
      byteAt (infoBytes infos[i].1 infos[i].2) k := by
  rw [← byteAt_flatMap hi hk, Nat.add_assoc]
  have hlength : (infos.flatMap fun i => infoBytes i.1 i.2).length =
      infos.length * sizeofPcmInfo := by
    rw [List.length_flatMap]
    simp [infoBytes_length]
  have hinside : i * sizeofPcmInfo + k < infos.length * sizeofPcmInfo := by
    simp only [sizeofPcmInfo] at hk ⊢
    omega
  unfold byteAt responseBytes
  rw [List.append_assoc, List.getElem?_append_right]
  · rw [List.getElem?_append_left]
    · congr 2
      exact Nat.add_sub_cancel_left _ _
    · rw [hlength]
      change sizeofSndHdr + (i * sizeofPcmInfo + k) - sizeofSndHdr < _
      rw [Nat.add_sub_cancel_left]
      exact hinside
  · exact Nat.le_add_right _ _

/-! ## What the drivers read -/

private theorem pcmInfoAt_congr {bytes other : List Byte} {offset : ℕ}
    (h : ∀ k < sizeofPcmInfo, byteAt bytes (offset + k) = byteAt other k) :
    pcmInfoAt bytes offset = pcmInfoAt other 0 := by
  have hword : ∀ k, k + 3 < sizeofPcmInfo → ulongAt bytes (offset + k) = ulongAt other k := by
    intro k hk
    unfold ulongAt
    rw [Nat.add_assoc offset k 3, Nat.add_assoc offset k 2, Nat.add_assoc offset k 1, h _ hk,
      h (k + 2) (by omega), h (k + 1) (by omega), h k (by omega)]
  unfold pcmInfoAt ulonglongAt
  simp only [Nat.add_assoc, Nat.zero_add]
  rw [hword 4 (by decide), hword 8 (by decide), hword (8 + 4) (by decide), hword 16 (by decide),
    hword (16 + 4) (by decide), h 24 (by decide), h 25 (by decide), h 26 (by decide)]

private theorem ulonglong_append (x : BitVec 64) :
    (x >>> 32).setWidth 32 ++ x.setWidth 32 = x := by
  apply BitVec.eq_of_getLsbD_eq
  intro i hi
  rw [BitVec.getLsbD_append, BitVec.getLsbD_setWidth, BitVec.getLsbD_setWidth,
    BitVec.getLsbD_ushiftRight]
  split_ifs with hlow
  · simp [hlow]
  · have hindex : 32 + (i - 32) = i := by omega
    have hhigh : i - 32 < 32 := by omega
    simp [hindex, hhigh]

private theorem ulongAt_append (before : List Byte) (x : ULONG) (after : List Byte) :
    ulongAt (before ++ (ulongBytes x ++ after)) before.length = x := by
  have hbyte : ∀ k, byteAt (before ++ (ulongBytes x ++ after)) (before.length + k) =
      byteAt (ulongBytes x ++ after) k := by
    intro k
    unfold byteAt
    rw [List.getElem?_append_right (Nat.le_add_right _ _), Nat.add_sub_cancel_left]
  calc ulongAt (before ++ (ulongBytes x ++ after)) before.length
      = ulongAt (ulongBytes x ++ after) 0 := by
        unfold ulongAt
        rw [hbyte 3, hbyte 2, hbyte 1, ← hbyte 0]
        rfl
    _ = x := ulongAt_ulongBytes x after

private theorem ulonglongAt_append (before : List Byte) (x : BitVec 64) (after : List Byte) :
    ulonglongAt (before ++ (ulonglongBytes x ++ after)) before.length = x := by
  have hlow := ulongAt_append before (x.setWidth 32) (ulongBytes ((x >>> 32).setWidth 32) ++ after)
  have hhigh := ulongAt_append (before ++ ulongBytes (x.setWidth 32)) ((x >>> 32).setWidth 32) after
  rw [← List.append_assoc (ulongBytes _)] at hlow
  rw [List.append_assoc, ← List.append_assoc (ulongBytes _), List.length_append] at hhigh
  have hhigh' : ulongAt (before ++ (ulonglongBytes x ++ after)) (before.length + 4) =
      (x >>> 32).setWidth 32 := hhigh
  have hlow' : ulongAt (before ++ (ulonglongBytes x ++ after)) before.length =
      x.setWidth 32 := hlow
  unfold ulonglongAt
  rw [hlow', hhigh']
  exact ulonglong_append x

private theorem pcmInfoAt_infoBytes (hdaFnNid : ULONG) (info : PcmInfoRecord) :
    pcmInfoAt (infoBytes hdaFnNid info) 0 = info := by
  have hfeatures : ulongAt (infoBytes hdaFnNid info) 4 = info.features :=
    ulongAt_append (ulongBytes hdaFnNid) info.features _
  have hformats : ulonglongAt (infoBytes hdaFnNid info) 8 = info.formats :=
    ulonglongAt_append (ulongBytes hdaFnNid ++ ulongBytes info.features) info.formats _
  have hrates : ulonglongAt (infoBytes hdaFnNid info) 16 = info.rates :=
    ulonglongAt_append (ulongBytes hdaFnNid ++ ulongBytes info.features ++
      ulonglongBytes info.formats) info.rates _
  unfold pcmInfoAt
  simp only [Nat.zero_add]
  rw [hfeatures, hformats, hrates]
  rfl

private theorem pcmInfosAt_response (count : ULONG) (hcount : count.toNat = infos.length) :
    pcmInfosAt (responseBytes infos) sizeofSndHdr count = infos.map Prod.snd := by
  apply List.ext_getElem
  · simp [pcmInfosAt, hcount]
  · intro i hi hi'
    have hlt : i < infos.length := by simpa using hi'
    simp only [pcmInfosAt, List.getElem_map, List.getElem_range]
    rw [← List.append_nil (responseBytes infos),
      pcmInfoAt_congr fun k hk => byteAt_response hlt hk [], pcmInfoAt_infoBytes]

/-- The ACX driver reads the padding of an info for its direction and its channels. -/
private theorem shiftedInfo (behind : List Byte) {info : PcmInfo} (count : ULONG)
    (hcount : count.toNat = infos.length)
    (hinfo : info ∈
      (streamInfosAt (responseBytes infos ++ behind) responseInfoOffset count).infos) :
    info.direction = dOutput ∧ info.channelsMax = 0 := by
  simp only [streamInfosAt, pcmInfosAt, List.map_map, List.mem_map, List.mem_range] at hinfo
  obtain ⟨i, hi, rfl⟩ := hinfo
  rw [hcount] at hi
  have hdirection := byteAt_response hi (k := 28) (by decide) behind
  have hchannels := byteAt_response hi (k := 30) (by decide) behind
  have hoffset : ∀ k, responseInfoOffset + i * sizeofPcmInfo + k =
      sizeofSndHdr + i * sizeofPcmInfo + (k + 4) := by
    intro k
    simp only [responseInfoOffset, sizeofSndHdr]
    omega
  constructor
  · change byteAt _ (responseInfoOffset + i * sizeofPcmInfo + 24) = _
    rw [hoffset, hdirection]
    rfl
  · change byteAt _ (responseInfoOffset + i * sizeofPcmInfo + 26) = _
    rw [hoffset, hchannels]
    rfl

private theorem streamInfosAt_length (bytes : List Byte) (offset : ℕ) (count : ULONG) :
    (streamInfosAt bytes offset count).infos.length = count.toNat := by
  simp [streamInfosAt, pcmInfosAt]

end

/-! ## The choice -/

/-- The first stream renders, and the second, if there is one, captures. -/
def firstStreams (count : ℕ) : StreamPair :=
  StreamPair.choose (some 0) (if 1 < count then some 1 else none)

/-- Streams that all look like outputs without a channel. -/
private theorem choiceResult_outputs {infos : List PcmInfo} (hne : infos ≠ [])
    (hall : ∀ info ∈ infos, info.direction = dOutput ∧ info.channelsMax = 0) :
    choiceResult infos = (.success, firstStreams infos.length) := by
  have hunsuitable : ∀ info ∈ infos, viosndPcmInfoSupportsDefaultFormat info = false := by
    intro info hinfo
    simp [viosndPcmInfoSupportsDefaultFormat, (hall info hinfo).2, defaultChannels]
  have hsuitableOutput : infos.findIdx? suitableOutput = none := by
    rw [List.findIdx?_eq_none_iff]
    intro info hinfo
    simp [suitableOutput, hunsuitable info hinfo]
  have hsuitableInput : infos.findIdx? suitableInput = none := by
    rw [List.findIdx?_eq_none_iff]
    intro info hinfo
    simp [suitableInput, hunsuitable info hinfo]
  have hinput : infos.findIdx? isInput = none := by
    rw [List.findIdx?_eq_none_iff]
    intro info hinfo
    apply not_isInput_of_isOutput
    simp [isOutput, (hall info hinfo).1]
  have houtput : infos.findIdx? isOutput = some 0 := by
    obtain ⟨info, rest, rfl⟩ := List.exists_cons_of_ne_nil hne
    rw [List.findIdx?_cons, if_pos]
    simp [isOutput, (hall info List.mem_cons_self).1]
  have hrender : renderChoice infos = some 0 := by
    unfold renderChoice
    rw [hsuitableOutput, houtput]
    rfl
  have hcapture : captureChoice infos = if 1 < infos.length then some 1 else none := by
    unfold captureChoice
    rw [hsuitableInput, hinput, hrender, Option.none_or, Option.none_or]
    split_ifs with hmany
    · obtain ⟨n, hn⟩ := Nat.exists_eq_add_of_lt hmany
      rw [hn, Nat.add_comm 1 n, List.range_succ_eq_map, List.find?_cons_of_neg (by simp),
        List.range_succ_eq_map, List.map_cons, List.find?_cons_of_pos (by simp)]
    · rfl
  unfold choiceResult
  rw [hrender, hcapture]
  rfl

private theorem choiceResult_eq_iff {infos : List PcmInfo} (hshort : infos.length < 2 ^ 32)
    (count : ℕ) :
    choiceResult infos = (.success, firstStreams count) ↔ renderChoice infos = some 0 ∧
      captureChoice infos = if 1 < count then some 1 else none := by
  constructor
  · intro h
    have hpair := (Prod.mk.inj h).2
    have hrender := congrArg StreamPair.render hpair
    have hcapture := congrArg StreamPair.capture hpair
    unfold firstStreams at hrender hcapture
    rw [choose_render fun i hi => Nat.lt_trans (renderChoice_lt hi) hshort,
      choose_render fun i hi => by simp at hi; omega] at hrender
    rw [choose_capture fun i hi => Nat.lt_trans (captureChoice_lt hi) hshort,
      choose_capture fun i hi => by split_ifs at hi; simp at hi; omega] at hcapture
    exact ⟨hrender, hcapture⟩
  · intro h
    unfold choiceResult
    rw [h.1, h.2]
    rfl

/-! ## One answer, two drivers -/

private theorem maxPcmStreams_toNat : maxPcmStreams.toNat = 64 := rfl

private theorem queryCount_eq {streams : ULONG} (hmost : streams.toNat ≤ 64) :
    queryCount streams = streams := by
  unfold queryCount
  split_ifs with hless
  · rfl
  · apply BitVec.eq_of_toNat_eq
    rw [BitVec.lt_def, maxPcmStreams_toNat] at hless
    rw [maxPcmStreams_toNat]
    omega

section

variable {infos : List (ULONG × PcmInfoRecord)} {streams : ULONG}

private theorem responseBytes_code : Answer.code ⟨.success, responseBytes infos⟩ = sndOk :=
  ulongAt_ulongBytes _ _

private theorem queryResult_response (hlength : streams.toNat = infos.length) :
    queryResult streams ⟨.success, responseBytes infos⟩ =
      ((choiceResult (infos.map fun i => i.2.toPcmInfo)).1,
        some (choiceResult (infos.map fun i => i.2.toPcmInfo)).2) := by
  have hinfos : (streamInfosAt (responseBytes infos) sizeofSndHdr streams).infos =
      infos.map fun i => i.2.toPcmInfo := by
    change (pcmInfosAt _ _ _).map _ = _
    rw [pcmInfosAt_response streams hlength, List.map_map]
    rfl
  unfold queryResult
  rw [if_neg (by simp), if_pos responseBytes_code, viosndFindStreamPair, findStreamPair_eq, hinfos]

/-- The ACX driver takes the first two streams. -/
private theorem acxQueryResult_response (behind : List Byte)
    (hlength : streams.toNat = infos.length) (hpos : 0 < infos.length) :
    acxQueryResult behind streams ⟨.success, responseBytes infos⟩ =
      (.success, some (firstStreams infos.length)) := by
  have hcount := streamInfosAt_length (responseBytes infos ++ behind) responseInfoOffset streams
  have hne : (streamInfosAt (responseBytes infos ++ behind) responseInfoOffset streams).infos ≠
      [] := by
    apply List.ne_nil_of_length_pos
    rw [hcount, hlength]
    exact hpos
  have hchoice := choiceResult_outputs hne
    fun info hinfo => shiftedInfo behind streams hlength hinfo
  rw [hcount, hlength] at hchoice
  unfold acxQueryResult
  rw [if_neg (by simp), if_neg (not_not.mpr responseBytes_code), viosndFindStreamPair,
    findStreamPair_eq, hchoice]

/-- Both drivers ask the device the same. An answer with infos of any kind makes the ACX driver take
the first two streams. The WaveRT driver asks again when the infos look empty; otherwise it chooses
among them as the device reported them, so the two agree when that choice comes to the first two
streams. -/
theorem query_both (behind : List Byte) (streams : ULONG) (infos : List (ULONG × PcmInfoRecord))
    (hlength : streams.toNat = infos.length) (hmost : streams.toNat ≤ 64)
    (hpos : 0 < infos.length) :
    let log := [((⟨queryInfo streams, queryLength streams⟩ : Question),
      (⟨.success, responseBytes infos⟩ : Answer))]
    let reported := infos.map fun i => i.2.toPcmInfo
    (viosndPcmInfoLooksEmpty (infos.map Prod.snd) = false →
      (viosndQueryPcmStreams streams true).After log
        (.done ((choiceResult reported).1, some (choiceResult reported).2))) ∧
      (viosndAcxQueryPcmStreams behind streams true).After log
        (.done (.success, some (firstStreams infos.length))) ∧
      (choiceResult reported = (.success, firstStreams infos.length) ↔
        renderChoice reported = some 0 ∧
          captureChoice reported = if 1 < infos.length then some 1 else none) := by
  have hzero : streams ≠ 0 := by
    intro hnone
    rw [← hlength, hnone] at hpos
    exact Nat.lt_irrefl 0 hpos
  refine ⟨?_, ?_, ?_⟩
  · intro hfull
    have hagain : queryAgain streams 0 ⟨.success, responseBytes infos⟩ = false := by
      unfold queryAgain
      rw [responseBytes_code, pcmInfosAt_response streams hlength, hfull]
      rfl
    unfold viosndQueryPcmStreams
    dsimp only
    rw [queryCount_eq hmost, if_neg hzero, if_neg (by simp)]
    apply Dialogue.After.cons
    dsimp only
    rw [hagain, if_neg Bool.false_ne_true, ← queryResult_response hlength]
    exact .nil _
  · have hlimit : ¬ (streams = 0 ∨ maxPcmStreams < streams) := by
      rintro (hnone | hmore)
      · exact hzero hnone
      · rw [BitVec.lt_def, maxPcmStreams_toNat] at hmore
        exact absurd hmost (Nat.not_le_of_lt hmore)
    unfold viosndAcxQueryPcmStreams
    rw [if_neg hlimit, if_neg (by simp)]
    apply Dialogue.After.cons
    rw [acxQueryResult_response behind hlength hpos]
    exact .nil _
  · have hshort : (infos.map fun i => i.2.toPcmInfo).length < 2 ^ 32 := by
      rw [List.length_map, ← hlength]
      exact streams.isLt
    exact choiceResult_eq_iff hshort _

/-- A device whose first stream captures and whose second renders. -/
theorem query_both_swapped :
    let input : PcmInfoRecord := ⟨⟨1 <<< 5, 1 <<< 7, 1, 1, 2⟩, 0⟩
    let output : PcmInfoRecord := ⟨⟨1 <<< 5, 1 <<< 7, 0, 1, 2⟩, 0⟩
    let log := [((⟨queryInfo 2, queryLength 2⟩ : Question),
      (⟨.success, responseBytes [(0, input), (0, output)]⟩ : Answer))]
    (viosndQueryPcmStreams 2 true).After log (.done (.success, some ⟨1, 0, true, true⟩)) ∧
      (viosndAcxQueryPcmStreams [] 2 true).After log (.done (.success, some ⟨0, 1, true, true⟩)) :=
  let both := query_both [] 2
    [(0, ⟨⟨1 <<< 5, 1 <<< 7, 1, 1, 2⟩, 0⟩), (0, ⟨⟨1 <<< 5, 1 <<< 7, 0, 1, 2⟩, 0⟩)]
    rfl (by decide) (by decide)
  ⟨both.1 (by decide), both.2.1⟩

end

end Viosnd.Acx
