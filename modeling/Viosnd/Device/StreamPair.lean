import Viosnd.Basic

/-!
# The pair of streams

`ViosndFindStreamPair` of `ViosndPcm.cpp` chooses a render and a capture stream from the PCM infos
of the device. One scan keeps the first stream of each direction and the first that has the default
format, and ends as soon as both of the latter are known.
-/

namespace Viosnd.Device

/-- `VIRTIO_SND_PCM_INFO`, the fields the choice reads. -/
structure PcmInfo where
  formats : BitVec 64
  rates : BitVec 64
  direction : Byte
  channelsMin : Byte
  channelsMax : Byte

/-- The infos of a device; their number is a `ULONG`. -/
structure PcmInfos where
  infos : List PcmInfo
  count_lt : infos.length < 2 ^ 32

/-- `VIRTIO_SND_D_OUTPUT`. -/
def dOutput : Byte := 0
/-- `VIRTIO_SND_D_INPUT`. -/
def dInput : Byte := 1
/-- Bit `VIRTIO_SND_PCM_FMT_S16`. -/
def viosndDefaultFormatMask : BitVec 64 := 1 <<< 5
/-- Bit `VIRTIO_SND_PCM_RATE_48000`. -/
def viosndDefaultRateMask : BitVec 64 := 1 <<< 7

def viosndPcmInfoSupportsDefaultFormat (info : PcmInfo) : Bool :=
  if info.formats &&& viosndDefaultFormatMask = 0 then false
  else if info.rates &&& viosndDefaultRateMask = 0 then false
  else decide (info.channelsMin.toNat ≤ defaultChannels ∧ defaultChannels ≤ info.channelsMax.toNat)

/-- `VIOSND_STREAM_PAIR`. -/
structure StreamPair where
  renderStreamId : ULONG
  captureStreamId : ULONG
  hasRender : Bool
  hasCapture : Bool
  deriving DecidableEq

structure Scan where
  pair : StreamPair
  fallbackRender : ULONG
  fallbackCapture : ULONG

def Scan.start : Scan := ⟨⟨0, 0, false, false⟩, maxULONG, maxULONG⟩

/-- The first `if` of the loop body. -/
def Scan.noteFallback (i : ULONG) (info : PcmInfo) (s : Scan) : Scan :=
  if info.direction = dOutput ∧ s.fallbackRender = maxULONG then { s with fallbackRender := i }
  else if info.direction = dInput ∧ s.fallbackCapture = maxULONG then
    { s with fallbackCapture := i }
  else s

/-- The rest of the loop body, for a stream with the default format. -/
def Scan.select (i : ULONG) (info : PcmInfo) (s : Scan) : Scan :=
  if s.pair.hasRender = false ∧ info.direction = dOutput then { s with
    pair := { s.pair with renderStreamId := i, hasRender := true } }
  else if s.pair.hasCapture = false ∧ info.direction = dInput then { s with
    pair := { s.pair with captureStreamId := i, hasCapture := true } }
  else s

/-- The loop, and whether it was left by the early return. -/
def scanLoop (early : Bool) : ULONG → List PcmInfo → Scan → Scan × Bool
  | _, [], s => (s, false)
  | i, info :: rest, s =>
      let s := s.noteFallback i info
      if viosndPcmInfoSupportsDefaultFormat info = false then scanLoop early (i + 1) rest s
      else
        let s := s.select i info
        if s.pair.hasRender ∧ s.pair.hasCapture ∧ early then (s, true)
        else scanLoop early (i + 1) rest s

def otherStream (infoCount : ℕ) (pair : StreamPair) : Option ℕ :=
  (List.range infoCount).find? fun i =>
    !pair.hasRender || BitVec.ofNat 32 i != pair.renderStreamId

def StreamPair.takeRender (fallback : ULONG) (pair : StreamPair) : StreamPair :=
  if pair.hasRender = false ∧ fallback ≠ maxULONG then
    { pair with renderStreamId := fallback, hasRender := true }
  else pair

def StreamPair.takeCapture (fallback : ULONG) (pair : StreamPair) : StreamPair :=
  if pair.hasCapture = false ∧ fallback ≠ maxULONG then
    { pair with captureStreamId := fallback, hasCapture := true }
  else pair

def StreamPair.takeOther (infoCount : ℕ) (pair : StreamPair) : StreamPair :=
  if pair.hasCapture = false ∧ 1 < infoCount then
    match otherStream infoCount pair with
    | some i => { pair with captureStreamId := BitVec.ofNat 32 i, hasCapture := true }
    | none => pair
  else pair

def StreamPair.status (pair : StreamPair) : NtStatus :=
  if pair.hasRender ∨ pair.hasCapture then .success else .notFound

def Scan.finish (infoCount : ℕ) (s : Scan) : NtStatus × StreamPair :=
  let pair := ((s.pair.takeRender s.fallbackRender).takeCapture s.fallbackCapture).takeOther
    infoCount
  (pair.status, pair)

def findStreamPair (early : Bool) (device : PcmInfos) : NtStatus × StreamPair :=
  let scanned := scanLoop early 0 device.infos Scan.start
  if scanned.2 then (.success, scanned.1.pair) else scanned.1.finish device.infos.length

def viosndFindStreamPair (device : PcmInfos) : NtStatus × StreamPair :=
  findStreamPair true device

/-! ## What the choice is for -/

def isOutput (info : PcmInfo) : Bool := info.direction == dOutput
def isInput (info : PcmInfo) : Bool := info.direction == dInput

def suitableOutput (info : PcmInfo) : Bool :=
  isOutput info && viosndPcmInfoSupportsDefaultFormat info

def suitableInput (info : PcmInfo) : Bool :=
  isInput info && viosndPcmInfoSupportsDefaultFormat info

/-- The least output stream with the default format, else the least output stream. -/
def renderChoice (infos : List PcmInfo) : Option ℕ :=
  (infos.findIdx? suitableOutput).or (infos.findIdx? isOutput)

/-- The least input stream with the default format, else the least input stream, else the least
stream that is not the render stream if there is more than one. -/
def captureChoice (infos : List PcmInfo) : Option ℕ :=
  (infos.findIdx? suitableInput).or ((infos.findIdx? isInput).or
    (if 1 < infos.length then
      (List.range infos.length).find? fun i => decide (some i ≠ renderChoice infos)
    else none))

def StreamPair.render (pair : StreamPair) : Option ℕ :=
  if pair.hasRender then some pair.renderStreamId.toNat else none

def StreamPair.capture (pair : StreamPair) : Option ℕ :=
  if pair.hasCapture then some pair.captureStreamId.toNat else none

/-- The record of a choice: an id that is not chosen stays zero. -/
def StreamPair.choose (render capture : Option ℕ) : StreamPair where
  renderStreamId := render.elim 0 (BitVec.ofNat 32)
  captureStreamId := capture.elim 0 (BitVec.ofNat 32)
  hasRender := render.isSome
  hasCapture := capture.isSome

/-! ## The scan -/

/-- A variable of the scan that is `MAXULONG` until something is found. -/
def noted : Option ℕ → ULONG
  | none => maxULONG
  | some i => BitVec.ofNat 32 i

/-- What is known after the infos `done`. -/
structure Scanned (done : List PcmInfo) (s : Scan) : Prop where
  fallbackRender : s.fallbackRender = noted (done.findIdx? isOutput)
  fallbackCapture : s.fallbackCapture = noted (done.findIdx? isInput)
  pair : s.pair =
    StreamPair.choose (done.findIdx? suitableOutput) (done.findIdx? suitableInput)

private theorem findIdx?_concat {α : Type} (p : α → Bool) (done : List α) (x : α) :
    (done ++ [x]).findIdx? p =
      (done.findIdx? p).or (if p x then some done.length else none) := by
  rw [List.findIdx?_append, List.findIdx?_singleton]
  split_ifs <;> simp

private theorem noted_eq_max_iff {o : Option ℕ} (hsmall : ∀ i, o = some i → i + 1 < 2 ^ 32) :
    noted o = maxULONG ↔ o = none := by
  cases o with
  | none => simp [noted]
  | some i =>
      have hi := hsmall i rfl
      simp only [noted, reduceCtorEq, iff_false]
      intro heq
      have hnat := congrArg BitVec.toNat heq
      rw [BitVec.toNat_ofNat, Nat.mod_eq_of_lt (by omega)] at hnat
      have hmax : maxULONG.toNat = 2 ^ 32 - 1 := by decide
      omega

private theorem findIdx?_small {done : List PcmInfo} (hshort : done.length < 2 ^ 32)
    (p : PcmInfo → Bool) (i : ℕ) (h : done.findIdx? p = some i) : i + 1 < 2 ^ 32 := by
  obtain ⟨hlt, -⟩ := List.findIdx?_eq_some_iff_getElem.mp h
  omega

private theorem noted_or {o : Option ℕ} (hsmall : ∀ i, o = some i → i + 1 < 2 ^ 32) (len : ℕ) :
    (if noted o = maxULONG then BitVec.ofNat 32 len else noted o) = noted (o.or (some len)) := by
  cases o with
  | none => rfl
  | some i =>
      have hfound : noted (some i) ≠ maxULONG := (noted_eq_max_iff hsmall).not.mpr (by simp)
      rw [if_neg hfound, Option.some_or]

section

variable {done : List PcmInfo} {info : PcmInfo} {s : Scan}

private theorem dOutput_ne_dInput : dOutput ≠ dInput := by decide

private theorem noteFallback_output (i : ULONG) (hout : info.direction = dOutput) :
    s.noteFallback i info = { s with
      fallbackRender := if s.fallbackRender = maxULONG then i else s.fallbackRender } := by
  have hin : info.direction ≠ dInput := fun h => dOutput_ne_dInput (hout.symm.trans h)
  unfold Scan.noteFallback
  by_cases hfree : s.fallbackRender = maxULONG
  · rw [if_pos ⟨hout, hfree⟩, if_pos hfree]
  · rw [if_neg fun h => hfree h.2, if_neg fun h => hin h.1, if_neg hfree]

private theorem noteFallback_input (i : ULONG) (hin : info.direction = dInput) :
    s.noteFallback i info = { s with
      fallbackCapture := if s.fallbackCapture = maxULONG then i else s.fallbackCapture } := by
  have hout : info.direction ≠ dOutput := fun h => dOutput_ne_dInput (h.symm.trans hin)
  unfold Scan.noteFallback
  rw [if_neg fun h => hout h.1]
  by_cases hfree : s.fallbackCapture = maxULONG
  · rw [if_pos ⟨hin, hfree⟩, if_pos hfree]
  · rw [if_neg fun h => hfree h.2, if_neg hfree]

private theorem noteFallback_other (i : ULONG) (hout : info.direction ≠ dOutput)
    (hin : info.direction ≠ dInput) : s.noteFallback i info = s := by
  unfold Scan.noteFallback
  rw [if_neg fun h => hout h.1, if_neg fun h => hin h.1]

private theorem select_output {render capture : Option ℕ} (len : ℕ)
    (hout : info.direction = dOutput) (hpair : s.pair = StreamPair.choose render capture) :
    s.select (BitVec.ofNat 32 len) info = { s with
      pair := StreamPair.choose (render.or (some len)) capture } := by
  have hin : info.direction ≠ dInput := fun h => dOutput_ne_dInput (hout.symm.trans h)
  unfold Scan.select
  rw [hpair]
  cases render with
  | none => exact if_pos ⟨rfl, hout⟩
  | some i =>
      rw [if_neg fun h => Bool.noConfusion h.1, if_neg fun h => hin h.2, Option.some_or, ← hpair]

private theorem select_input {render capture : Option ℕ} (len : ℕ) (hin : info.direction = dInput)
    (hpair : s.pair = StreamPair.choose render capture) :
    s.select (BitVec.ofNat 32 len) info = { s with
      pair := StreamPair.choose render (capture.or (some len)) } := by
  have hout : info.direction ≠ dOutput := fun h => dOutput_ne_dInput (h.symm.trans hin)
  unfold Scan.select
  rw [hpair, if_neg fun h => hout h.2]
  cases capture with
  | none => exact if_pos ⟨rfl, hin⟩
  | some i => rw [if_neg fun h => Bool.noConfusion h.1, Option.some_or, ← hpair]

private theorem select_other (i : ULONG) (hout : info.direction ≠ dOutput)
    (hin : info.direction ≠ dInput) : s.select i info = s := by
  unfold Scan.select
  rw [if_neg fun h => hout h.2, if_neg fun h => hin h.2]

private theorem noteFallback_spec (info : PcmInfo) (hshort : done.length + 1 < 2 ^ 32)
    (hrender : s.fallbackRender = noted (done.findIdx? isOutput))
    (hcapture : s.fallbackCapture = noted (done.findIdx? isInput)) :
    let next := s.noteFallback (BitVec.ofNat 32 done.length) info
    next.fallbackRender = noted ((done ++ [info]).findIdx? isOutput) ∧
      next.fallbackCapture = noted ((done ++ [info]).findIdx? isInput) ∧ next.pair = s.pair := by
  dsimp only
  rw [findIdx?_concat, findIdx?_concat]
  by_cases hout : info.direction = dOutput
  · have hyes : isOutput info = true := by simp [isOutput, hout]
    have hno : isInput info = false := by simp [isInput, hout, dOutput_ne_dInput]
    rw [noteFallback_output _ hout, hyes, hno, if_pos rfl, if_neg Bool.false_ne_true,
      Option.or_none, ← noted_or (findIdx?_small (Nat.lt_of_succ_lt hshort) isOutput)]
    exact ⟨by rw [hrender], hcapture, rfl⟩
  · have hno : isOutput info = false := by simp [isOutput, hout]
    by_cases hin : info.direction = dInput
    · have hyes : isInput info = true := by simp [isInput, hin]
      rw [noteFallback_input _ hin, hyes, hno, if_pos rfl, if_neg Bool.false_ne_true,
        Option.or_none, ← noted_or (findIdx?_small (Nat.lt_of_succ_lt hshort) isInput)]
      exact ⟨hrender, by rw [hcapture], rfl⟩
    · have hno' : isInput info = false := by simp [isInput, hin]
      rw [noteFallback_other _ hout hin, hno, hno', if_neg Bool.false_ne_true, Option.or_none,
        Option.or_none]
      exact ⟨hrender, hcapture, rfl⟩

private theorem select_spec (info : PcmInfo)
    (hsupports : viosndPcmInfoSupportsDefaultFormat info = true)
    (hpair : s.pair =
      StreamPair.choose (done.findIdx? suitableOutput) (done.findIdx? suitableInput)) :
    s.select (BitVec.ofNat 32 done.length) info = { s with
      pair := StreamPair.choose ((done ++ [info]).findIdx? suitableOutput)
        ((done ++ [info]).findIdx? suitableInput) } := by
  rw [findIdx?_concat, findIdx?_concat]
  by_cases hout : info.direction = dOutput
  · have hyes : suitableOutput info = true := by
      simp [suitableOutput, isOutput, hout, hsupports]
    have hno : suitableInput info = false := by
      simp [suitableInput, isInput, hout, dOutput_ne_dInput]
    rw [select_output _ hout hpair, hyes, hno, if_pos rfl, if_neg Bool.false_ne_true,
      Option.or_none]
  · have hno : suitableOutput info = false := by simp [suitableOutput, isOutput, hout]
    by_cases hin : info.direction = dInput
    · have hyes : suitableInput info = true := by
        simp [suitableInput, isInput, hin, hsupports]
      rw [select_input _ hin hpair, hyes, hno, if_pos rfl, if_neg Bool.false_ne_true,
        Option.or_none]
    · have hno' : suitableInput info = false := by simp [suitableInput, isInput, hin]
      rw [select_other _ hout hin, hno, hno', if_neg Bool.false_ne_true, Option.or_none,
        Option.or_none, ← hpair]

theorem Scanned.start : Scanned [] Scan.start := ⟨rfl, rfl, rfl⟩

private theorem Scanned.unsupported (h : Scanned done s) (hshort : done.length + 1 < 2 ^ 32)
    (hnot : viosndPcmInfoSupportsDefaultFormat info = false) :
    Scanned (done ++ [info]) (s.noteFallback (BitVec.ofNat 32 done.length) info) := by
  obtain ⟨hrender, hcapture, hpair⟩ :=
    noteFallback_spec info hshort h.fallbackRender h.fallbackCapture
  have hout : suitableOutput info = false := by rw [suitableOutput, hnot, Bool.and_false]
  have hin : suitableInput info = false := by rw [suitableInput, hnot, Bool.and_false]
  refine ⟨hrender, hcapture, ?_⟩
  rw [hpair, h.pair, findIdx?_concat, findIdx?_concat, hout, hin, if_neg Bool.false_ne_true,
    Option.or_none, Option.or_none]

private theorem Scanned.supported (h : Scanned done s) (hshort : done.length + 1 < 2 ^ 32)
    (hsupports : viosndPcmInfoSupportsDefaultFormat info = true) :
    Scanned (done ++ [info]) ((s.noteFallback (BitVec.ofNat 32 done.length) info).select
      (BitVec.ofNat 32 done.length) info) := by
  obtain ⟨hrender, hcapture, hpair⟩ :=
    noteFallback_spec info hshort h.fallbackRender h.fallbackCapture
  rw [select_spec info hsupports (hpair.trans h.pair)]
  exact ⟨hrender, hcapture, rfl⟩

end

/-- The early return leaves with both streams chosen from the beginning of the list. -/
private theorem scanLoop_spec (early : Bool) (rest : List PcmInfo) {done : List PcmInfo} {s : Scan}
    (h : Scanned done s) (hshort : (done ++ rest).length < 2 ^ 32) :
    let r := scanLoop early (BitVec.ofNat 32 done.length) rest s
    (r.2 = false → Scanned (done ++ rest) r.1) ∧
      (r.2 = true → ∃ seen, seen <+: done ++ rest ∧ Scanned seen r.1 ∧
        r.1.pair.hasRender = true ∧ r.1.pair.hasCapture = true) ∧
      (early = false → r.2 = false) := by
  induction rest generalizing done s with
  | nil =>
      rw [List.append_nil]
      exact ⟨fun _ => h, fun hreturned => Bool.noConfusion hreturned, fun _ => rfl⟩
  | cons info rest ih =>
      have hsplit : done ++ info :: rest = done ++ [info] ++ rest := by simp
      have hindex : BitVec.ofNat 32 done.length + 1 =
          BitVec.ofNat 32 (done ++ [info]).length := by
        rw [List.length_append, List.length_singleton, BitVec.ofNat_add]
        rfl
      have hlength : done.length + 1 < 2 ^ 32 := by
        rw [List.length_append, List.length_cons] at hshort
        omega
      rw [hsplit] at hshort ⊢
      dsimp only [scanLoop]
      cases hsupports : viosndPcmInfoSupportsDefaultFormat info with
      | false =>
          rw [if_pos rfl, hindex]
          exact ih (h.unsupported hlength hsupports) hshort
      | true =>
          have hnext := h.supported hlength hsupports
          rw [if_neg fun h => Bool.noConfusion h, hindex]
          split_ifs with hboth
          · exact ⟨fun hnot => hnot.elim, fun _ =>
              ⟨done ++ [info], List.prefix_append _ rest, hnext, hboth.1, hboth.2.1⟩,
              fun hlate => Bool.noConfusion (hlate.symm.trans hboth.2.2)⟩
          · exact ih hnext hshort

/-! ## The fallbacks -/

theorem choose_render {render capture : Option ℕ}
    (hsmall : ∀ i, render = some i → i < 2 ^ 32) :
    (StreamPair.choose render capture).render = render := by
  cases render with
  | none => rfl
  | some i =>
      have hi : (BitVec.ofNat 32 i).toNat = i := by
        rw [BitVec.toNat_ofNat, Nat.mod_eq_of_lt (hsmall i rfl)]
      simp [StreamPair.choose, StreamPair.render, hi]

theorem choose_capture {render capture : Option ℕ}
    (hsmall : ∀ i, capture = some i → i < 2 ^ 32) :
    (StreamPair.choose render capture).capture = capture := by
  cases capture with
  | none => rfl
  | some i =>
      have hi : (BitVec.ofNat 32 i).toNat = i := by
        rw [BitVec.toNat_ofNat, Nat.mod_eq_of_lt (hsmall i rfl)]
      simp [StreamPair.choose, StreamPair.capture, hi]

/-- The last loop compares ids where the choice compares indices. -/
private theorem otherStream_eq {render capture : Option ℕ} {count : ℕ} (hcount : count < 2 ^ 32)
    (hsmall : ∀ i, render = some i → i < 2 ^ 32) :
    otherStream count (StreamPair.choose render capture) =
      (List.range count).find? fun i => decide (some i ≠ render) := by
  unfold otherStream
  apply List.find?_congr
  intro i hi
  have hlt := List.mem_range.mp hi
  cases render with
  | none => rfl
  | some j =>
      have hj := hsmall j rfl
      have hids : BitVec.ofNat 32 i = BitVec.ofNat 32 j ↔ i = j := by
        rw [← BitVec.toNat_inj, BitVec.toNat_ofNat, BitVec.toNat_ofNat,
          Nat.mod_eq_of_lt (by omega), Nat.mod_eq_of_lt hj]
      rw [Bool.eq_iff_iff]
      simp [StreamPair.choose, hids]

private theorem takeRender_choose {render capture fallback : Option ℕ}
    (hsmall : ∀ i, fallback = some i → i + 1 < 2 ^ 32) :
    (StreamPair.choose render capture).takeRender (noted fallback) =
      StreamPair.choose (render.or fallback) capture := by
  have hnone := noted_eq_max_iff hsmall
  unfold StreamPair.takeRender
  cases render with
  | some i => rw [if_neg fun h => Bool.noConfusion h.1, Option.some_or]
  | none =>
      cases fallback with
      | none => rw [if_neg fun h => h.2 (hnone.mpr rfl), Option.none_or]
      | some j => exact if_pos ⟨rfl, hnone.not.mpr (by simp)⟩

private theorem takeCapture_choose {render capture fallback : Option ℕ}
    (hsmall : ∀ i, fallback = some i → i + 1 < 2 ^ 32) :
    (StreamPair.choose render capture).takeCapture (noted fallback) =
      StreamPair.choose render (capture.or fallback) := by
  have hnone := noted_eq_max_iff hsmall
  unfold StreamPair.takeCapture
  cases capture with
  | some i => rw [if_neg fun h => Bool.noConfusion h.1, Option.some_or]
  | none =>
      cases fallback with
      | none => rw [if_neg fun h => h.2 (hnone.mpr rfl), Option.none_or]
      | some j => exact if_pos ⟨rfl, hnone.not.mpr (by simp)⟩

private theorem takeOther_choose {render capture : Option ℕ} {count : ℕ} (hcount : count < 2 ^ 32)
    (hsmall : ∀ i, render = some i → i < 2 ^ 32) :
    (StreamPair.choose render capture).takeOther count =
      StreamPair.choose render (capture.or (if 1 < count then
        (List.range count).find? fun i => decide (some i ≠ render) else none)) := by
  unfold StreamPair.takeOther
  cases capture with
  | some i => rw [if_neg fun h => Bool.noConfusion h.1, Option.some_or]
  | none =>
      rw [Option.none_or]
      by_cases hmany : 1 < count
      · rw [if_pos ⟨rfl, hmany⟩, if_pos hmany, otherStream_eq hcount hsmall]
        cases (List.range count).find? fun i => decide (some i ≠ render) <;> rfl
      · rw [if_neg fun h => hmany h.2, if_neg hmany]

theorem renderChoice_lt {infos : List PcmInfo} {i : ℕ} (h : renderChoice infos = some i) :
    i < infos.length := by
  unfold renderChoice at h
  rcases Option.or_eq_some_iff.mp h with hfound | ⟨-, hfound⟩
  · exact (List.findIdx?_eq_some_iff_getElem.mp hfound).1
  · exact (List.findIdx?_eq_some_iff_getElem.mp hfound).1

theorem captureChoice_lt {infos : List PcmInfo} {i : ℕ} (h : captureChoice infos = some i) :
    i < infos.length := by
  unfold captureChoice at h
  rcases Option.or_eq_some_iff.mp h with hfound | ⟨-, h⟩
  · exact (List.findIdx?_eq_some_iff_getElem.mp hfound).1
  · rcases Option.or_eq_some_iff.mp h with hfound | ⟨-, h⟩
    · exact (List.findIdx?_eq_some_iff_getElem.mp hfound).1
    · split_ifs at h
      exact List.mem_range.mp (List.mem_of_find?_eq_some h)

/-- What is returned: the choice, and whether anything was chosen. -/
def choiceResult (infos : List PcmInfo) : NtStatus × StreamPair :=
  let pair := StreamPair.choose (renderChoice infos) (captureChoice infos)
  (pair.status, pair)

private theorem Scanned.finish_eq {infos : List PcmInfo} {s : Scan} (h : Scanned infos s)
    (hshort : infos.length < 2 ^ 32) : s.finish infos.length = choiceResult infos := by
  have hrender : ∀ i, renderChoice infos = some i → i < 2 ^ 32 :=
    fun i hi => Nat.lt_trans (renderChoice_lt hi) hshort
  have hpair : ((s.pair.takeRender s.fallbackRender).takeCapture s.fallbackCapture).takeOther
      infos.length = StreamPair.choose (renderChoice infos) (captureChoice infos) := by
    rw [h.pair, h.fallbackRender, h.fallbackCapture, takeRender_choose (findIdx?_small hshort _),
      takeCapture_choose (findIdx?_small hshort _)]
    show (StreamPair.choose (renderChoice infos) _).takeOther infos.length = _
    rw [takeOther_choose hshort hrender, Option.or_assoc]
    rfl
  unfold Scan.finish choiceResult
  rw [hpair]

/-- With the early return or without it, the result is the choice. -/
theorem findStreamPair_eq (early : Bool) (device : PcmInfos) :
    findStreamPair early device = choiceResult device.infos := by
  have hshort := device.count_lt
  obtain ⟨hwhole, hreturned, -⟩ := scanLoop_spec early device.infos Scanned.start hshort
  unfold findStreamPair
  dsimp only
  cases hearly : (scanLoop early 0 device.infos Scan.start).2 with
  | false =>
      rw [if_neg Bool.false_ne_true]
      exact (hwhole hearly).finish_eq hshort
  | true =>
      obtain ⟨seen, hprefix, hscanned, hrender, hcapture⟩ := hreturned hearly
      rw [hscanned.pair] at hrender hcapture
      obtain ⟨i, hi⟩ := Option.isSome_iff_exists.mp hrender
      obtain ⟨j, hj⟩ := Option.isSome_iff_exists.mp hcapture
      have hi' := hprefix.findIdx?_eq_some hi
      have hj' := hprefix.findIdx?_eq_some hj
      rw [List.nil_append] at hi' hj'
      have hpair : (scanLoop early 0 device.infos Scan.start).1.pair = _ := hscanned.pair
      rw [if_pos rfl, hpair, hi, hj]
      unfold choiceResult renderChoice captureChoice
      rw [hi', hj']
      rfl

private theorem renderChoice_isOutput {infos : List PcmInfo} {i : ℕ}
    (h : renderChoice infos = some i) :
    ∃ hi : i < infos.length, isOutput infos[i] = true := by
  unfold renderChoice at h
  rcases Option.or_eq_some_iff.mp h with hfound | ⟨-, hfound⟩
  · obtain ⟨hi, hout, -⟩ := List.findIdx?_eq_some_iff_getElem.mp hfound
    exact ⟨hi, (Bool.and_eq_true_iff.mp hout).1⟩
  · obtain ⟨hi, hout, -⟩ := List.findIdx?_eq_some_iff_getElem.mp hfound
    exact ⟨hi, hout⟩

theorem not_isInput_of_isOutput {info : PcmInfo} (hout : isOutput info = true) :
    isInput info = false := by
  have hdirection : info.direction = dOutput := eq_of_beq hout
  simp [isInput, hdirection, dOutput_ne_dInput]

private theorem captureChoice_ne {infos : List PcmInfo} {i j : ℕ}
    (hrender : renderChoice infos = some i) (hcapture : captureChoice infos = some j) : i ≠ j := by
  obtain ⟨hi, hout⟩ := renderChoice_isOutput hrender
  have hnot := not_isInput_of_isOutput hout
  intro heq
  subst heq
  unfold captureChoice at hcapture
  rcases Option.or_eq_some_iff.mp hcapture with hfound | ⟨-, hcapture⟩
  · obtain ⟨hlt, hin, -⟩ := List.findIdx?_eq_some_iff_getElem.mp hfound
    simp [suitableInput, hnot] at hin
  · rcases Option.or_eq_some_iff.mp hcapture with hfound | ⟨-, hcapture⟩
    · obtain ⟨hlt, hin, -⟩ := List.findIdx?_eq_some_iff_getElem.mp hfound
      simp [hnot] at hin
    · split_ifs at hcapture
      have hother := List.find?_some hcapture
      exact of_decide_eq_true hother hrender.symm

/-- The streams chosen by `ViosndFindStreamPair`, for every list of infos. -/
theorem viosndFindStreamPair_spec (device : PcmInfos) :
    let r := viosndFindStreamPair device
    (r.1 = .success ↔ r.2.render.isSome ∨ r.2.capture.isSome) ∧
      r.2.render = renderChoice device.infos ∧ r.2.capture = captureChoice device.infos ∧
      (∀ i, r.2.render = some i ∨ r.2.capture = some i → i < device.infos.length) ∧
      (∀ i j, r.2.render = some i → r.2.capture = some j → i ≠ j) ∧
      r = findStreamPair false device := by
  have hshort := device.count_lt
  have hr : viosndFindStreamPair device = choiceResult device.infos := findStreamPair_eq true device
  have hrender : (choiceResult device.infos).2.render = renderChoice device.infos :=
    choose_render fun i hi => Nat.lt_trans (renderChoice_lt hi) hshort
  have hcapture : (choiceResult device.infos).2.capture = captureChoice device.infos :=
    choose_capture fun i hi => Nat.lt_trans (captureChoice_lt hi) hshort
  dsimp only
  rw [hr, hrender, hcapture]
  refine ⟨?_, rfl, rfl, ?_, fun i j hi hj => captureChoice_ne hi hj,
    (findStreamPair_eq false device).symm⟩
  · show (StreamPair.choose _ _).status = _ ↔ _
    unfold StreamPair.status
    split_ifs with hany
    · exact iff_of_true rfl hany
    · exact iff_of_false (by simp) hany
  · intro i hi
    rcases hi with hi | hi
    · exact renderChoice_lt hi
    · exact captureChoice_lt hi

end Viosnd.Device
