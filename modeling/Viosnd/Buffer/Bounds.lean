import Viosnd.Buffer.Geometry
import Viosnd.Render.EndOfStream
import Viosnd.Render.Shifted

/-!
# Accesses to the audio buffer

`SubmitRenderPacket` zeroes the tail of a slot and reads one slot, or the starts of up to three;
`ReclaimCapturePackets` writes one slot. Every range is listed with the arithmetic of the source,
and lies in the buffer as long as the buffer is allocated.
-/

namespace Viosnd.Render

open SlotRanges StepRun EffectSystem

/-! ## The ranges of a submission -/

/-- `RtlZeroMemory(packet + length, m_PacketSize - length)`. -/
def padAccesses (packetNumber packetLength : ULONG) (w : World) : List Range :=
  let length := if packetLength < w.packetSize then packetLength else w.packetSize
  if packetLength < w.packetSize then
    [⟨(packetOffset packetNumber w.notificationCount w.packetSize).toNat + length.toNat,
      (w.packetSize - length).toNat⟩]
  else []

def feedAccess (w : World) (feed : ULONG × ULONG) : Range :=
  ⟨(packetOffset feed.1 w.notificationCount w.packetSize).toNat, feed.2.toNat⟩

/-- The reads of a submission: the slot, or what the resampler is given. -/
def readAccesses (packetNumber : ULONG) (memory : Memory) (w : World) : List Range :=
  if w.renderFallbackActive then
    if w.renderFallbackBuffer.getD 0 < fallbackPeriodBytes then []
    else (fallbackFeeds w memory packetNumber 3 0 ⟨[], 0, [], w.renderFallbackPhase⟩).map
      (feedAccess w)
  else [driverSlot w packetNumber]

/-- All accesses of `SubmitRenderPacket` to `m_Buffer`. -/
def submitAccesses (packetNumber packetLength : ULONG) (w : World) : List Range :=
  match w.buffer with
  | none => []
  | some memory =>
      if w.packetSize = 0 then []
      else if w.renderIoFreeCount = 0 then []
      else padAccesses packetNumber packetLength w ++
        readAccesses packetNumber (padSlot memory w packetNumber packetLength) w

section

variable {w : World} {memory memory' : Memory} {packetNumber packetLength : ULONG}

/-- `padAccesses` is all that the zero fill changes. -/
theorem padSlot_outside {i : ℕ}
    (hi : ∀ r ∈ padAccesses packetNumber packetLength w, i < r.start ∨ r.start + r.length ≤ i) :
    padSlot memory w packetNumber packetLength i = memory i := by
  unfold padSlot
  split_ifs with hshort
  · apply Memory.zero_outside
    simpa [padAccesses, hshort] using hi
  · rfl

private theorem downsampleLoop_congr {source source' : Memory} (rate : ULONG) {frames frame : ℕ}
    (room : ℕ) (phase : ULONG) (h : ∀ i < 4 * (frame + frames), source i = source' i) :
    downsampleLoop source rate frames frame room phase =
      downsampleLoop source' rate frames frame room phase := by
  induction frames generalizing frame room phase with
  | zero =>
      unfold downsampleLoop
      rfl
  | succ frames ih =>
      cases room with
      | zero => rfl
      | succ room =>
          have hrest : ∀ i < 4 * (frame + 1 + frames), source i = source' i := by
            intro i hi
            exact h i (by omega)
          have hframe : source.slice (4 * frame) 4 = source'.slice (4 * frame) 4 := by
            apply Memory.slice_congr
            intro i _ hi
            exact h i (by omega)
          simp only [downsampleLoop]
          rw [ih room _ hrest, ih (room + 1) _ hrest, hframe]

private theorem viosndDownsampleStereo16_congr (destinationLength : ℕ) (source source' : Memory)
    (sourceLength rate phase : ULONG)
    (h : ∀ i < sourceLength.toNat, source i = source' i) :
    viosndDownsampleStereo16 destinationLength source sourceLength rate phase =
      viosndDownsampleStereo16 destinationLength source' sourceLength rate phase := by
  unfold viosndDownsampleStereo16
  rw [downsampleLoop_congr]
  intro i hi
  exact h i (by omega)

/-- A pass depends on the memory in its own range only. -/
private theorem feedPacket_congr (block : FallbackBlock) {feed : ULONG × ULONG}
    (h : AgreeOn (feedAccess w feed) memory memory') :
    feedPacket w memory block feed = feedPacket w memory' block feed := by
  have hsource := viosndDownsampleStereo16_congr (fallbackPeriodBytes.toNat - block.audio.length)
    (fun k => memory ((feedAccess w feed).start + k))
    (fun k => memory' ((feedAccess w feed).start + k)) feed.2 fallbackSampleRate block.phase
    fun i hi => h _ (Nat.le_add_right _ _) (Nat.add_lt_add_left hi _)
  unfold feedAccess at hsource
  unfold feedPacket
  dsimp only at hsource ⊢
  rw [hsource]

private theorem fallbackFeeds_agree {n : ℕ} {i : ULONG} {block : FallbackBlock}
    (h : ∀ feed ∈ fallbackFeeds w memory packetNumber n i block,
      AgreeOn (feedAccess w feed) memory memory') :
    fallbackFeeds w memory packetNumber n i block =
        fallbackFeeds w memory' packetNumber n i block ∧
      fallbackBlock w memory packetNumber n i block =
        fallbackBlock w memory' packetNumber n i block := by
  induction n generalizing i block with
  | zero => exact ⟨rfl, rfl⟩
  | succ n ih =>
      have hfirst (length : ULONG)
          (hmem : (packetNumber + i, length) ∈
            fallbackFeeds w memory packetNumber (n + 1) i block) :=
        feedPacket_congr block (h _ hmem)
      rw [fallbackBlock_feeds, fallbackBlock_feeds]
      unfold fallbackFeeds at h hfirst ⊢
      have hnone : List.foldl (feedPacket w memory) block [] =
          List.foldl (feedPacket w memory') block [] := by rw [List.foldl_nil, List.foldl_nil]
      split
      · exact ⟨rfl, hnone⟩
      split
      · exact ⟨rfl, hnone⟩
      rename_i hroom hwritten
      rw [if_neg hroom, if_neg hwritten] at h hfirst
      split
      · rename_i heos
        rw [if_pos heos] at hfirst
        refine ⟨rfl, ?_⟩
        simp only [List.foldl_cons, List.foldl_nil]
        exact hfirst _ List.mem_cons_self
      · rename_i heos
        rw [if_neg heos] at h hfirst
        have hsame := hfirst _ List.mem_cons_self
        obtain ⟨hfeeds, hblock⟩ := ih fun feed hfeed => h feed (List.mem_cons_of_mem _ hfeed)
        rw [fallbackBlock_feeds, fallbackBlock_feeds] at hblock
        rw [← hsame]
        refine ⟨by rw [hfeeds], ?_⟩
        rw [List.foldl_cons, List.foldl_cons, hblock, hsame]

/-- `readAccesses` is all of the buffer that the block of a submission depends on. -/
theorem renderBlock_congr
    (h : ∀ r ∈ readAccesses packetNumber memory w, AgreeOn r memory memory') :
    renderBlock w memory packetNumber = renderBlock w memory' packetNumber := by
  unfold readAccesses at h
  unfold renderBlock
  split
  · rename_i hactive
    rw [if_pos hactive] at h
    split
    · rfl
    · rename_i hbuffer
      rw [if_neg hbuffer] at h
      dsimp only
      rw [(fallbackFeeds_agree fun feed hfeed => h _ (List.mem_map_of_mem hfeed)).2]
  · rename_i hactive
    rw [if_neg hactive] at h
    have hslot : memory.slice (driverSlot w packetNumber).start (driverSlot w packetNumber).length =
        memory'.slice (driverSlot w packetNumber).start (driverSlot w packetNumber).length :=
      Memory.slice_congr (h _ List.mem_cons_self)
    unfold driverSlot at hslot
    dsimp only at hslot ⊢
    rw [hslot]

private theorem fallbackFeeds_length {n : ℕ} {i : ULONG} {block : FallbackBlock}
    {feed : ULONG × ULONG} (hfeed : feed ∈ fallbackFeeds w memory packetNumber n i block) :
    feed.2 = w.eosPacketLength ∨ feed.2 = w.packetSize := by
  induction n generalizing i block with
  | zero => cases hfeed
  | succ n ih =>
      unfold fallbackFeeds at hfeed
      split at hfeed
      · cases hfeed
      split at hfeed
      · cases hfeed
      split at hfeed
      · rw [List.mem_singleton.mp hfeed]
        exact Or.inl rfl
      · rcases List.mem_cons.mp hfeed with rfl | hrest
        · exact Or.inr rfl
        · exact ih hrest

end

end Viosnd.Render

namespace Viosnd.Capture

open SlotRanges

/-! ## The ranges of a completion -/

/-- The copy of `ReclaimCapturePackets` and the zero fill behind it. -/
def storeAccesses (packetNumber bytesRead : ULONG) (w : World) : List Range :=
  let offset := (packetNumber % w.notificationCount) * w.packetSize
  let copyLength := if bytesRead < w.packetSize then bytesRead else w.packetSize
  ⟨offset.toNat, copyLength.toNat⟩ ::
    if bytesRead < w.packetSize then
      [⟨offset.toNat + bytesRead.toNat, (w.packetSize - bytesRead).toNat⟩]
    else []

/-- `storeAccesses` is all that a completion changes. -/
theorem storeAudio_outside {w : World} {memory audio : Memory} {packetNumber bytesRead : ULONG}
    {i : ℕ}
    (hi : ∀ r ∈ storeAccesses packetNumber bytesRead w, i < r.start ∨ r.start + r.length ≤ i) :
    storeAudio w memory packetNumber bytesRead audio i = memory i := by
  have hcopied := hi _ List.mem_cons_self
  have hcopy : (memory.write ((packetNumber % w.notificationCount) * w.packetSize).toNat
      (viosndPcmCopyGain16 captureSoftwareGain (audio.slice 0
        (if bytesRead < w.packetSize then bytesRead else w.packetSize).toNat))) i = memory i := by
    apply Memory.write_outside
    rwa [captureSoftwareGain, viosndPcmCopyGain16_one, Memory.slice_length]
  unfold storeAudio
  by_cases hshort : bytesRead < w.packetSize
  · have hzero := hi ⟨_, _⟩
      (List.mem_cons_of_mem _ (by rw [if_pos hshort]; exact List.mem_cons_self))
    rw [if_pos hshort, Memory.zero_outside _ _ _ hzero, hcopy]
  · rw [if_neg hshort, hcopy]

end Viosnd.Capture

namespace Viosnd.Buffer

open SlotRanges

/-! ## Slots in the buffer -/

/-- `m_BufferSize` is a positive number of slots of `m_PacketSize` bytes. -/
structure Whole (bufferSize count packetSize : ULONG) : Prop where
  bufferSize_eq : bufferSize.toNat = count.toNat * packetSize.toNat
  count_pos : 0 < count.toNat

section

variable {allocatedSize bufferSize count packetSize : ULONG}

theorem Geometry.whole (h : Geometry allocatedSize bufferSize count packetSize)
    (hgrant : allocatedSize ≠ 0) : Whole bufferSize count packetSize where
  bufferSize_eq := h.bufferSize_eq
  count_pos := h.count_pos hgrant

private theorem Whole.part_inside (h : Whole bufferSize count packetSize) (packetNumber : ULONG)
    (first n : ℕ) (hpart : first + n ≤ packetSize.toNat) :
    Range.Inside ⟨(packetNumber % count * packetSize).toNat + first, n⟩ bufferSize.toNat := by
  rw [slotOffset_toNat h.bufferSize_eq h.count_pos, h.bufferSize_eq]
  exact (slot_inside h.count_pos packetSize.toNat packetNumber.toNat).part hpart

private theorem Whole.packetOffset_eq (h : Whole bufferSize count packetSize)
    (packetNumber : ULONG) :
    packetOffset packetNumber count packetSize = packetNumber % count * packetSize := by
  unfold packetOffset
  rw [if_neg]
  intro hzero
  rw [hzero] at h
  exact Nat.lt_irrefl 0 h.count_pos

end

/-- The length of a tail: no wrap in the subtraction. -/
private theorem tail_toNat {length packetSize : ULONG} (hle : length.toNat ≤ packetSize.toNat) :
    length.toNat + (packetSize - length).toNat = packetSize.toNat := by
  rw [BitVec.toNat_sub_of_le hle]
  omega

end Viosnd.Buffer

namespace Viosnd.Render

open Buffer SlotRanges StepRun EffectSystem

/-- `m_EosPacketLength` does not exceed the packet size. -/
def EosFits (w : World) : Prop := w.eosPacketLength.toNat ≤ w.packetSize.toNat

private theorem submitAccesses_inside {w : World}
    (hwhole : Whole w.bufferSize w.notificationCount w.packetSize) (heos : EosFits w)
    (packetNumber packetLength : ULONG) :
    ∀ r ∈ submitAccesses packetNumber packetLength w, r.Inside w.bufferSize.toNat := by
  intro r hr
  have hstart (p length : ULONG) (hlength : length.toNat ≤ w.packetSize.toNat) :
      Range.Inside ⟨(packetOffset p w.notificationCount w.packetSize).toNat, length.toNat⟩
        w.bufferSize.toNat := by
    have hpart := hwhole.part_inside p 0 length.toNat (by omega)
    rwa [Nat.add_zero, ← hwhole.packetOffset_eq] at hpart
  unfold submitAccesses at hr
  split at hr
  · cases hr
  split at hr
  · cases hr
  split at hr
  · cases hr
  rcases List.mem_append.mp hr with hpad | hread
  · unfold padAccesses at hpad
    dsimp only at hpad
    split_ifs at hpad with hshort
    · rw [List.mem_singleton.mp hpad, hwhole.packetOffset_eq]
      have hle : packetLength.toNat ≤ w.packetSize.toNat := Nat.le_of_lt hshort
      exact hwhole.part_inside packetNumber _ _ (Nat.le_of_eq (tail_toNat hle))
    · cases hpad
  · unfold readAccesses at hread
    split_ifs at hread
    · cases hread
    · obtain ⟨feed, hfeed, rfl⟩ := List.mem_map.mp hread
      apply hstart
      rcases fallbackFeeds_length hfeed with hlength | hlength
      · rw [hlength]
        exact heos
      · rw [hlength]
    · rw [List.mem_singleton.mp hread]
      exact hstart packetNumber w.packetSize le_rfl

/-! ## What a routine keeps -/

theorem Does.bufferSize_eq {K : Finset Kind} {w w' : World} (h : Does K w w') :
    w'.bufferSize = w.bufferSize :=
  h.keeps World.bufferSize fun _ _ _ _ hR => congrArg Prod.fst hR.sizes_eq

private theorem setWritePacket_eosFits (packetNumber : ULONG) (endOfStream : Bool)
    (eosPacketLength : ULONG) {w : World} (h : EosFits w) :
    EosFits (setWritePacket packetNumber endOfStream eosPacketLength w).2 := by
  unfold EosFits at h
  unfold setWritePacket
  split
  · exact h
  dsimp only
  split
  · unfold EosFits
    dsimp only
    split_ifs with hlong
    · exact le_rfl
    · exact Nat.le_of_not_lt hlong
  split
  · exact Nat.zero_le _
  · exact h

private theorem Does.eosFits {K : Finset Kind} {w w' : World} (h : Does K w w') (hw : EosFits w) :
    EosFits w' := by
  apply h.invariant (P := EosFits) _ hw
  intro _ _ a b hR hfits
  cases hR with
  | write => exact setWritePacket_eosFits _ _ _ hfits
  | reset => exact Nat.zero_le _
  | free =>
      rw [freeRenderIo_eq]
      exact hfits
  | complete =>
      rw [completeEntry_eq]
      exact hfits
  | detach =>
      rw [detachEntry_eq]
      exact hfits
  | _ => exact hfits

private theorem step_sizes (w : World) (a : Action) :
    (step w a).bufferSize = w.bufferSize ∧ (step w a).notificationCount = w.notificationCount ∧
      (step w a).packetSize = w.packetSize ∧ (EosFits w → EosFits (step w a)) := by
  have hdoes : ∃ K, Does K w (step w a) := by
    by_cases hwrite : a.IsWrite
    · cases a with
      | setWritePacket packetNumber endOfStream eosPacketLength =>
          exact ⟨{.write}, Does.one (.write packetNumber endOfStream eosPacketLength w)⟩
      | _ => exact absurd hwrite id
    · exact ⟨_, step_does w a hwrite⟩
  obtain ⟨K, h⟩ := hdoes
  obtain ⟨hcount, hpacket⟩ := Prod.mk.inj h.geometry_eq
  exact ⟨h.bufferSize_eq, hcount, hpacket, h.eosFits⟩

end Viosnd.Render

namespace Viosnd.Capture

open Buffer SlotRanges StepRun EffectSystem

private theorem storeAccesses_inside {w : World}
    (hwhole : Whole w.bufferSize w.notificationCount w.packetSize)
    (packetNumber bytesRead : ULONG) :
    ∀ r ∈ storeAccesses packetNumber bytesRead w, r.Inside w.bufferSize.toNat := by
  intro r hr
  unfold storeAccesses at hr
  rcases List.mem_cons.mp hr with rfl | hzero
  · refine hwhole.part_inside packetNumber 0 _ ?_
    split_ifs with hshort
    · have hle : bytesRead.toNat ≤ w.packetSize.toNat := Nat.le_of_lt hshort
      omega
    · omega
  · split_ifs at hzero with hshort
    · rw [List.mem_singleton.mp hzero]
      have hle : bytesRead.toNat ≤ w.packetSize.toNat := Nat.le_of_lt hshort
      exact hwhole.part_inside packetNumber _ _ (Nat.le_of_eq (tail_toNat hle))
    · cases hzero

theorem Does.sizes_eq {K : Finset Kind} {w w' : World} (h : Does K w w') :
    (w'.bufferSize, w'.notificationCount, w'.packetSize) =
      (w.bufferSize, w.notificationCount, w.packetSize) :=
  h.keeps (fun w => (w.bufferSize, w.notificationCount, w.packetSize)) fun _ _ _ _ hR => by
    cases hR with
    | free => rw [freeCaptureIo_eq]
    | fail => rw [recycleCaptureIo_eq]; rfl
    | complete => rw [recycleCaptureIo_eq, completeCapture, countReady_eq]; rfl
    | read =>
        unfold getReadPacket
        split_ifs <;> rfl
    | detach => rfl
    | _ => rfl

end Viosnd.Capture

namespace Viosnd.Buffer

open SlotRanges StepRun EffectSystem
open Render (PagesInput)

/-! ## Streams whose buffer comes and goes -/

inductive BufferCall (α : Type) where
  | act (a : α)
  | allocateAudioBuffer (requestedSize : ULONG) (mm : MemoryManager)
  | allocateBufferWithNotification (notificationCount requestedSize : ULONG) (mm : MemoryManager)
  | freeAudioBuffer (current : Bool)
  | freeBufferWithNotification

structure Streams (W α : Type) where
  bufferSize : W → ULONG
  notificationCount : W → ULONG
  packetSize : W → ULONG
  step : W → α → W
  allocateBuffer : ULONG → MemoryManager → W → NtStatus × W
  allocateBufferWithNotification : ULONG → ULONG → MemoryManager → W → NtStatus × W
  freeAudioBuffer : Bool → W → W
  freeBufferWithNotification : W → W

def renderStream : Streams Render.World Render.Action where
  bufferSize := Render.World.bufferSize
  notificationCount := Render.World.notificationCount
  packetSize := Render.World.packetSize
  step := Render.step
  allocateBuffer := Render.allocateBuffer
  allocateBufferWithNotification := Render.allocateBufferWithNotification
  freeAudioBuffer := Render.freeAudioBuffer
  freeBufferWithNotification := Render.freeBufferWithNotification

def captureStream : Streams Capture.World Capture.Action where
  bufferSize := Capture.World.bufferSize
  notificationCount := Capture.World.notificationCount
  packetSize := Capture.World.packetSize
  step := Capture.step
  allocateBuffer := Capture.allocateBuffer
  allocateBufferWithNotification := Capture.allocateBufferWithNotification
  freeAudioBuffer := Capture.freeAudioBuffer
  freeBufferWithNotification := Capture.freeBufferWithNotification

/-- The size of the allocation a stream holds after the memory manager's answer. -/
def granted : PagesInput → Option ULONG → Option ULONG
  | .none, held => held
  | .unmapped, _ => none
  | .mapped allocatedSize, _ => some allocatedSize

variable {W α : Type} {stream : Streams W α}

namespace Streams

/-- A call on a stream and the size of the allocation it holds. -/
def callStep (stream : Streams W α) (s : W × Option ULONG) : BufferCall α → W × Option ULONG
  | .act a => (stream.step s.1 a, s.2)
  | .allocateAudioBuffer requestedSize mm =>
      ((stream.allocateBuffer requestedSize mm s.1).2,
        granted (mm (allocationSize requestedSize)) s.2)
  | .allocateBufferWithNotification N requestedSize mm =>
      ((stream.allocateBufferWithNotification N requestedSize mm s.1).2,
        if maxULONG.setWidth 64 < periodAlignedSize N then s.2
        else granted (mm (askedSize N)) s.2)
  | .freeAudioBuffer current =>
      (stream.freeAudioBuffer current s.1, if current then none else s.2)
  | .freeBufferWithNotification => (stream.freeBufferWithNotification s.1, none)

/-- Each allocation is freed before the next one, and a grant is not empty. -/
def Disciplined (s : W × Option ULONG) : BufferCall α → Prop
  | .allocateAudioBuffer requestedSize mm =>
      s.2 = none ∧ mm (allocationSize requestedSize) ≠ .mapped 0
  | .allocateBufferWithNotification N _ mm => s.2 = none ∧ mm (askedSize N) ≠ .mapped 0
  | _ => True

/-- The buffer is a positive number of whole slots within the allocation. -/
structure Fits (stream : Streams W α) (allocatedSize : ULONG) (w : W) : Prop where
  whole : Whole (stream.bufferSize w) (stream.notificationCount w) (stream.packetSize w)
  le : (stream.bufferSize w).toNat ≤ allocatedSize.toNat

/-- A call that succeeds leaves a buffer that fits what was allocated. -/
def AllocatesWithin (stream : Streams W α) (pages : PagesInput) (r : NtStatus × W) : Prop :=
  r.1 = .success → ∃ allocatedSize, pages = .mapped allocatedSize ∧
    (allocatedSize ≠ 0 → stream.Fits allocatedSize r.2)

/-- What a stream that holds `held` knows about its sizes. -/
def Holds (stream : Streams W α) (held : Option ULONG) (w : W) : Prop :=
  match held with
  | none => stream.packetSize w = 0
  | some allocatedSize => allocatedSize ≠ 0 ∧ stream.Fits allocatedSize w

/-- The buffer routines do to the sizes what the source says. -/
structure Sizes (stream : Streams W α) : Prop where
  step : ∀ w a held, stream.Holds held w → stream.Holds held (stream.step w a)
  mapped : ∀ w requestedSize mm allocatedSize,
    mm (allocationSize requestedSize) = .mapped allocatedSize →
      Geometry allocatedSize (stream.bufferSize (stream.allocateBuffer requestedSize mm w).2)
        (stream.notificationCount (stream.allocateBuffer requestedSize mm w).2)
        (stream.packetSize (stream.allocateBuffer requestedSize mm w).2)
  unmapped : ∀ w requestedSize mm, mm (allocationSize requestedSize) = .unmapped →
    stream.packetSize (stream.allocateBuffer requestedSize mm w).2 = 0
  refused : ∀ w requestedSize mm, mm (allocationSize requestedSize) = .none →
    (stream.allocateBuffer requestedSize mm w).2 = w
  success : ∀ w requestedSize mm, (stream.allocateBuffer requestedSize mm w).1 = .success →
    ∃ allocatedSize, mm (allocationSize requestedSize) = .mapped allocatedSize
  freed : ∀ w, stream.packetSize (stream.freeAudioBuffer true w) = 0
  kept : ∀ w, stream.freeAudioBuffer false w = w
  freedWithNotification : ∀ w, stream.packetSize (stream.freeBufferWithNotification w) = 0
  tooMany : ∀ w N requestedSize mm, maxULONG.setWidth 64 < periodAlignedSize N →
    stream.allocateBufferWithNotification N requestedSize mm w = (.invalidBufferSize, w)
  /-- The fields are recomputed from the size, which changes none of them. -/
  same : ∀ w N requestedSize mm, ¬ maxULONG.setWidth 64 < periodAlignedSize N →
    stream.allocateBufferWithNotification N requestedSize mm w =
      stream.allocateBuffer ((periodAlignedSize N).setWidth 32) mm w

namespace Sizes

variable {held : Option ULONG} {s : W × Option ULONG} {w : W}

private theorem allocates_within (h : stream.Sizes) (requestedSize : ULONG) (mm : MemoryManager)
    (w : W) :
    stream.AllocatesWithin (mm (allocationSize requestedSize))
      (stream.allocateBuffer requestedSize mm w) := by
  intro hsuccess
  obtain ⟨allocatedSize, hmapped⟩ := h.success w requestedSize mm hsuccess
  refine ⟨allocatedSize, hmapped, fun hgrant => ?_⟩
  have hgeometry := h.mapped w requestedSize mm allocatedSize hmapped
  exact ⟨hgeometry.whole hgrant, hgeometry.fits⟩

private theorem notifying_within (h : stream.Sizes) (N requestedSize : ULONG) (mm : MemoryManager)
    (w : W) :
    stream.AllocatesWithin (mm (askedSize N))
      (stream.allocateBufferWithNotification N requestedSize mm w) := by
  by_cases hmany : maxULONG.setWidth 64 < periodAlignedSize N
  · rw [h.tooMany w N requestedSize mm hmany]
    intro hsuccess
    cases hsuccess
  · rw [h.same w N requestedSize mm hmany]
    exact h.allocates_within _ mm w

private theorem allocate_holds (h : stream.Sizes) {requestedSize : ULONG} {mm : MemoryManager}
    (hw : stream.Holds none w) (hgrant : mm (allocationSize requestedSize) ≠ .mapped 0) :
    stream.Holds (granted (mm (allocationSize requestedSize)) none)
      (stream.allocateBuffer requestedSize mm w).2 := by
  cases hpages : mm (allocationSize requestedSize) with
  | none =>
      rw [h.refused w requestedSize mm hpages]
      exact hw
  | unmapped => exact h.unmapped w requestedSize mm hpages
  | mapped allocatedSize =>
      have hne : allocatedSize ≠ 0 := by
        rintro rfl
        exact hgrant hpages
      have hgeometry := h.mapped w requestedSize mm allocatedSize hpages
      exact ⟨hne, hgeometry.whole hne, hgeometry.fits⟩

private theorem callStep_holds (h : stream.Sizes) (call : BufferCall α) (hs : stream.Holds s.2 s.1)
    (hcall : Disciplined s call) :
    stream.Holds (stream.callStep s call).2 (stream.callStep s call).1 := by
  cases call with
  | act a => exact h.step s.1 a s.2 hs
  | allocateAudioBuffer requestedSize mm =>
      obtain ⟨hnone, hgrant⟩ := hcall
      unfold callStep
      dsimp only
      rw [hnone] at hs ⊢
      exact h.allocate_holds hs hgrant
  | allocateBufferWithNotification N requestedSize mm =>
      obtain ⟨hnone, hgrant⟩ := hcall
      unfold callStep
      dsimp only
      rw [hnone] at hs ⊢
      split_ifs with hmany
      · rw [h.tooMany s.1 N requestedSize mm hmany]
        exact hs
      · rw [h.same s.1 N requestedSize mm hmany]
        exact h.allocate_holds hs hgrant
  | freeAudioBuffer current =>
      cases current with
      | true => exact h.freed s.1
      | false =>
          unfold callStep
          dsimp only
          rw [h.kept]
          exact hs
  | freeBufferWithNotification => exact h.freedWithNotification s.1

private theorem run_holds (h : stream.Sizes) {calls : List (BufferCall α)}
    (hcalls : Guarded stream.callStep Disciplined s calls) (hs : stream.Holds s.2 s.1) :
    stream.Holds (run stream.callStep s calls).2 (run stream.callStep s calls).1 :=
  hcalls.invariant (P := fun s => stream.Holds s.2 s.1)
    (fun _ call hs hcall => h.callStep_holds call hs hcall) hs

end Sizes

theorem Holds.congr {held : Option ULONG} {w w' : W} (h : stream.Holds held w)
    (hbuffer : stream.bufferSize w' = stream.bufferSize w)
    (hcount : stream.notificationCount w' = stream.notificationCount w)
    (hpacket : stream.packetSize w' = stream.packetSize w) : stream.Holds held w' := by
  cases held with
  | none => exact hpacket.trans h
  | some allocatedSize =>
      obtain ⟨hne, hwhole, hle⟩ := h
      refine ⟨hne, ?_, ?_⟩
      · rw [hbuffer, hcount, hpacket]
        exact hwhole
      · rw [hbuffer]
        exact hle

end Streams

open Streams

private theorem renderStream_sizes : renderStream.Sizes where
  step := by
    intro w a held h
    obtain ⟨hbuffer, hcount, hpacket, -⟩ := Render.step_sizes w a
    exact h.congr hbuffer hcount hpacket
  mapped := by
    intro w requestedSize mm allocatedSize hmapped
    have hcall : renderStream.allocateBuffer requestedSize mm w =
        Render.allocateAudioBuffer (mm (allocationSize requestedSize)) w := rfl
    rw [hcall, hmapped]
    exact geometry_granted allocatedSize
  unmapped := by
    intro w requestedSize mm hpages
    change (Render.allocateAudioBuffer _ w).2.packetSize = 0
    rw [hpages]
    rfl
  refused := by
    intro w requestedSize mm hpages
    change (Render.allocateAudioBuffer _ w).2 = w
    rw [hpages]
    rfl
  success := by
    intro w requestedSize mm hsuccess
    change (Render.allocateAudioBuffer _ w).1 = .success at hsuccess
    cases hpages : mm (allocationSize requestedSize) with
    | none =>
        rw [hpages] at hsuccess
        cases hsuccess
    | unmapped =>
        rw [hpages] at hsuccess
        cases hsuccess
    | mapped size => exact ⟨size, rfl⟩
  freed := fun _ => rfl
  kept := fun _ => rfl
  freedWithNotification := fun _ => rfl
  tooMany := fun _ _ _ _ hmany => if_pos hmany
  same := by
    intro w N requestedSize mm hmany
    change Render.allocateBufferWithNotification N requestedSize mm w =
      Render.allocateBuffer ((periodAlignedSize N).setWidth 32) mm w
    unfold Render.allocateBufferWithNotification
    rw [if_neg hmany]
    unfold Render.allocateBuffer Render.allocateAudioBuffer
    cases mm (allocationSize ((periodAlignedSize N).setWidth 32)) <;> rfl

private theorem captureStream_sizes : captureStream.Sizes where
  step := by
    intro w a held h
    obtain ⟨hbuffer, hsizes⟩ := Prod.mk.inj (Capture.step_does w a).sizes_eq
    obtain ⟨hcount, hpacket⟩ := Prod.mk.inj hsizes
    exact h.congr hbuffer hcount hpacket
  mapped := by
    intro w requestedSize mm allocatedSize hmapped
    have hcall : captureStream.allocateBuffer requestedSize mm w =
        Capture.allocateAudioBuffer (mm (allocationSize requestedSize)) w := rfl
    rw [hcall, hmapped]
    exact geometry_granted allocatedSize
  unmapped := by
    intro w requestedSize mm hpages
    change (Capture.allocateAudioBuffer _ w).2.packetSize = 0
    rw [hpages]
    rfl
  refused := by
    intro w requestedSize mm hpages
    change (Capture.allocateAudioBuffer _ w).2 = w
    rw [hpages]
    rfl
  success := by
    intro w requestedSize mm hsuccess
    change (Capture.allocateAudioBuffer _ w).1 = .success at hsuccess
    cases hpages : mm (allocationSize requestedSize) with
    | none =>
        rw [hpages] at hsuccess
        cases hsuccess
    | unmapped =>
        rw [hpages] at hsuccess
        cases hsuccess
    | mapped size => exact ⟨size, rfl⟩
  freed := fun _ => rfl
  kept := fun _ => rfl
  freedWithNotification := fun _ => rfl
  tooMany := fun _ _ _ _ hmany => if_pos hmany
  same := by
    intro w N requestedSize mm hmany
    change Capture.allocateBufferWithNotification N requestedSize mm w =
      Capture.allocateBuffer ((periodAlignedSize N).setWidth 32) mm w
    unfold Capture.allocateBufferWithNotification
    rw [if_neg hmany]
    unfold Capture.allocateBuffer Capture.allocateAudioBuffer
    cases mm (allocationSize ((periodAlignedSize N).setWidth 32)) <;> rfl

/-! ## The end-of-stream length -/

/-- With no buffer the packet size is zero, so a new buffer finds no old length. -/
private theorem render_callStep_eosFits {s : Render.World × Option ULONG}
    (call : BufferCall Render.Action) (hs : renderStream.Holds s.2 s.1) (hcall : Disciplined s call)
    (heos : Render.EosFits s.1) :
    Render.EosFits (renderStream.callStep s call).1 := by
  have hempty (hnone : s.2 = none) : s.1.eosPacketLength.toNat = 0 := by
    rw [hnone] at hs
    have hsize : s.1.packetSize = 0 := hs
    unfold Render.EosFits at heos
    rw [hsize] at heos
    exact Nat.le_zero.mp heos
  have hallocate (pages : PagesInput) (hzero : s.1.eosPacketLength.toNat = 0) :
      Render.EosFits (Render.allocateAudioBuffer pages s.1).2 := by
    cases pages with
    | none => exact heos
    | unmapped => exact Nat.zero_le _
    | mapped allocatedSize => exact hzero.trans_le (Nat.zero_le _)
  cases call with
  | act a => exact (Render.step_sizes s.1 a).2.2.2 heos
  | allocateAudioBuffer requestedSize mm => exact hallocate _ (hempty hcall.1)
  | allocateBufferWithNotification N requestedSize mm =>
      by_cases hmany : maxULONG.setWidth 64 < periodAlignedSize N
      · have hcallStep := renderStream_sizes.tooMany s.1 N requestedSize mm hmany
        unfold callStep
        dsimp only
        rw [hcallStep]
        exact heos
      · have hcallStep := renderStream_sizes.same s.1 N requestedSize mm hmany
        unfold callStep
        dsimp only
        rw [hcallStep]
        exact hallocate _ (hempty hcall.1)
  | freeAudioBuffer current =>
      cases current with
      | true => exact Nat.zero_le _
      | false => exact heos
  | freeBufferWithNotification => exact Nat.zero_le _

private theorem render_run_eosFits {s : Render.World × Option ULONG}
    {calls : List (BufferCall Render.Action)}
    (hcalls : Guarded renderStream.callStep Disciplined s calls)
    (hs : renderStream.Holds s.2 s.1) (heos : Render.EosFits s.1) :
    Render.EosFits (run renderStream.callStep s calls).1 :=
  (hcalls.invariant (P := fun s => renderStream.Holds s.2 s.1 ∧ Render.EosFits s.1)
    (fun _ call hs hcall => ⟨renderStream_sizes.callStep_holds call hs.1 hcall,
      render_callStep_eosFits call hs.1 hcall hs.2⟩) ⟨hs, heos⟩).2

/-! ## The bounds -/

/-- The steps of the size computation are exact: nothing wraps, and the casts lose nothing. -/
structure Exact : Prop where
  request : ∀ N : ULONG, (periodAlignedSize N).toNat = (if N = 0 then 16 else N.toNat) * 2048
  cast : ∀ N : ULONG, ¬ maxULONG.setWidth 64 < periodAlignedSize N →
    ((periodAlignedSize N).setWidth 32 : ULONG).toNat = (periodAlignedSize N).toNat
  usable : ∀ allocatedSize : ULONG,
    (Render.viosndNotificationCountFromBufferSize allocatedSize * defaultPeriodBytes).toNat =
        (Render.viosndNotificationCountFromBufferSize allocatedSize).toNat * 2048 ∨
      allocatedSize < defaultPeriodBytes
  offset : ∀ bufferSize count packetSize : ULONG, Whole bufferSize count packetSize →
    ∀ p : ULONG, (p % count * packetSize).toNat = p.toNat % count.toNat * packetSize.toNat

private theorem exact_sizes : Exact where
  request := by
    intro N
    split_ifs with hN
    · rw [hN]
      rfl
    · exact periodAlignedSize_toNat hN
  cast := by
    intro N hfits
    have hmax : (maxULONG.setWidth 64 : ULONGLONG).toNat = 2 ^ 32 - 1 := rfl
    rw [BitVec.lt_def, hmax] at hfits
    rw [BitVec.toNat_setWidth]
    exact Nat.mod_eq_of_lt (by omega)
  usable := by
    intro allocatedSize
    by_cases hshort : allocatedSize < defaultPeriodBytes
    · exact Or.inr hshort
    · have husable := usableBufferSize_toNat allocatedSize
      have hle := usableBufferSize_le allocatedSize
      have hcount := notificationCount_toNat allocatedSize
      unfold Render.viosndUsableBufferSizeFromAllocatedSize at husable
      rw [if_neg hshort] at husable
      have hlong : 2048 ≤ allocatedSize.toNat := Nat.le_of_not_lt hshort
      rw [husable, hcount, grantedPacketSize, Nat.min_eq_right hlong]
      exact Or.inl rfl
  offset := fun _ _ _ hwhole => slotOffset_toNat hwhole.bufferSize_eq hwhole.count_pos

/-- Whatever the routines of the stream have done since `w`, a submission stays in the buffer. -/
def SubmitsInside (w : Render.World) : Prop :=
  ∀ K v, Render.Does K w v → ∀ packetNumber packetLength,
    ∀ r ∈ Render.submitAccesses packetNumber packetLength v, r.Inside w.bufferSize.toNat

/-- Whatever the routines of the stream have done since `w`, a completion stays in the buffer. -/
def StoresInside (w : Capture.World) : Prop :=
  ∀ K v, Capture.Does K w v → ∀ packetNumber bytesRead,
    ∀ r ∈ Capture.storeAccesses packetNumber bytesRead v, r.Inside w.bufferSize.toNat

private theorem submitsInside {w : Render.World}
    (hwhole : Whole w.bufferSize w.notificationCount w.packetSize) (heos : Render.EosFits w) :
    SubmitsInside w := by
  intro K v h packetNumber packetLength
  obtain ⟨hcount, hpacket⟩ := Prod.mk.inj h.geometry_eq
  have hv : Whole v.bufferSize v.notificationCount v.packetSize := by
    rw [h.bufferSize_eq, hcount, hpacket]
    exact hwhole
  rw [← h.bufferSize_eq]
  exact Render.submitAccesses_inside hv (h.eosFits heos) packetNumber packetLength

private theorem storesInside {w : Capture.World}
    (hwhole : Whole w.bufferSize w.notificationCount w.packetSize) : StoresInside w := by
  intro K v h packetNumber bytesRead
  obtain ⟨hbuffer, hsizes⟩ := Prod.mk.inj h.sizes_eq
  obtain ⟨hcount, hpacket⟩ := Prod.mk.inj hsizes
  have hv : Whole v.bufferSize v.notificationCount v.packetSize := by
    rw [hbuffer, hcount, hpacket]
    exact hwhole
  rw [← hbuffer]
  exact Capture.storeAccesses_inside hv packetNumber bytesRead

/-- Every successful allocation leaves whole slots within what was allocated, and while an
allocation is held every access of a submission or a completion lies in the buffer. -/
theorem buffer_bounds (renderCalls : List (BufferCall Render.Action))
    (captureCalls : List (BufferCall Capture.Action))
    (hrender : Guarded renderStream.callStep Disciplined (.fresh none 0 0 0, none) renderCalls)
    (hcapture : Guarded captureStream.callStep Disciplined (.fresh none, none) captureCalls) :
    Exact ∧
    (∀ requestedSize mm w, renderStream.AllocatesWithin (mm (allocationSize requestedSize))
      (Render.allocateBuffer requestedSize mm w)) ∧
    (∀ N requestedSize mm w, renderStream.AllocatesWithin (mm (askedSize N))
      (Render.allocateBufferWithNotification N requestedSize mm w)) ∧
    (∀ requestedSize mm w, captureStream.AllocatesWithin (mm (allocationSize requestedSize))
      (Capture.allocateBuffer requestedSize mm w)) ∧
    (∀ N requestedSize mm w, captureStream.AllocatesWithin (mm (askedSize N))
      (Capture.allocateBufferWithNotification N requestedSize mm w)) ∧
    (∀ allocatedSize w,
      run renderStream.callStep (.fresh none 0 0 0, none) renderCalls = (w, some allocatedSize) →
        renderStream.Fits allocatedSize w ∧ SubmitsInside w) ∧
    (∀ allocatedSize w,
      run captureStream.callStep (.fresh none, none) captureCalls = (w, some allocatedSize) →
        captureStream.Fits allocatedSize w ∧ StoresInside w) := by
  refine ⟨exact_sizes, renderStream_sizes.allocates_within, renderStream_sizes.notifying_within,
    captureStream_sizes.allocates_within, captureStream_sizes.notifying_within, ?_, ?_⟩
  · intro allocatedSize w hrun
    have hfresh : renderStream.Holds none (.fresh none 0 0 0) := rfl
    have hholds := renderStream_sizes.run_holds hrender hfresh
    have heos := render_run_eosFits hrender hfresh (Nat.le_refl 0)
    rw [hrun] at hholds heos
    exact ⟨hholds.2, submitsInside hholds.2.whole heos⟩
  · intro allocatedSize w hrun
    have hfresh : captureStream.Holds none (.fresh none) := rfl
    have hholds := captureStream_sizes.run_holds hcapture hfresh
    rw [hrun] at hholds
    exact ⟨hholds.2, storesInside hholds.2.whole⟩

/-- A render stream is granted less than it asked for, a capture stream less than one period. -/
theorem buffer_bounds_partial :
    (∃ w : Render.World, w.bufferSize = 6144 ∧ SubmitsInside w) ∧
      (∃ w : Capture.World, w.bufferSize = 1000 ∧ StoresInside w) := by
  have hbounds := buffer_bounds
    [.allocateBufferWithNotification 8 0 fun _ => .mapped 8191, .act (.setWritePacket 3 true 17)]
    [.allocateAudioBuffer 4096 fun _ => .mapped 1000]
    ⟨⟨rfl, by simp⟩, trivial, trivial⟩ ⟨⟨rfl, by simp⟩, trivial⟩
  obtain ⟨-, -, -, -, -, hrender, hcapture⟩ := hbounds
  exact ⟨⟨_, rfl, (hrender 8191 _ rfl).2⟩, ⟨_, rfl, (hcapture 1000 _ rfl).2⟩⟩

end Viosnd.Buffer
