import Mathlib.Data.List.GetD
import Viosnd.Lib.Decimator
import Viosnd.Render.Period

/-!
# The fallback resampler over a period

Every fallback submission resamples the packets it takes into one destination and carries the
phase to the next. The blocks join without a seam as long as each destination has room for all the
frames its packets yield, and no block is dropped after its phase was carried over.
-/

namespace Viosnd.Render

open StepRun EffectSystem Decimator

/-! ## The resampler -/

/-- Frames `[frame, frame + n)` of a source. -/
def sourceFrames (source : Memory) (frame n : Nat) : List (List Byte) :=
  (List.range' frame n).map fun k => source.slice (4 * k) 4

/-- `ViosndDownsampleStereo16` on a whole source from the initial phase, with room for a frame for
every frame read. -/
def downsampleUnlimited (source : List Byte) : List Byte × ULONG :=
  downsampleLoop (fun k => source.getD k 0) fallbackSampleRate (source.length / 4) 0
    (source.length / 4) viosndFallbackInitialPhase

private theorem sourceFrames_add (source : Memory) (frame m n : Nat) :
    sourceFrames source frame (m + n) =
      sourceFrames source frame m ++ sourceFrames source (frame + m) n := by
  unfold sourceFrames
  rw [← List.range'_append_1, List.map_append]

@[simp] theorem sourceFrames_length (source : Memory) (frame n : Nat) :
    (sourceFrames source frame n).length = n := by
  simp [sourceFrames]

private theorem sourceFrames_congr (source other : Memory) (frame frame' n : Nat)
    (h : ∀ i < 4 * n, source (4 * frame + i) = other (4 * frame' + i)) :
    sourceFrames source frame n = sourceFrames other frame' n := by
  apply List.ext_getElem
  · simp
  · intro j hj hj'
    rw [sourceFrames_length] at hj
    simp only [sourceFrames, List.getElem_map, List.getElem_range'_1, Memory.slice]
    apply List.map_congr_left
    intro i hi
    rw [List.mem_range] at hi
    have hbyte := h (4 * j + i) (by omega)
    calc source (4 * (frame + j) + i)
        = source (4 * frame + (4 * j + i)) := by congr 1; omega
      _ = other (4 * frame' + (4 * j + i)) := hbyte
      _ = other (4 * (frame' + j) + i) := by congr 1; omega

/-- The loop is a decimator of the frames of its source. -/
theorem downsampleLoop_eq (source : Memory) (frames frame room : Nat) (phase : ULONG)
    (hphase : phase.toNat < 48000) :
    downsampleLoop source fallbackSampleRate frames frame room phase =
      ((decimateInto 16000 48000 room phase.toNat (sourceFrames source frame frames)).1.flatten,
        BitVec.ofNat 32
          (decimateInto 16000 48000 room phase.toNat (sourceFrames source frame frames)).2) := by
  induction frames generalizing frame room phase with
  | zero => cases room <;> simp [downsampleLoop, sourceFrames, decimateInto]
  | succ frames ih =>
      have hsplit : sourceFrames source frame (frames + 1) =
          source.slice (4 * frame) 4 :: sourceFrames source (frame + 1) frames := by
        unfold sourceFrames
        rw [List.range'_succ, List.map_cons]
      have hnext : (phase + fallbackSampleRate).toNat = phase.toNat + 16000 := by
        rw [BitVec.toNat_add]
        exact Nat.mod_eq_of_lt (by
          change phase.toNat + 16000 < 2 ^ 32
          omega)
      rw [hsplit]
      cases room with
      | zero => simp [downsampleLoop, decimateInto]
      | succ room =>
          simp only [downsampleLoop, decimateInto]
          by_cases hfull : defaultSampleRate ≤ phase + fallbackSampleRate
          · have hover : 48000 ≤ phase.toNat + 16000 := by
              rw [← hnext]
              exact hfull
            have hless : (phase + fallbackSampleRate - defaultSampleRate).toNat =
                phase.toNat + 16000 - 48000 := by
              rw [BitVec.toNat_sub_of_le hfull, hnext]
              rfl
            rw [if_pos hfull, if_pos hover, ih _ _ _ (by omega), hless]
            rfl
          · have hunder : ¬ 48000 ≤ phase.toNat + 16000 := by
              rw [← hnext]
              exact hfull
            rw [if_neg hfull, if_neg hunder, ih _ _ _ (by omega), hnext]

private theorem downsampleUnlimited_eq (source : List Byte) :
    (downsampleUnlimited source).1 = (decimate 16000 48000 32000
      (sourceFrames (fun k => source.getD k 0) 0 (source.length / 4))).1.flatten := by
  have hphase : viosndFallbackInitialPhase.toNat = 32000 := rfl
  unfold downsampleUnlimited
  rw [downsampleLoop_eq _ _ _ _ _ (by rw [hphase]; decide), hphase, decimateInto_eq]
  intro hsome
  have hpos := List.length_pos_of_ne_nil hsome
  rw [sourceFrames_length] at hpos ⊢
  omega

/-! ## Blocks -/

/-- A block may take the packet: the OS has written it, or never writes packets. -/
def TakesPacket (w : World) (packet : ULONG) : Prop :=
  w.lastOsWritePacket = maxULONG ∨
    viosndPacketNumberLessOrEqual packet w.lastOsWritePacket = true

instance (w : World) (packet : ULONG) : Decidable (TakesPacket w packet) :=
  inferInstanceAs (Decidable (_ ∨ _))

/-- How many of the next `n` packets the OS has published. -/
def publishedPackets (w : World) : Nat → ULONG → Nat
  | 0, _ => 0
  | n + 1, packet => if TakesPacket w packet then publishedPackets w n (packet + 1) + 1 else 0

def framesPerPacket (w : World) : Nat := w.packetSize.toNat / 4

def packetFrames (w : World) (memory : Memory) (packet : ULONG) : List (List Byte) :=
  sourceFrames (fun k => memory ((packetOffset packet w.notificationCount w.packetSize).toNat + k))
    0 (framesPerPacket w)

/-- Frames of the `n` packets from `first` on. -/
def blockFrames (w : World) (memory : Memory) (first : ULONG) (n : Nat) : List (List Byte) :=
  (packetsFrom first n).flatMap (packetFrames w memory)

/-- The block of `n` packets whose frames are all read. -/
def wholeBlock (w : World) (memory : Memory) (first phase : ULONG) (n : Nat) : FallbackBlock :=
  let r := decimate 16000 48000 phase.toNat (blockFrames w memory first n)
  { audio := r.1.flatten
    sourceLength := BitVec.ofNat 32 (n * w.packetSize.toNat)
    sources := packetsFrom first n
    phase := BitVec.ofNat 32 r.2 }

section

variable (w : World) (memory : Memory) (first : ULONG) {phase : ULONG}

private theorem blockFrames_succ (n : Nat) : blockFrames w memory first (n + 1) =
    blockFrames w memory first n ++ packetFrames w memory (first + BitVec.ofNat 32 n) := by
  unfold blockFrames
  rw [packetsFrom_succ, List.flatMap_append]
  simp

private theorem blockFrames_length (n : Nat) :
    (blockFrames w memory first n).length = n * framesPerPacket w := by
  induction n with
  | zero => simp [blockFrames]
  | succ n ih =>
      rw [blockFrames_succ, List.length_append, ih, packetFrames, sourceFrames_length,
        Nat.succ_mul]

private theorem length_of_mem_blockFrames {w : World} {memory : Memory} {first : ULONG} {n : Nat}
    {frame : List Byte} (h : frame ∈ blockFrames w memory first n) : frame.length = 4 := by
  unfold blockFrames packetFrames sourceFrames at h
  simp only [List.mem_flatMap, List.mem_map] at h
  obtain ⟨packet, -, k, -, rfl⟩ := h
  simp

private theorem wholeBlock_audio_length (phase : ULONG) (n : Nat) :
    (wholeBlock w memory first phase n).audio.length =
      4 * (decimate 16000 48000 phase.toNat (blockFrames w memory first n)).1.length := by
  have hkept : (decimate 16000 48000 phase.toNat (blockFrames w memory first n)).1.Sublist
      (blockFrames w memory first n) := decimate_sublist _
  unfold wholeBlock
  dsimp only
  rw [List.length_flatten]
  have hall : ∀ frame ∈ (decimate 16000 48000 phase.toNat (blockFrames w memory first n)).1,
      frame.length = 4 := fun frame hframe =>
    length_of_mem_blockFrames (hkept.subset hframe)
  rw [List.map_congr_left hall, List.map_const', List.sum_replicate, smul_eq_mul, Nat.mul_comm]

private theorem wholeBlock_total (hphase : phase.toNat < 48000) (n : Nat) :
    (wholeBlock w memory first phase n).phase.toNat =
        (decimate 16000 48000 phase.toNat (blockFrames w memory first n)).2 ∧
      (wholeBlock w memory first phase n).phase.toNat < 48000 ∧
      (wholeBlock w memory first phase n).phase.toNat + 48000 *
          (decimate 16000 48000 phase.toNat (blockFrames w memory first n)).1.length =
        phase.toNat + 16000 * (n * framesPerPacket w) := by
  obtain ⟨hlt, htotal⟩ := decimate_total (show 16000 ≤ 48000 by decide) hphase
    (blockFrames w memory first n)
  rw [blockFrames_length] at htotal
  have hread : (wholeBlock w memory first phase n).phase.toNat =
      (decimate 16000 48000 phase.toNat (blockFrames w memory first n)).2 := by
    unfold wholeBlock
    dsimp only
    rw [BitVec.toNat_ofNat]
    exact Nat.mod_eq_of_lt (by omega)
  rw [hread]
  exact ⟨rfl, hlt, htotal⟩

private theorem wholeBlock_pass (hphase : phase.toNat < 48000) (n : Nat)
    (hfit : framesPerPacket w ≠ 0 →
      phase.toNat + 16000 * ((n + 1) * framesPerPacket w - 1) < 48000 * 512) :
    let block := wholeBlock w memory first phase n
    let packet := first + BitVec.ofNat 32 n
    let r := viosndDownsampleStereo16 (fallbackPeriodBytes.toNat - block.audio.length)
      (fun k => memory ((packetOffset packet w.notificationCount w.packetSize).toNat + k))
      w.packetSize fallbackSampleRate block.phase
    wholeBlock w memory first phase (n + 1) =
      { audio := block.audio ++ r.1
        sourceLength := block.sourceLength + w.packetSize
        sources := block.sources ++ [packet]
        phase := r.2 } := by
  intro block packet r
  obtain ⟨hread, hlt, htotal⟩ := wholeBlock_total w memory first hphase n
  have haudio := wholeBlock_audio_length w memory first phase n
  generalize hkept : (decimate 16000 48000 phase.toNat
    (blockFrames w memory first n)).1.length = kept at htotal haudio
  have hroom : (fallbackPeriodBytes.toNat - block.audio.length) / 4 = 512 - kept := by
    have hbytes : fallbackPeriodBytes.toNat = 2048 := rfl
    rw [hbytes, haudio]
    omega
  have hr : r = ((decimate 16000 48000 block.phase.toNat (packetFrames w memory packet)).1.flatten,
      BitVec.ofNat 32
        (decimate 16000 48000 block.phase.toNat (packetFrames w memory packet)).2) := by
    change viosndDownsampleStereo16 _ _ _ _ _ = _
    unfold viosndDownsampleStereo16
    rw [if_neg (by decide), hroom, downsampleLoop_eq _ _ _ _ _ hlt, decimateInto_eq]
    · rfl
    · intro hsome
      have hpos := List.length_pos_of_ne_nil hsome
      rw [sourceFrames_length] at hpos ⊢
      have hsize : w.packetSize.toNat / 4 = framesPerPacket w := rfl
      rw [hsize] at hpos ⊢
      have hfit' := hfit (by omega)
      have hsum : (n + 1) * framesPerPacket w = n * framesPerPacket w + framesPerPacket w :=
        Nat.succ_mul _ _
      omega
  have hframes := blockFrames_succ w memory first n
  rw [hr]
  unfold wholeBlock
  dsimp only
  rw [hframes, decimate_append, hread, packetsFrom_succ, Nat.succ_mul]
  congr 1
  · rw [List.flatten_append]
    rfl
  · rw [BitVec.ofNat_add, BitVec.ofNat_toNat, BitVec.setWidth_eq]
    rfl

/-- A block whose destination has room for the frames of all published packets takes them whole. -/
private theorem fallbackBlock_whole (hphase : phase.toNat < 48000) (n m : Nat)
    (hfit : phase.toNat + 16000 * ((m + publishedPackets w n (first + BitVec.ofNat 32 m)) *
      framesPerPacket w - 1) < 48000 * 512)
    (hnoeos : w.eosPacketNumber ∉
      packetsFrom first (m + publishedPackets w n (first + BitVec.ofNat 32 m))) :
    fallbackBlock w memory first n (BitVec.ofNat 32 m) (wholeBlock w memory first phase m) =
      wholeBlock w memory first phase (m + publishedPackets w n (first + BitVec.ofNat 32 m)) := by
  induction n generalizing m with
  | zero => rfl
  | succ n ih =>
      by_cases htakes : TakesPacket w (first + BitVec.ofNat 32 m)
      · have hnext : first + BitVec.ofNat 32 m + 1 = first + BitVec.ofNat 32 (m + 1) := by
          rw [BitVec.ofNat_add, BitVec.add_assoc]
          rfl
        have hpublished : publishedPackets w (n + 1) (first + BitVec.ofNat 32 m) =
            publishedPackets w n (first + BitVec.ofNat 32 (m + 1)) + 1 := by
          rw [publishedPackets, if_pos htakes, hnext]
        rw [hpublished] at hfit hnoeos ⊢
        generalize hk : publishedPackets w n (first + BitVec.ofNat 32 (m + 1)) = k at *
        have hcount : m + (k + 1) = m + 1 + k := by omega
        rw [hcount] at hfit hnoeos ⊢
        have hsum : (m + 1 + k) * framesPerPacket w =
            (m + 1) * framesPerPacket w + k * framesPerPacket w := Nat.add_mul _ _ _
        have hsum' : (m + 1) * framesPerPacket w =
            m * framesPerPacket w + framesPerPacket w := Nat.succ_mul _ _
        have hpass := wholeBlock_pass w memory first hphase m fun _ => by omega
        obtain ⟨-, hlt, htotal⟩ := wholeBlock_total w memory first hphase m
        have hroom : (wholeBlock w memory first phase m).audio.length <
            fallbackPeriodBytes.toNat := by
          have hbytes : fallbackPeriodBytes.toNat = 2048 := rfl
          have hempty : framesPerPacket w = 0 → m * framesPerPacket w = 0 := by
            intro hzero
            rw [hzero, Nat.mul_zero]
          rw [wholeBlock_audio_length, hbytes]
          omega
        have hother : ¬ w.eosPacketNumber = first + BitVec.ofNat 32 m := by
          intro heos
          apply hnoeos
          rw [heos]
          unfold packetsFrom
          exact List.mem_map_of_mem (List.mem_range.mpr (by omega))
        have hbeyond : ¬ (w.lastOsWritePacket ≠ maxULONG ∧
            ¬ viosndPacketNumberLessOrEqual (first + BitVec.ofNat 32 m) w.lastOsWritePacket) := by
          rintro ⟨hlast, hnot⟩
          rcases htakes with hcyclic | hwritten
          · exact hlast hcyclic
          · exact hnot hwritten
        have hone : BitVec.ofNat 32 m + 1 = BitVec.ofNat 32 (m + 1) := by
          rw [BitVec.ofNat_add]
          rfl
        unfold fallbackBlock
        simp only [hroom, not_true_eq_false, if_false, hbeyond, hother, decide_false,
          Bool.false_eq_true]
        rw [← hpass, hone]
        rw [← hk] at hfit hnoeos ⊢
        exact ih (m + 1) hfit hnoeos
      · have hnone : publishedPackets w (n + 1) (first + BitVec.ofNat 32 m) = 0 := by
          rw [publishedPackets, if_neg htakes]
        rw [hnone]
        unfold TakesPacket at htakes
        rw [not_or] at htakes
        unfold fallbackBlock
        dsimp only
        rw [if_pos htakes, ite_self]
        rfl

end

/-! ## What a call reads and sends -/

def listFrames (source : List Byte) : List (List Byte) :=
  sourceFrames (fun k => source.getD k 0) 0 (source.length / 4)

def packetBytes (w : World) (packet : ULONG) : List Byte :=
  match w.buffer with
  | none => []
  | some memory =>
      memory.slice (packetOffset packet w.notificationCount w.packetSize).toNat
        w.packetSize.toNat

/-- The packets read and the audio sent by a fallback-mode `SubmitRenderPacket` call between the
two states; a call that does not succeed counts for nothing. -/
def fallbackCall (w w' : World) : List Byte × List Byte :=
  match w'.history with
  | .consumed packets :: .submitted entry :: older =>
      if w.renderFallbackActive = true ∧ older.length = w.history.length then
        (packets.flatMap (packetBytes w'), entry.audio)
      else ([], [])
  | _ => ([], [])

/-- The stream with what its fallback-mode calls have read and sent since the period began. -/
structure Session where
  stream : World
  source : List Byte
  audio : List Byte

/-- Only the submission loop calls `SubmitRenderPacket`. -/
def PeriodStep.submits : PeriodStep → Bool
  | .worker (.submit _) => true
  | .worker (.submitLate _) => true
  | _ => false

def sessionStep (r : Session) (s : PeriodStep) : Session :=
  let w' := periodStep r.stream s
  if s.submits then
    { stream := w'
      source := r.source ++ (fallbackCall r.stream w').1
      audio := r.audio ++ (fallbackCall r.stream w').2 }
  else { r with
    stream := w' }

/-! ## The condition -/

def publishedFrames (w : World) : Nat :=
  publishedPackets w 3 w.nextSubmitPacket * framesPerPacket w

/-- A fallback-mode call that goes on to make a block. -/
def BlockDue (w : World) : Prop :=
  w.renderFallbackActive = true ∧ w.outstandingWrites < w.targetOutstanding ∧
    TakesPacket w w.nextSubmitPacket ∧ w.buffer.isSome ∧ w.packetSize ≠ 0 ∧
    w.renderIoFreeCount ≠ 0 ∧ fallbackPeriodBytes ≤ w.renderFallbackBuffer.getD 0

/-- The destination has room until the last frame of the packets published: with 2048-byte packets,
a block of three packets starts at phase 0. Packets are whole frames, and none of the packets has
the number that stands for no packet. -/
def BlockFits (w : World) : Prop :=
  4 ∣ w.packetSize.toNat ∧
    w.renderFallbackPhase.toNat + 16000 * (publishedFrames w - 1) < 48000 * 512 ∧
    maxULONG ∉ packetsFrom w.nextSubmitPacket (publishedPackets w 3 w.nextSubmitPacket)

/-- A block that is made fits, and it is sent unless it leaves the phase where it was. -/
def SeamlessCall (w : World) (o : TxSubmit) : Prop :=
  BlockDue w → BlockFits w ∧
    (QueueTakes o fallbackPeriodBytes w ∨ 16000 * publishedFrames w % 48000 = 0)

def SeamlessStep (w : World) : PeriodStep → Prop
  | .worker (.submit o) => w.state = .run → SeamlessCall w o
  | .worker (.submitLate o) => SeamlessCall w o
  | _ => True

/-! ## Frames of bytes -/

@[simp] theorem listFrames_nil : listFrames [] = [] := rfl

private theorem listFrames_append (first second : List Byte) (hfirst : 4 ∣ first.length) :
    listFrames (first ++ second) = listFrames first ++ listFrames second := by
  obtain ⟨n, hn⟩ := hfirst
  have hcount : (first ++ second).length / 4 = first.length / 4 + second.length / 4 := by
    rw [List.length_append]
    omega
  unfold listFrames
  rw [hcount, sourceFrames_add]
  congr 1
  · apply sourceFrames_congr
    intro i hi
    rw [List.getD_append _ _ _ _ (by omega)]
  · apply sourceFrames_congr
    intro i hi
    rw [List.getD_append_right _ _ _ _ (by omega)]
    congr 1
    omega

section

variable {w w' : World} {memory : Memory}

private theorem listFrames_packetBytes (hbuffer : w.buffer = some memory) (packet : ULONG) :
    listFrames (packetBytes w packet) = packetFrames w memory packet := by
  unfold listFrames packetBytes packetFrames framesPerPacket
  rw [hbuffer]
  dsimp only
  rw [Memory.slice_length]
  apply sourceFrames_congr
  intro i hi
  have hlt : 4 * 0 + i < w.packetSize.toNat := by omega
  rw [List.getD_eq_getElem _ _ (by rwa [Memory.slice_length])]
  simp [Memory.slice]

private theorem packetBytes_length (hbuffer : w.buffer = some memory) (packet : ULONG) :
    (packetBytes w packet).length = w.packetSize.toNat := by
  unfold packetBytes
  rw [hbuffer]
  exact Memory.slice_length _ _ _

private theorem listFrames_block (hbuffer : w.buffer = some memory) (hsize : 4 ∣ w.packetSize.toNat)
    (first : ULONG) (n : Nat) :
    4 ∣ ((packetsFrom first n).flatMap (packetBytes w)).length ∧
      listFrames ((packetsFrom first n).flatMap (packetBytes w)) =
        blockFrames w memory first n := by
  induction n with
  | zero => simp [blockFrames]
  | succ n ih =>
      obtain ⟨hlength, hframes⟩ := ih
      rw [packetsFrom_succ, List.flatMap_append, blockFrames_succ]
      have hlast : [first + BitVec.ofNat 32 n].flatMap (packetBytes w) =
          packetBytes w (first + BitVec.ofNat 32 n) := by
        simp
      rw [hlast, listFrames_append _ _ hlength, hframes, listFrames_packetBytes hbuffer,
        List.length_append, packetBytes_length hbuffer]
      exact ⟨dvd_add hlength hsize, rfl⟩

/-! ## One call -/

/-- What the call sent is what it read, resampled from the phase before to the phase after. -/
structure Joins (w w' : World) : Prop where
  whole : 4 ∣ (fallbackCall w w').1.length
  audio : (fallbackCall w w').2 = (decimate 16000 48000 w.renderFallbackPhase.toNat
    (listFrames (fallbackCall w w').1)).1.flatten
  phase : w'.renderFallbackPhase.toNat = (decimate 16000 48000 w.renderFallbackPhase.toNat
    (listFrames (fallbackCall w w').1)).2

theorem Joins.nothing (hcall : fallbackCall w w' = ([], []))
    (hphase : w'.renderFallbackPhase = w.renderFallbackPhase) : Joins w w' := by
  constructor
  · rw [hcall]
    exact dvd_zero 4
  · rw [hcall]
    rfl
  · rw [hcall, hphase]
    rfl

private theorem fallbackCall_refused {w₀ : World} (hrefuse : Does {.refuse} w₀ w')
    (hhistory : w₀.history = w.history) : fallbackCall w w' = ([], []) := by
  have hnoted : w'.history = w.history ∨ ∃ io older, w'.history = .pooled io :: older := by
    refine hrefuse.invariant (P := fun w' => w'.history = w.history ∨
      ∃ io older, w'.history = .pooled io :: older) ?_ (Or.inl hhistory)
    intro k hk a b hR _
    rw [Finset.mem_singleton.mp hk] at hR
    cases hR with
    | refuse io => exact Or.inr ⟨io, a.history, rfl⟩
  unfold fallbackCall
  rcases hnoted with hsame | ⟨io, older, hpooled⟩
  · rw [hsame]
    split
    · rename_i packets entry older hw
      rw [if_neg]
      rintro ⟨-, hlength⟩
      rw [hw] at hlength
      simp only [List.length_cons] at hlength
      omega
    · rfl
  · rw [hpooled]

/-- The block of a fallback-mode call is a whole one when it fits. -/
private theorem makesBlock_whole {packetLength : ULONG} {block : FallbackBlock}
    (hsteady : InSession w) (hactive : w.renderFallbackActive = true)
    (hphase : w.renderFallbackPhase.toNat < 48000) (hfits : BlockFits w)
    (hlength : w.nextSubmitPacket ≠ maxULONG → packetLength = w.packetSize)
    (htakes : TakesPacket w w.nextSubmitPacket)
    (hmakes : MakesBlock w.nextSubmitPacket packetLength w memory block) :
    padded memory w.nextSubmitPacket packetLength w = w ∧
      block = wholeBlock w memory w.nextSubmitPacket w.renderFallbackPhase
        (publishedPackets w 3 w.nextSubmitPacket) := by
  obtain ⟨hbuffer, -, -, hblock⟩ := hmakes
  obtain ⟨-, hfit, hnumbers⟩ := hfits
  have hfirst : w.nextSubmitPacket ≠ maxULONG := by
    intro heq
    apply hnumbers
    have hpublished : publishedPackets w 3 w.nextSubmitPacket =
        publishedPackets w 2 (w.nextSubmitPacket + 1) + 1 := by
      rw [publishedPackets, if_pos htakes]
    rw [hpublished, ← heq]
    unfold packetsFrom
    refine List.mem_map.mpr ⟨0, List.mem_range.mpr (Nat.succ_pos _), ?_⟩
    exact BitVec.add_zero _
  have hpad : padSlot memory w w.nextSubmitPacket packetLength = memory := by
    unfold padSlot
    rw [hlength hfirst, if_neg (BitVec.lt_irrefl _)]
  have hsame : padded memory w.nextSubmitPacket packetLength w = w := by
    unfold padded
    rw [hpad, ← hbuffer]
  refine ⟨hsame, ?_⟩
  rw [hsame, hpad] at hblock
  have hzero : w.nextSubmitPacket + BitVec.ofNat 32 0 = w.nextSubmitPacket := BitVec.add_zero _
  have hwhole := fallbackBlock_whole w memory w.nextSubmitPacket hphase 3 0 (by
      rw [hzero, Nat.zero_add]
      exact hfit) (by
      rw [hzero, Nat.zero_add, hsteady.noEos]
      exact hnumbers)
  rw [hzero, Nat.zero_add] at hwhole
  have hstart : wholeBlock w memory w.nextSubmitPacket w.renderFallbackPhase 0 =
      ⟨[], 0, [], w.renderFallbackPhase⟩ := by
    simp [wholeBlock, blockFrames]
  rw [hstart] at hwhole
  unfold renderBlock at hblock
  rw [if_pos hactive] at hblock
  split at hblock
  · cases hblock
  · dsimp only at hblock
    split at hblock
    · cases hblock
    · rw [← hwhole]
      exact (Except.ok.inj hblock).symm

private theorem submitRenderPacket_joins (packetLength : ULONG) (o : TxSubmit)
    (hsteady : InSession w) (hactive : w.renderFallbackActive = true)
    (hphase : w.renderFallbackPhase.toNat < 48000)
    (hroom : w.outstandingWrites < w.targetOutstanding) (htakes : TakesPacket w w.nextSubmitPacket)
    (hlength : w.nextSubmitPacket ≠ maxULONG → packetLength = w.packetSize)
    (hcall : SeamlessCall w o) :
    Joins w (submitRenderPacket w.nextSubmitPacket packetLength o w).2 := by
  have hdue : ∀ memory block, MakesBlock w.nextSubmitPacket packetLength w memory block →
      BlockDue w := by
    rintro memory block ⟨hbuffer, hsize, hfree, hblock⟩
    refine ⟨hactive, hroom, htakes, by rw [hbuffer]; rfl, hsize, hfree, ?_⟩
    have hmode : (padded memory w.nextSubmitPacket packetLength w).renderFallbackActive = true :=
      hactive
    unfold renderBlock at hblock
    rw [if_pos hmode] at hblock
    split at hblock
    · cases hblock
    · rename_i hlarge
      exact BitVec.not_lt.mp hlarge
  rcases submitRenderPacket_sends w.nextSubmitPacket packetLength o w with
    ⟨memory, block, entry, w₀, hw₀, hmakes, hsends, -, heq⟩ |
    ⟨buffer, phase, hchanged, status, -, w', hrefuse, heq⟩
  · have hfits := (hcall (hdue memory block hmakes)).1
    obtain ⟨hsame, hblock⟩ := makesBlock_whole hsteady hactive hphase hfits hlength htakes hmakes
    obtain ⟨hread, -, -⟩ := wholeBlock_total w memory w.nextSubmitPacket hphase
      (publishedPackets w 3 w.nextSubmitPacket)
    rw [heq]
    rw [hsame] at hw₀
    have hcalled : fallbackCall w (sendBlock block entry w₀) =
        ((packetsFrom w.nextSubmitPacket (publishedPackets w 3 w.nextSubmitPacket)).flatMap
          (packetBytes w), block.audio) := by
      unfold fallbackCall sendBlock
      dsimp only
      rw [hw₀, if_pos ⟨hactive, rfl⟩, hsends.audio, hblock]
      rfl
    obtain ⟨hwhole, hframes⟩ := listFrames_block hmakes.1 hfits.1 w.nextSubmitPacket
      (publishedPackets w 3 w.nextSubmitPacket)
    constructor
    · rw [hcalled]
      exact hwhole
    · rw [hcalled, hframes, hblock]
      rfl
    · rw [hcalled, hframes, ← hread, ← hblock, hw₀]
      rfl
  · rw [heq]
    refine Joins.nothing (fallbackCall_refused hrefuse rfl) ?_
    have hkept : w'.renderFallbackPhase = phase :=
      phase_of_fields (hrefuse.sessionFields_eq (by decide))
    rw [hkept]
    rcases hchanged with hsame | ⟨memory, block, hmakes, hsame, hnot⟩
    · exact hsame
    · obtain ⟨hfits, htaken⟩ := hcall (hdue memory block hmakes)
      obtain ⟨-, hblock⟩ := makesBlock_whole hsteady hactive hphase hfits hlength htakes hmakes
      obtain ⟨hread, hlt, htotal⟩ := wholeBlock_total w memory w.nextSubmitPacket hphase
        (publishedPackets w 3 w.nextSubmitPacket)
      rw [← hblock] at hread hlt htotal
      rw [hsame]
      have haround : 16000 * publishedFrames w % 48000 = 0 := by
        rcases htaken with ⟨hqueued, io, htop, hlong⟩ | haround
        · refine absurd ⟨hqueued, io, htop, le_trans (Nat.add_le_add_left ?_ _) hlong⟩ hnot
          have hbytes : fallbackPeriodBytes.toNat = 2048 := rfl
          have hshort : block.audio.length ≤ 2048 := by
            have hfit := hfits.2.1
            unfold publishedFrames at hfit
            rw [hblock, wholeBlock_audio_length]
            rw [hblock] at htotal
            omega
          unfold blockLength
          rw [if_pos hactive, hbytes, BitVec.toNat_ofNat]
          exact (Nat.mod_le _ _).trans hshort
        · exact haround
      apply BitVec.eq_of_toNat_eq
      unfold publishedFrames at haround
      omega

private theorem fallbackCall_self (w : World) : fallbackCall w w = ([], []) :=
  fallbackCall_refused (Within.refl w) rfl

private theorem fallbackCall_inactive (hinactive : w.renderFallbackActive = false) :
    fallbackCall w w' = ([], []) := by
  unfold fallbackCall
  split
  · rw [if_neg]
    rintro ⟨hactive, -⟩
    rw [hinactive] at hactive
    cases hactive
  · rfl

private theorem submitNext_joins (o : TxSubmit) (hsteady : InSession w)
    (hactive : w.renderFallbackActive = true) (hphase : w.renderFallbackPhase.toNat < 48000)
    (hroom : w.outstandingWrites < w.targetOutstanding) (hcall : SeamlessCall w o) :
    Joins w (submitNext o w).2 := by
  rcases submitNext_cases o hsteady with ⟨packetLength, hnext, hlength, heq⟩ | heq
  · have htakes : TakesPacket w w.nextSubmitPacket := by
      rcases hnext with hwritable | hcyclic
      · simp only [viosndHasWritableRenderPacket, Bool.and_eq_true] at hwritable
        exact Or.inr hwritable.2
      · exact Or.inl hcyclic
    rw [heq]
    exact submitRenderPacket_joins packetLength o hsteady hactive hphase hroom htakes hlength hcall
  · rw [heq]
    exact Joins.nothing (fallbackCall_self w) rfl

/-- A step of the submission loop, made with or without the test of `m_State`. -/
private theorem submits_joins (s : PeriodStep) (hs : s.submits = true) (hsteady : InSession w)
    (hactive : w.renderFallbackActive = true) (hphase : w.renderFallbackPhase.toNat < 48000)
    (hstep : SeamlessStep w s) : Joins w (periodStep w s) := by
  have hsame : Joins w w := Joins.nothing (fallbackCall_self w) rfl
  cases s with
  | worker s =>
      cases s with
      | submit o =>
          change Joins w (submitPass o w).2
          unfold submitPass
          split
          · rename_i hpass
            exact submitNext_joins o hsteady hactive hphase hpass.2 (hstep hpass.1)
          · exact hsame
      | submitLate o =>
          change Joins w (submitLate o w)
          unfold submitLate
          split
          · rename_i hroom
            exact submitNext_joins o hsteady hactive hphase hroom hstep
          · exact hsame
      | _ => cases hs
  | _ => cases hs

private theorem submits_active (s : PeriodStep) (hs : s.submits = true) (hsteady : InSession w) :
    (periodStep w s).renderFallbackActive = w.renderFallbackActive := by
  cases s with
  | worker s =>
      cases s with
      | submit o => exact (submitPass_steady o hsteady).2
      | submitLate o => exact (submitLate_steady o hsteady).2
      | _ => cases hs
  | _ => cases hs

end

/-! ## The period -/

/-- What was sent is what was read, resampled from the initial phase to the phase carried. -/
structure Seamless (r : Session) : Prop where
  steady : InSession r.stream
  whole : 4 ∣ r.source.length
  audio : r.audio = (decimate 16000 48000 32000 (listFrames r.source)).1.flatten
  phase : r.stream.renderFallbackActive = true → r.stream.renderFallbackPhase.toNat =
    (decimate 16000 48000 32000 (listFrames r.source)).2
  unused : r.stream.renderFallbackActive = false → r.source = []

section

variable {r : Session}

theorem Seamless.submits (h : Seamless r) (s : PeriodStep) (hs : s.submits = true)
    (hstep : SeamlessStep r.stream s) : Seamless (sessionStep r s) := by
  have hmode := submits_active s hs h.steady
  unfold sessionStep
  rw [if_pos hs]
  cases hactive : r.stream.renderFallbackActive with
  | false =>
      have hnothing : fallbackCall r.stream (periodStep r.stream s) = ([], []) :=
        fallbackCall_inactive hactive
      have hempty := h.unused hactive
      refine ⟨periodStep_steady s h.steady, ?_, ?_, fun hyes => ?_, fun _ => ?_⟩
      · rw [hnothing, List.append_nil]
        exact h.whole
      · rw [hnothing, List.append_nil, List.append_nil]
        exact h.audio
      · change (periodStep r.stream s).renderFallbackActive = true at hyes
        rw [hmode, hactive] at hyes
        cases hyes
      · rw [hnothing, List.append_nil]
        exact hempty
  | true =>
      have hphase := h.phase hactive
      have hlt : r.stream.renderFallbackPhase.toNat < 48000 := by
        rw [hphase]
        exact (decimate_total (by decide) (by decide) _).1
      obtain ⟨hwhole, haudio, hnext⟩ := submits_joins s hs h.steady hactive hlt hstep
      refine ⟨periodStep_steady s h.steady, ?_, ?_, fun _ => ?_, fun hno => ?_⟩
      · rw [List.length_append]
        exact dvd_add h.whole hwhole
      · rw [listFrames_append _ _ h.whole, decimate_append, List.flatten_append, ← hphase,
          ← h.audio, ← haudio]
      · rw [listFrames_append _ _ h.whole, decimate_append, ← hphase]
        exact hnext
      · change (periodStep r.stream s).renderFallbackActive = false at hno
        rw [hmode, hactive] at hno
        cases hno

private theorem periodStep_phase (s : PeriodStep) (hs : ¬ s.submits = true)
    (h : InSession r.stream) :
    (r.stream.renderFallbackActive = true →
        (periodStep r.stream s).renderFallbackActive = true ∧
          (periodStep r.stream s).renderFallbackPhase = r.stream.renderFallbackPhase) ∧
      (r.stream.renderFallbackActive = false →
        (periodStep r.stream s).renderFallbackActive = true →
          (periodStep r.stream s).renderFallbackPhase = viosndFallbackInitialPhase) := by
  by_cases htunes : s.Tunes
  · cases s with
    | worker s =>
        cases s with
        | maybeSwitch qpc i =>
            refine ⟨fun hactive => ?_, fun hinactive => ?_⟩
            · simp only [periodStep, workerStep, maybeSwitchRenderFallback_active qpc i h hactive]
              exact ⟨hactive, trivial⟩
            · exact (maybeSwitchRenderFallback_steady qpc i h hinactive).2
        | submit => exact absurd rfl hs
        | submitLate => exact absurd rfl hs
        | _ => exact htunes.elim
    | _ => exact htunes.elim
  · have hfields := periodStep_fields s h htunes
    have hmode := active_of_fields hfields
    refine ⟨fun hactive => ⟨hmode.trans hactive, phase_of_fields hfields⟩, fun hinactive hyes => ?_⟩
    rw [hmode, hinactive] at hyes
    cases hyes

theorem Seamless.step (h : Seamless r) (s : PeriodStep) (hstep : SeamlessStep r.stream s) :
    Seamless (sessionStep r s) := by
  by_cases hs : s.submits = true
  · exact h.submits s hs hstep
  · obtain ⟨hstays, henters⟩ := periodStep_phase s hs h.steady
    unfold sessionStep
    rw [if_neg hs]
    refine ⟨periodStep_steady s h.steady, h.whole, h.audio, fun hyes => ?_, fun hno => ?_⟩
    · cases hactive : r.stream.renderFallbackActive with
      | true =>
          change (periodStep r.stream s).renderFallbackPhase.toNat = _
          rw [(hstays hactive).2]
          exact h.phase hactive
      | false =>
          change (periodStep r.stream s).renderFallbackPhase.toNat = _
          rw [henters hactive hyes, h.unused hactive]
          rfl
    · apply h.unused
      by_contra hactive
      have hstill := (hstays ((Bool.not_eq_false _).mp hactive)).1
      change (periodStep r.stream s).renderFallbackActive = false at hno
      rw [hstill] at hno
      cases hno

theorem Seamless.run (h : Seamless r) (steps : List PeriodStep)
    (hsteps : Guarded periodStep SeamlessStep r.stream steps) :
    Seamless (run sessionStep r steps) := by
  induction steps generalizing r with
  | nil => exact h
  | cons s steps ih =>
      have hstream : (sessionStep r s).stream = periodStep r.stream s := by
        unfold sessionStep
        split <;> rfl
      apply ih (h.step s hsteps.1)
      rw [hstream]
      exact hsteps.2

end

/-- As long as every fallback block fits its destination and none is dropped, the audio of a period
is the audio of one pass over everything the period has read. -/
theorem run_seamless (start : World) (i : SetStateInput) (steps : List PeriodStep)
    (hidle : start.state ≠ .run) (heos : start.eosPacketNumber = maxULONG)
    (hok : (setState .run i start).1 = .success)
    (hsteps : Guarded periodStep SeamlessStep (setState .run i start).2 steps) :
    let r := run sessionStep ⟨(setState .run i start).2, [], []⟩ steps
    r.audio = (downsampleUnlimited r.source).1 := by
  intro r
  obtain ⟨hsteady, hinactive⟩ := setState_run_steady i hidle heos hok
  have hbegin : Seamless ⟨(setState .run i start).2, [], []⟩ :=
    ⟨hsteady, dvd_zero 4, by simp, fun hyes => absurd hyes (by simp [hinactive]), fun _ => rfl⟩
  have hend := hbegin.run steps hsteps
  rw [downsampleUnlimited_eq]
  exact hend.audio

def numberedFrames : Memory := fun k => BitVec.ofNat 8 (k / 4)

/-- The fallback, then two packets in one block and the next two in another. -/
theorem run_seamless_twoBlocks :
    let start := World.fresh (some numberedFrames) 32768 16 2048
    let r := run sessionStep ⟨(setState .run (.granted 1) start).2, [], []⟩
      [.worker (.maybeSwitch 10 (.granted 10)),
        .worker (.maybeSwitch 25000010 (.granted 25000010)), .setWritePacket 0 0,
        .setWritePacket 1 0, .worker .chooseTarget, .worker (.reclaim (.used 0)),
        .worker (.submit .queued), .setWritePacket 3 0, .worker (.reclaim (.used 0)),
        .worker (.submit .queued)]
    r.audio = (downsampleUnlimited r.source).1 := by
  refine run_seamless (World.fresh (some numberedFrames) 32768 16 2048) (.granted 1) _ (by decide)
    rfl (by decide +kernel) ?_
  refine ⟨trivial, trivial, trivial, trivial, trivial, trivial, fun _ _ => ⟨⟨?_, ?_, ?_⟩, ?_⟩,
    trivial, trivial, fun _ _ => ⟨⟨?_, ?_, ?_⟩, ?_⟩, trivial⟩
  pick_goal 4
  · exact Or.inl ⟨rfl, ⟨10, 2052⟩, ⟨by decide +kernel, by decide +kernel⟩, by decide +kernel⟩
  pick_goal 7
  · exact Or.inl ⟨rfl, ⟨11, 2052⟩, ⟨by decide +kernel, by decide +kernel⟩, by decide +kernel⟩
  all_goals decide +kernel

/-- Two blocks of three packets each: the first stops two frames early, at the wrong phase. -/
theorem run_not_seamless :
    let start := World.fresh (some numberedFrames) 32768 16 2048
    let r := run sessionStep ⟨(setState .run (.granted 1) start).2, [], []⟩
      [.worker (.maybeSwitch 10 (.granted 10)),
        .worker (.maybeSwitch 25000010 (.granted 25000010)), .setWritePacket 0 0,
        .setWritePacket 5 0, .worker .chooseTarget, .worker (.reclaim (.used 0)),
        .worker (.submit .queued), .worker (.reclaim (.used 0)), .worker (.submit .queued)]
    (setState .run (.granted 1) start).1 = .success ∧
      r.audio ≠ (downsampleUnlimited r.source).1 := by
  intro start r
  refine ⟨by decide +kernel, fun heq => ?_⟩
  have hframe := congrArg (fun audio => audio[2048]?) heq
  exact absurd hframe (by decide +kernel)

end Viosnd.Render
