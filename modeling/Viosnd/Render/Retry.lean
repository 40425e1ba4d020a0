import Viosnd.Render.Resample
import Viosnd.Render.Tuning

/-!
# Submissions that fail

A submission the queue refuses puts its buffer back into the pool. In the fallback mode the phase of
the resampler was stored before, and stays where the refused block left it.
-/

namespace Viosnd.Render

open StepRun EffectSystem Decimator

/-! ## What a call that fails leaves -/

/-- The call changed nothing but the padding of its slot, and a retry that succeeds sends what the
call would have sent. -/
structure SideEffectFree (attempt : TxSubmit → World → NtStatus × World) (o : TxSubmit)
    (w : World) : Prop where
  renderIoPool : (attempt o w).2.renderIoPool = w.renderIoPool
  renderIoFreeCount : (attempt o w).2.renderIoFreeCount = w.renderIoFreeCount
  outstandingWrites : (attempt o w).2.outstandingWrites = w.outstandingWrites
  nextSubmitPacket : (attempt o w).2.nextSubmitPacket = w.nextSubmitPacket
  position : (attempt o w).2.position = w.position
  renderPrerollPackets : (attempt o w).2.renderPrerollPackets = w.renderPrerollPackets
  renderFallbackPhase : (attempt o w).2.renderFallbackPhase = w.renderFallbackPhase
  retry : ∀ again, (attempt again (attempt o w).2).1 = .success →
    (attempt .queued w).1 = .success ∧
      (attempt again (attempt o w).2).2.txQueue = (attempt .queued w).2.txQueue

private theorem SideEffectFree.of_left {attempt : TxSubmit → World → NtStatus × World}
    {o : TxSubmit} {w : World} (buffer : Option Memory) (history : List Event)
    (hleft : (attempt o w).2 = { w with
      buffer := buffer
      history := history })
    (hretry : ∀ again, (attempt again { w with
        buffer := buffer
        history := history }).1 = .success →
      (attempt .queued w).1 = .success ∧ (attempt again { w with
        buffer := buffer
        history := history }).2.txQueue = (attempt .queued w).2.txQueue) :
    SideEffectFree attempt o w := by
  refine ⟨?_, ?_, ?_, ?_, ?_, ?_, ?_, ?_⟩
  all_goals rw [hleft]
  exact hretry

/-- Source frames of the packets a fallback block may take, `n` packets to go. -/
def sourceFrameCount (w : World) : ℕ → ULONG → ℕ
  | 0, _ => 0
  | n + 1, packet =>
      if TakesPacket w packet then
        if w.eosPacketNumber = packet then w.eosPacketLength.toNat / 4
        else w.packetSize.toNat / 4 + sourceFrameCount w n (packet + 1)
      else 0

/-- Sixteen thousand for every source frame, on top of the phase. -/
def phaseTotal (packetNumber : ULONG) (w : World) : ℕ :=
  w.renderFallbackPhase.toNat + 16000 * sourceFrameCount w 3 packetNumber

/-- A fallback block that is made ends at the phase it started from: it is empty and not sent, or it
takes a multiple of three frames, or it fills its 512 frames from a phase below the rate. -/
def KeepsPhase (packetNumber : ULONG) (w : World) : Prop :=
  w.buffer ≠ none → w.packetSize ≠ 0 → w.renderIoFreeCount ≠ 0 → w.renderFallbackActive = true →
    fallbackPeriodBytes ≤ w.renderFallbackBuffer.getD 0 →
      phaseTotal packetNumber w < 48000 ∨
        (phaseTotal packetNumber w < 48000 * 512 ∧ 3 ∣ sourceFrameCount w 3 packetNumber) ∨
        (48000 * 512 ≤ phaseTotal packetNumber w ∧ w.renderFallbackPhase.toNat < 16000)

/-! ## The phase of a block -/

/-- Frames in the destination after `n` source frames from the phase. -/
def blockKept (phase n : ℕ) : ℕ := min 512 ((phase + 16000 * n) / 48000)

/-- The phase after `n` source frames, those without room not read. -/
def blockPhase (phase n : ℕ) : ℕ :=
  if phase + 16000 * n < 48000 * 512 then (phase + 16000 * n) % 48000 else phase % 16000

private theorem blockPhase_lt (phase n : ℕ) : blockPhase phase n < 48000 := by
  unfold blockPhase
  split
  · exact Nat.mod_lt _ (by decide)
  · exact (Nat.mod_lt _ (by decide)).trans (by decide)

private theorem block_full {phase n : ℕ} (hfull : blockKept phase n = 512) (m : ℕ) :
    blockKept phase (n + m) = 512 ∧ blockPhase phase (n + m) = blockPhase phase n := by
  unfold blockKept at hfull ⊢
  unfold blockPhase
  have htotal : 48000 * 512 ≤ phase + 16000 * n := by omega
  refine ⟨by omega, ?_⟩
  rw [if_neg (by omega), if_neg (by omega)]

private theorem block_pass {α : Type*} {phase n : ℕ} (hroom : blockKept phase n < 512)
    (frames : List α) :
    let r := decimateInto 16000 48000 (512 - blockKept phase n) (blockPhase phase n) frames
    blockKept phase n + r.1.length = blockKept phase (n + frames.length) ∧
      r.2 = blockPhase phase (n + frames.length) := by
  intro r
  have hunder : phase + 16000 * n < 48000 * 512 := by
    unfold blockKept at hroom
    omega
  have hphase : blockPhase phase n = (phase + 16000 * n) % 48000 := if_pos hunder
  have hkept : blockKept phase n = (phase + 16000 * n) / 48000 := by
    unfold blockKept
    omega
  have hlt : blockPhase phase n < 48000 := blockPhase_lt phase n
  by_cases hfits : phase + 16000 * (n + frames.length) < 48000 * 512
  · obtain ⟨hend, htotal⟩ := decimate_total (show 16000 ≤ 48000 by decide) hlt frames
    have hr : r = decimate 16000 48000 (blockPhase phase n) frames := by
      refine decimateInto_eq _ frames fun hsome => ?_
      omega
    rw [← hr] at hend htotal
    refine ⟨?_, ?_⟩
    · unfold blockKept at hkept ⊢
      omega
    · have hwhole : blockPhase phase (n + frames.length) =
          (phase + 16000 * (n + frames.length)) % 48000 := if_pos hfits
      rw [hwhole]
      omega
  · obtain ⟨hlength, hend⟩ := decimateInto_full (show 16000 ∣ 48000 by decide) hlt
      (show 512 - blockKept phase n ≠ 0 by omega) frames (by omega)
    refine ⟨?_, ?_⟩
    · rw [hlength]
      unfold blockKept
      omega
    · rw [hend, hphase]
      unfold blockPhase
      rw [if_neg hfits]
      omega

section

variable {w : World} {memory : Memory} {packetNumber : ULONG} {phase : ℕ}

/-- The block took `n` source frames from the phase on. -/
structure Took (phase n : ℕ) (block : FallbackBlock) : Prop where
  audio : block.audio.length = 4 * blockKept phase n
  phase : block.phase.toNat = blockPhase phase n

theorem Took.pass {n : ℕ} {block : FallbackBlock} (h : Took phase n block)
    (hroom : block.audio.length < fallbackPeriodBytes.toNat) (source : Memory)
    (sourceLength : ULONG) :
    let r := viosndDownsampleStereo16 (fallbackPeriodBytes.toNat - block.audio.length) source
      sourceLength fallbackSampleRate block.phase
    (block.audio ++ r.1).length = 4 * blockKept phase (n + sourceLength.toNat / 4) ∧
      r.2.toNat = blockPhase phase (n + sourceLength.toNat / 4) := by
  intro r
  have hbytes : fallbackPeriodBytes.toNat = 2048 := rfl
  have haudio := h.audio
  have hlt : block.phase.toNat < 48000 := h.phase ▸ blockPhase_lt phase n
  have hfree : (fallbackPeriodBytes.toNat - block.audio.length) / 4 = 512 - blockKept phase n := by
    omega
  have hpass := block_pass (show blockKept phase n < 512 by omega)
    (sourceFrames source 0 (sourceLength.toNat / 4))
  rw [sourceFrames_length, ← h.phase] at hpass
  obtain ⟨hlength, hend⟩ := hpass
  have hr : r = ((decimateInto 16000 48000 (512 - blockKept phase n) block.phase.toNat
      (sourceFrames source 0 (sourceLength.toNat / 4))).1.flatten,
      BitVec.ofNat 32 (decimateInto 16000 48000 (512 - blockKept phase n) block.phase.toNat
        (sourceFrames source 0 (sourceLength.toNat / 4))).2) := by
    change viosndDownsampleStereo16 _ _ _ _ _ = _
    unfold viosndDownsampleStereo16
    rw [if_neg (by decide), hfree]
    exact downsampleLoop_eq _ _ _ _ _ hlt
  generalize hkept : decimateInto 16000 48000 (512 - blockKept phase n) block.phase.toNat
    (sourceFrames source 0 (sourceLength.toNat / 4)) = kept at hr hlength hend
  have hfour : ∀ frame ∈ kept.1, frame.length = 4 := by
    have hsub : kept.1.Sublist (sourceFrames source 0 (sourceLength.toNat / 4)) :=
      hkept ▸ decimateInto_sublist _ _
    intro frame hframe
    obtain ⟨k, -, rfl⟩ := List.mem_map.mp (hsub.subset hframe)
    exact Memory.slice_length _ _ _
  have hflat : kept.1.flatten.length = 4 * kept.1.length := by
    rw [List.length_flatten, List.map_congr_left hfour, List.map_const', List.sum_replicate,
      smul_eq_mul, Nat.mul_comm]
  rw [hr]
  refine ⟨?_, ?_⟩
  · rw [List.length_append, haudio]
    dsimp only
    rw [hflat]
    omega
  · have hsmall := blockPhase_lt phase (n + sourceLength.toNat / 4)
    dsimp only
    rw [hend, BitVec.toNat_ofNat]
    exact Nat.mod_eq_of_lt (by omega)

private theorem fallbackBlock_took (passes n : ℕ) (i : ULONG) (block : FallbackBlock)
    (h : Took phase n block) :
    Took phase (n + sourceFrameCount w passes (packetNumber + i))
      (fallbackBlock w memory packetNumber passes i block) := by
  induction passes generalizing n i block with
  | zero => exact h
  | succ passes ih =>
      unfold fallbackBlock
      dsimp only
      split
      · rename_i hfull
        have hbytes : fallbackPeriodBytes.toNat = 2048 := rfl
        have haudio := h.audio
        have hkept : blockKept phase n = 512 := by
          have hle : blockKept phase n ≤ 512 := min_le_left _ _
          omega
        obtain ⟨hstill, hphase⟩ := block_full hkept
          (sourceFrameCount w (passes + 1) (packetNumber + i))
        exact ⟨by rw [hstill, h.audio, hkept], by rw [hphase, h.phase]⟩
      rename_i hroom
      split
      · rename_i hbeyond
        have hnone : ¬ TakesPacket w (packetNumber + i) := by
          rintro (hcyclic | hwritten)
          · exact hbeyond.1 hcyclic
          · exact hbeyond.2 hwritten
        unfold sourceFrameCount
        rw [if_neg hnone]
        exact h
      rename_i hbeyond
      have htakes : TakesPacket w (packetNumber + i) := by
        by_cases hcyclic : w.lastOsWritePacket = maxULONG
        · exact Or.inl hcyclic
        · by_contra hnot
          refine hbeyond ⟨hcyclic, fun hwritten => hnot (Or.inr hwritten)⟩
      have hnext : packetNumber + (i + 1) = packetNumber + i + 1 := by
        rw [BitVec.add_assoc]
      unfold sourceFrameCount
      rw [if_pos htakes]
      by_cases heos : w.eosPacketNumber = packetNumber + i
      · obtain ⟨haudio, hphase⟩ := h.pass (not_not.mp hroom)
          (fun k => memory ((packetOffset (packetNumber + i) w.notificationCount
            w.packetSize).toNat + k)) w.eosPacketLength
        rw [if_pos heos]
        simp only [heos, decide_true, if_true]
        exact ⟨haudio, hphase⟩
      · obtain ⟨haudio, hphase⟩ := h.pass (not_not.mp hroom)
          (fun k => memory ((packetOffset (packetNumber + i) w.notificationCount
            w.packetSize).toNat + k)) w.packetSize
        rw [if_neg heos, ← hnext, ← Nat.add_assoc]
        simp only [heos, decide_false, Bool.false_eq_true, if_false]
        exact ih (n + w.packetSize.toNat / 4) (i + 1) _ ⟨haudio, hphase⟩

private theorem renderBlock_fallback (memory : Memory) (packetNumber : ULONG)
    (hphase : w.renderFallbackPhase.toNat < 48000)
    (hactive : w.renderFallbackActive = true)
    (hbuffer : fallbackPeriodBytes ≤ w.renderFallbackBuffer.getD 0) :
    (phaseTotal packetNumber w < 48000 ∧
      renderBlock w memory packetNumber = .error .invalidBufferSize) ∨
    (48000 ≤ phaseTotal packetNumber w ∧ ∃ block, renderBlock w memory packetNumber = .ok block ∧
      block.phase.toNat = blockPhase w.renderFallbackPhase.toNat
        (sourceFrameCount w 3 packetNumber)) := by
  have hempty : Took w.renderFallbackPhase.toNat 0 ⟨[], 0, [], w.renderFallbackPhase⟩ := by
    refine ⟨?_, ?_⟩
    · unfold blockKept
      change 0 = _
      omega
    · unfold blockPhase
      rw [if_pos (by omega)]
      exact (Nat.mod_eq_of_lt hphase).symm
  have htook : Took _ _ (fallbackBlock w memory packetNumber 3 0 _) :=
    fallbackBlock_took 3 0 0 _ hempty
  have hzero : packetNumber + 0 = packetNumber := BitVec.add_zero packetNumber
  rw [hzero, Nat.zero_add] at htook
  have haudio := htook.audio
  unfold blockKept at haudio
  unfold renderBlock phaseTotal
  rw [if_pos hactive, if_neg (BitVec.not_lt.mpr hbuffer)]
  dsimp only
  split
  · exact Or.inl ⟨by omega, rfl⟩
  · exact Or.inr ⟨by omega, _, rfl, htook.phase⟩

/-! ## Calls that fail -/

private theorem refused_eq {w' : World} (h : Does {.refuse} w w') : ∃ history, w' = { w with
    history := history } := by
  have hstep : ∀ k ∈ ({.refuse} : Finset Kind), ∀ a b, Effect k a b →
      (∃ history, a = { w with
        history := history }) → ∃ history, b = { w with
          history := history } := by
    rintro k hk a b heffect ⟨history, rfl⟩
    cases heffect with
    | refuse io _ htop => exact ⟨_, rfl⟩
    | _ => exact absurd hk (by decide)
  exact h.invariant hstep ⟨w.history, rfl⟩

private theorem submitPooled_fails {audio : List Byte} {length sourceLength number : ULONG}
    {o : TxSubmit} {onSuccess : World → World} (hfree : w.renderIoFreeCount ≠ 0)
    (hfail : (submitPooled audio length sourceLength number o onSuccess w).1 ≠ .success) :
    ∃ history, (submitPooled audio length sourceLength number o onSuccess w).2 = { w with
      history := history } := by
  rcases submitPooled_cases audio length sourceLength number o onSuccess w hfree with
    ⟨entry, -, -, heq⟩ | ⟨status, -, -, w', hrefuse, heq⟩
  · rw [heq] at hfail
    exact absurd rfl hfail
  · rw [heq]
    exact refused_eq hrefuse

def sendMade (packetNumber : ULONG) (block : FallbackBlock) (o : TxSubmit) (w : World) :
    NtStatus × World :=
  submitPooled block.audio (blockLength w block) block.sourceLength packetNumber o
    (fun next => { next with
      nextSubmitPacket := packetNumber + BitVec.ofNat 32 block.sources.length
      history := .consumed block.sources :: next.history })
    { w with
      renderFallbackPhase := block.phase }

theorem submitRenderPacket_error {packetLength : ULONG} {o : TxSubmit} {status : NtStatus}
    (hbuffer : w.buffer = some memory) (hsize : w.packetSize ≠ 0) (hfree : w.renderIoFreeCount ≠ 0)
    (hblock : renderBlock (padded memory packetNumber packetLength w)
      (padSlot memory w packetNumber packetLength) packetNumber = .error status) :
    submitRenderPacket packetNumber packetLength o w =
      (status, padded memory packetNumber packetLength w) := by
  unfold submitRenderPacket
  simp only [hbuffer, hsize, hfree, if_false]
  unfold padded at hblock ⊢
  rw [hblock]

theorem submitRenderPacket_made {packetLength : ULONG} {o : TxSubmit} {block : FallbackBlock}
    (hbuffer : w.buffer = some memory) (hsize : w.packetSize ≠ 0) (hfree : w.renderIoFreeCount ≠ 0)
    (hblock : renderBlock (padded memory packetNumber packetLength w)
      (padSlot memory w packetNumber packetLength) packetNumber = .ok block) :
    submitRenderPacket packetNumber packetLength o w =
      sendMade packetNumber block o (padded memory packetNumber packetLength w) := by
  unfold submitRenderPacket
  simp only [hbuffer, hsize, hfree, if_false]
  unfold padded at hblock ⊢
  rw [hblock]
  rfl

private theorem submitPooled_success {audio : List Byte} {length sourceLength number : ULONG}
    {o : TxSubmit} {onSuccess : World → World}
    (hqueue : ∀ next, (onSuccess next).txQueue = next.txQueue)
    (hok : (submitPooled audio length sourceLength number o onSuccess w).1 = .success) :
    ∃ io, w.renderIoPool (w.renderIoFreeCount - 1) = some io ∧
      ¬ io.requestLength < sizeofPcmXfer + length.toNat ∧
      (submitPooled audio length sourceLength number o onSuccess w).2.txQueue =
        w.txQueue ++ [⟨io, length, if sourceLength ≠ 0 then sourceLength else length, number,
          audio⟩] := by
  unfold submitPooled viosndSubmitPreparedWritePcm popRenderIo at hok ⊢
  dsimp only at hok ⊢
  by_cases hnone : o = .noQueue
  · simp [hnone, NtStatus.isSuccess] at hok
  cases htop : w.renderIoPool (w.renderIoFreeCount - 1) with
  | none => simp [hnone, htop, NtStatus.isSuccess] at hok
  | some io =>
      by_cases hfit : io.requestLength < sizeofPcmXfer + length.toNat
      · simp [hnone, htop, hfit, NtStatus.isSuccess] at hok
      · refine ⟨io, rfl, hfit, ?_⟩
        cases o with
        | queued =>
            simp only [hfit, if_false, reduceCtorEq, NtStatus.isSuccess]
            exact hqueue _
        | _ => simp [htop, hfit, NtStatus.isSuccess] at hok

private theorem submitPooled_queued {audio : List Byte} {length sourceLength number : ULONG}
    {io : PcmIo} {onSuccess : World → World}
    (htop : w.renderIoPool (w.renderIoFreeCount - 1) = some io)
    (hfit : ¬ io.requestLength < sizeofPcmXfer + length.toNat) :
    (submitPooled audio length sourceLength number .queued onSuccess w).1 = .success := by
  unfold submitPooled viosndSubmitPreparedWritePcm popRenderIo
  simp [htop, hfit, NtStatus.isSuccess]

private theorem submitPooled_again {audio : List Byte} {length sourceLength number : ULONG}
    {again : TxSubmit} {onSuccess : World → World}
    (hqueue : ∀ next, (onSuccess next).txQueue = next.txQueue) (history : List Event)
    (hok : (submitPooled audio length sourceLength number again onSuccess { w with
      history := history }).1 = .success) :
    (submitPooled audio length sourceLength number .queued onSuccess w).1 = .success ∧
      (submitPooled audio length sourceLength number again onSuccess { w with
        history := history }).2.txQueue =
      (submitPooled audio length sourceLength number .queued onSuccess w).2.txQueue := by
  obtain ⟨io, htop, hfit, hsent⟩ := submitPooled_success hqueue hok
  have hfirst : (submitPooled audio length sourceLength number .queued onSuccess w).1 = .success :=
    submitPooled_queued htop hfit
  obtain ⟨io', htop', -, hsent'⟩ := submitPooled_success hqueue hfirst
  obtain rfl : io' = io := Option.some.inj (htop'.symm.trans htop)
  exact ⟨hfirst, hsent.trans hsent'.symm⟩

/-! ## Silence -/

/-- A silence submission either gives up before it takes a buffer, or tries to queue one. -/
private theorem submitRenderSilencePacket_pooled (packetNumber : ULONG) (w : World) :
    (∃ status, status ≠ .success ∧
      ∀ o, submitRenderSilencePacket packetNumber o w = (status, w)) ∨
    w.renderIoFreeCount ≠ 0 ∧ ∃ audio length, ∀ o w', w'.buffer = w.buffer →
      w'.packetSize = w.packetSize → w'.renderIoFreeCount = w.renderIoFreeCount →
      w'.renderFallbackActive = w.renderFallbackActive →
      submitRenderSilencePacket packetNumber o w' =
        submitPooled audio length length packetNumber o (fun next => { next with
          nextSubmitPacket :=
            if packetNumber ≠ maxULONG then packetNumber + 1 else next.nextSubmitPacket }) w' := by
  by_cases hbuffer : w.buffer = none
  · refine Or.inl ⟨.invalidDeviceRequest, by decide, fun o => ?_⟩
    unfold submitRenderSilencePacket
    rw [hbuffer]
  obtain ⟨memory, hmemory⟩ := Option.ne_none_iff_exists'.mp hbuffer
  by_cases hsize : w.packetSize = 0
  · refine Or.inl ⟨.invalidDeviceRequest, by decide, fun o => ?_⟩
    unfold submitRenderSilencePacket
    simp only [hmemory, hsize, if_true]
  by_cases hfree : w.renderIoFreeCount = 0
  · refine Or.inl ⟨.deviceBusy, by decide, fun o => ?_⟩
    unfold submitRenderSilencePacket
    simp only [hmemory, hsize, hfree, if_true, if_false]
  generalize hlength : (if w.renderFallbackActive = true then fallbackPeriodBytes
    else w.packetSize) = length
  by_cases hlong : defaultPeriodBytes < length
  · refine Or.inl ⟨.invalidBufferSize, by decide, fun o => ?_⟩
    unfold submitRenderSilencePacket
    simp only [hmemory, hsize, hfree, hlength, if_false]
    rw [if_pos hlong]
  · refine Or.inr ⟨hfree, List.replicate length.toNat 0, length, fun o w' hb hp hc ha => ?_⟩
    unfold submitRenderSilencePacket
    rw [hb, hp, hc, ha, hmemory]
    simp only [hsize, hfree, hlength, if_false]
    rw [if_neg hlong]

private theorem submitRenderSilencePacket_sideEffectFree {o : TxSubmit}
    (hfail : (submitRenderSilencePacket packetNumber o w).1 ≠ .success) :
    SideEffectFree (submitRenderSilencePacket packetNumber) o w := by
  rcases submitRenderSilencePacket_pooled packetNumber w with
    ⟨status, hstatus, heq⟩ | ⟨hfree, audio, length, heq⟩
  · have hleft : (submitRenderSilencePacket packetNumber o w).2 = w := by
      rw [heq]
    refine SideEffectFree.of_left w.buffer w.history hleft ?_
    intro again hok
    have hagain : (submitRenderSilencePacket packetNumber again w).1 = .success := hok
    rw [heq] at hagain
    exact absurd hagain hstatus
  · have hqueued := heq o w rfl rfl rfl rfl
    rw [hqueued] at hfail
    obtain ⟨history, hleft⟩ := submitPooled_fails hfree hfail
    rw [← hqueued] at hleft
    refine SideEffectFree.of_left w.buffer history hleft ?_
    intro again hok
    have hagain := heq again { w with
      history := history } rfl rfl rfl rfl
    rw [hagain] at hok ⊢
    rw [heq .queued w rfl rfl rfl rfl]
    refine submitPooled_again ?_ history hok
    intro next
    rfl

/-! ## Packets -/

private theorem padSlot_again (memory : Memory) (w : World) (packetNumber packetLength : ULONG) :
    padSlot (padSlot memory w packetNumber packetLength) w packetNumber packetLength =
      padSlot memory w packetNumber packetLength := by
  unfold padSlot
  split
  · funext k
    unfold Memory.zero
    split <;> rfl
  · rfl

private theorem padded_again (memory : Memory) (w : World) (packetNumber packetLength : ULONG) :
    padded (padSlot memory w packetNumber packetLength) packetNumber packetLength
      (padded memory packetNumber packetLength w) =
        padded memory packetNumber packetLength w := by
  unfold padded
  have hslot := padSlot_again memory w packetNumber packetLength
  unfold padSlot at hslot ⊢
  dsimp only
  rw [hslot]

def World.recall (history : List Event) (w : World) : World := { w with
  history := history }

private theorem fallbackBlock_history (history : List Event) (n : ℕ) (i : ULONG)
    (block : FallbackBlock) :
    fallbackBlock (w.recall history) memory packetNumber n i block =
      fallbackBlock w memory packetNumber n i block := by
  induction n generalizing i block with
  | zero => rfl
  | succ n ih =>
      unfold fallbackBlock
      simp only [ih]
      rfl

private theorem renderBlock_history (history : List Event) :
    renderBlock (w.recall history) memory packetNumber = renderBlock w memory packetNumber := by
  unfold renderBlock
  simp only [fallbackBlock_history]
  rfl

/-- The three ends of a submission that fails. -/
theorem submitRenderPacket_fails {packetLength : ULONG} {o : TxSubmit}
    (hfail : (submitRenderPacket packetNumber packetLength o w).1 ≠ .success) :
    ((w.buffer = none ∨ w.packetSize = 0 ∨ w.renderIoFreeCount = 0) ∧
      ∀ again, submitRenderPacket packetNumber packetLength again w =
        ((submitRenderPacket packetNumber packetLength o w).1, w)) ∨
    (∃ memory status, w.buffer = some memory ∧ w.packetSize ≠ 0 ∧ w.renderIoFreeCount ≠ 0 ∧
      renderBlock (padded memory packetNumber packetLength w)
        (padSlot memory w packetNumber packetLength) packetNumber = .error status ∧
      (submitRenderPacket packetNumber packetLength o w).2 =
        padded memory packetNumber packetLength w) ∨
    ∃ memory block, MakesBlock packetNumber packetLength w memory block ∧
      ∃ history, (submitRenderPacket packetNumber packetLength o w).2 = { padded memory
        packetNumber packetLength w with
          renderFallbackPhase := block.phase
          history := history } := by
  by_cases hbuffer : w.buffer = none
  · refine Or.inl ⟨Or.inl hbuffer, fun again => ?_⟩
    unfold submitRenderPacket
    rw [hbuffer]
  obtain ⟨memory, hmemory⟩ := Option.ne_none_iff_exists'.mp hbuffer
  by_cases hsize : w.packetSize = 0
  · refine Or.inl ⟨Or.inr (Or.inl hsize), fun again => ?_⟩
    unfold submitRenderPacket
    simp only [hmemory, hsize, if_true]
  by_cases hfree : w.renderIoFreeCount = 0
  · refine Or.inl ⟨Or.inr (Or.inr hfree), fun again => ?_⟩
    unfold submitRenderPacket
    simp only [hmemory, hsize, hfree, if_true, if_false]
  cases hblock : renderBlock (padded memory packetNumber packetLength w)
      (padSlot memory w packetNumber packetLength) packetNumber with
  | error status =>
      refine Or.inr (Or.inl ⟨memory, status, hmemory, hsize, hfree, hblock, ?_⟩)
      rw [submitRenderPacket_error hmemory hsize hfree hblock]
  | ok block =>
      refine Or.inr (Or.inr ⟨memory, block, ⟨hmemory, hsize, hfree, hblock⟩, ?_⟩)
      rw [submitRenderPacket_made hmemory hsize hfree hblock] at hfail ⊢
      exact submitPooled_fails hfree hfail

/-- A submission that leaves the phase where it was leaves no trace but the padding. -/
private theorem submitRenderPacket_sideEffectFree {packetLength : ULONG} {o : TxSubmit}
    (hfail : (submitRenderPacket packetNumber packetLength o w).1 ≠ .success)
    (hphase : (submitRenderPacket packetNumber packetLength o w).2.renderFallbackPhase =
      w.renderFallbackPhase) :
    SideEffectFree (submitRenderPacket packetNumber packetLength) o w := by
  rcases submitRenderPacket_fails hfail with ⟨-, hearly⟩ |
    ⟨memory, status, hmemory, hsize, hfree, hblock, hleft⟩ |
    ⟨memory, block, ⟨hmemory, hsize, hfree, hblock⟩, history, hleft⟩
  · have hleft : (submitRenderPacket packetNumber packetLength o w).2 = w := by
      rw [hearly o]
    refine SideEffectFree.of_left w.buffer w.history hleft ?_
    intro again hok
    have hagain : (submitRenderPacket packetNumber packetLength again w).1 = .success := hok
    rw [hearly again] at hagain
    exact absurd hagain hfail
  · -- the retry finds the slot padded and makes no block either
    refine SideEffectFree.of_left _ w.history hleft ?_
    intro again hok
    have hfirst := submitRenderPacket_error (o := o) hmemory hsize hfree hblock
    have hpadded := padded_again memory w packetNumber packetLength
    have hretry : submitRenderPacket packetNumber packetLength again
        (padded memory packetNumber packetLength w) =
          (status, padded memory packetNumber packetLength w) := by
      have hnone : renderBlock (padded (padSlot memory w packetNumber packetLength) packetNumber
          packetLength (padded memory packetNumber packetLength w)) (padSlot
            (padSlot memory w packetNumber packetLength) (padded memory packetNumber packetLength w)
              packetNumber packetLength) packetNumber = .error status := by
        rw [hpadded]
        exact (congrArg (renderBlock _ · _)
          (padSlot_again memory w packetNumber packetLength)).trans hblock
      have herror := submitRenderPacket_error (w := padded memory packetNumber packetLength w)
        (o := again) rfl hsize hfree hnone
      rw [hpadded] at herror
      exact herror
    have hagain : (submitRenderPacket packetNumber packetLength again
      (padded memory packetNumber packetLength w)).1 = .success := hok
    rw [hfirst] at hfail
    rw [hretry] at hagain
    exact absurd hagain hfail
  · have hkept : block.phase = w.renderFallbackPhase := by
      rw [hleft] at hphase
      exact hphase
    rw [hkept] at hleft
    refine SideEffectFree.of_left _ history hleft ?_
    intro again hok
    -- the retry finds the slot padded and makes the same block
    have hslot := padSlot_again memory w packetNumber packetLength
    have hwhole : padded (padSlot memory w packetNumber packetLength) packetNumber packetLength
        ((padded memory packetNumber packetLength w).recall history) =
          (padded memory packetNumber packetLength w).recall history :=
      congrArg (World.recall history) (padded_again memory w packetNumber packetLength)
    have hretry : submitRenderPacket packetNumber packetLength again
        ((padded memory packetNumber packetLength w).recall history) =
          sendMade packetNumber block again
            ((padded memory packetNumber packetLength w).recall history) := by
      have hsame : renderBlock (padded (padSlot memory w packetNumber packetLength) packetNumber
          packetLength ((padded memory packetNumber packetLength w).recall history)) (padSlot
            (padSlot memory w packetNumber packetLength) ((padded memory packetNumber packetLength
              w).recall history) packetNumber packetLength) packetNumber = .ok block := by
        rw [hwhole, renderBlock_history]
        exact (congrArg (renderBlock _ · _) hslot).trans hblock
      have hmade := submitRenderPacket_made
        (w := (padded memory packetNumber packetLength w).recall history) (o := again) rfl hsize
        hfree hsame
      rw [hwhole] at hmade
      exact hmade
    have hagain : (sendMade packetNumber block again
        ((padded memory packetNumber packetLength w).recall history)).1 = .success := by
      rw [← hretry]
      exact hok
    have hqueues : (sendMade packetNumber block .queued
          (padded memory packetNumber packetLength w)).1 = .success ∧
        (sendMade packetNumber block again
          ((padded memory packetNumber packetLength w).recall history)).2.txQueue =
          (sendMade packetNumber block .queued
            (padded memory packetNumber packetLength w)).2.txQueue := by
      refine submitPooled_again ?_ history hagain
      intro next
      rfl
    have hfirst : submitRenderPacket packetNumber packetLength .queued w =
        sendMade packetNumber block .queued (padded memory packetNumber packetLength w) :=
      submitRenderPacket_made hmemory hsize hfree hblock
    rw [← hretry, ← hfirst] at hqueues
    exact hqueues

private theorem blockPhase_eq_iff {n : ℕ} (hphase : phase < 48000)
    (hsome : 48000 ≤ phase + 16000 * n) :
    blockPhase phase n = phase ↔ phase + 16000 * n < 48000 ∨
      (phase + 16000 * n < 48000 * 512 ∧ 3 ∣ n) ∨
      (48000 * 512 ≤ phase + 16000 * n ∧ phase < 16000) := by
  unfold blockPhase
  split <;> omega

/-- A submission that fails leaves the phase where it was when its block ends there. -/
private theorem submitRenderPacket_phase_iff {packetLength : ULONG} {o : TxSubmit}
    (hphase : w.renderFallbackPhase.toNat < 48000)
    (hfail : (submitRenderPacket packetNumber packetLength o w).1 ≠ .success) :
    (submitRenderPacket packetNumber packetLength o w).2.renderFallbackPhase =
      w.renderFallbackPhase ↔ KeepsPhase packetNumber w := by
  rcases submitRenderPacket_fails hfail with ⟨hgiven, hearly⟩ |
    ⟨memory, status, hmemory, hsize, hfree, hblock, hleft⟩ |
    ⟨memory, block, ⟨hmemory, hsize, hfree, hblock⟩, history, hleft⟩
  · refine ⟨fun _ hbuffer hsize hfree => ?_, fun _ => by rw [hearly o]⟩
    rcases hgiven with hnone | hzero | hempty
    · exact absurd hnone hbuffer
    · exact absurd hzero hsize
    · exact absurd hempty hfree
  · refine ⟨fun _ _ _ _ hactive hbuffer => ?_, fun _ => by rw [hleft]; rfl⟩
    rcases renderBlock_fallback (w := padded memory packetNumber packetLength w)
          (padSlot memory w packetNumber packetLength) packetNumber
          hphase hactive hbuffer with ⟨hsmall, -⟩ | ⟨-, block, hmade, -⟩
    · exact Or.inl hsmall
    · rw [hmade] at hblock
      cases hblock
  · rw [hleft]
    change block.phase = w.renderFallbackPhase ↔ _
    by_cases hactive : w.renderFallbackActive = true
    · by_cases hbuffer : fallbackPeriodBytes ≤ w.renderFallbackBuffer.getD 0
      · rcases renderBlock_fallback (w := padded memory packetNumber packetLength w)
          (padSlot memory w packetNumber packetLength) packetNumber
          hphase hactive hbuffer with ⟨-, herror⟩ | ⟨hsome, block', hmade, hend⟩
        · rw [herror] at hblock
          cases hblock
        · obtain rfl : block' = block := Except.ok.inj (hmade.symm.trans hblock)
          have hiff := blockPhase_eq_iff hphase hsome
          rw [← BitVec.toNat_inj, hend]
          refine hiff.trans ⟨fun h _ _ _ _ _ => h, fun h => ?_⟩
          exact h (hmemory ▸ Option.some_ne_none memory) hsize hfree hactive hbuffer
      · unfold renderBlock at hblock
        have hsmall : (padded memory packetNumber packetLength w).renderFallbackBuffer.getD 0 <
            fallbackPeriodBytes := BitVec.not_le.mp hbuffer
        have hmode : (padded memory packetNumber packetLength w).renderFallbackActive = true :=
          hactive
        rw [if_pos hmode, if_pos hsmall] at hblock
        cases hblock
    · refine ⟨fun _ _ _ _ hyes => absurd hyes hactive, fun _ => ?_⟩
      unfold renderBlock at hblock
      have hmode : ¬ (padded memory packetNumber packetLength w).renderFallbackActive = true :=
        hactive
      rw [if_neg hmode] at hblock
      cases hblock
      rfl

end

/-! ## The phase in every run -/

def PhaseBounded (w : World) : Prop := w.renderFallbackPhase.toNat < 48000

section

variable {w : World}

private theorem renderBlock_bounded {memory : Memory} {packetNumber : ULONG} {block : FallbackBlock}
    (h : PhaseBounded w) (hblock : renderBlock w memory packetNumber = .ok block) :
    block.phase.toNat < 48000 := by
  by_cases hactive : w.renderFallbackActive = true
  · by_cases hbuffer : fallbackPeriodBytes ≤ w.renderFallbackBuffer.getD 0
    · rcases renderBlock_fallback memory packetNumber h hactive
        hbuffer with ⟨-, herror⟩ | ⟨-, block', hmade, hend⟩
      · rw [herror] at hblock
        cases hblock
      · obtain rfl : block' = block := Except.ok.inj (hmade.symm.trans hblock)
        rw [hend]
        exact blockPhase_lt _ _
    · unfold renderBlock at hblock
      rw [if_pos hactive, if_pos (BitVec.not_le.mp hbuffer)] at hblock
      cases hblock
  · unfold renderBlock at hblock
    rw [if_neg hactive] at hblock
    cases hblock
    exact h

theorem PhaseBounded.submitRenderPacket (h : PhaseBounded w) (packetNumber packetLength : ULONG)
    (o : TxSubmit) : PhaseBounded (submitRenderPacket packetNumber packetLength o w).2 := by
  have hmade : ∀ memory block, MakesBlock packetNumber packetLength w memory block →
      block.phase.toNat < 48000 := by
    rintro memory block ⟨-, -, -, hblock⟩
    have hpadded : PhaseBounded (padded memory packetNumber packetLength w) := h
    exact renderBlock_bounded hpadded hblock
  rcases submitRenderPacket_sends packetNumber packetLength o w with
    ⟨memory, block, entry, w₀, rfl, hmakes, -, -, heq⟩ |
    ⟨buffer, phase, hphase, status, -, w', hrefuse, heq⟩
  · rw [heq]
    exact hmade memory block hmakes
  · rw [heq]
    unfold PhaseBounded
    rw [phase_of_fields (hrefuse.sessionFields_eq (by decide))]
    rcases hphase with rfl | ⟨memory, block, hmakes, rfl, -⟩
    · exact h
    · exact hmade memory block hmakes

private theorem phaseBounded_tuneClosed : TuneClosed PhaseBounded where
  frame := by
    intro w w' h hbuffer hphase
    unfold PhaseBounded
    rw [hphase]
    exact h
  start := by
    intro w w' h hbuffer hphase
    unfold PhaseBounded
    rcases hphase with hphase | hphase
    · rw [hphase]
      decide
    · rw [hphase]
      decide
  submit := fun packetNumber packetLength o h => h.submitRenderPacket packetNumber packetLength o

private theorem freeAudioBuffer_bounded (h : PhaseBounded w) (current : Bool) :
    PhaseBounded (freeAudioBuffer current w) := by
  unfold freeAudioBuffer
  split
  · unfold PhaseBounded
    change (0 : ULONG).toNat < 48000
    decide
  · exact h

theorem PhaseBounded.clientStep (h : PhaseBounded w) (s : ClientStep) :
    PhaseBounded (clientStep w s) := by
  cases s with
  | call c =>
      cases c with
      | act a => exact phaseBounded_tuneClosed.step a h
      | allocateAudioBuffer pages =>
          cases pages with
          | none => exact h
          | unmapped => exact freeAudioBuffer_bounded (w := { w with
              buffer := none }) h true
          | mapped allocatedSize => exact h
      | freeAudioBuffer current => exact freeAudioBuffer_bounded h current
  | writeBuffer memory => exact h

end

theorem run_phaseBounded (buffer : Option Memory) (bufferSize notificationCount packetSize : ULONG)
    (steps : List ClientStep) :
    PhaseBounded (run clientStep (World.fresh buffer bufferSize notificationCount packetSize)
      steps) := by
  refine run_invariant (P := PhaseBounded) (fun _ s h => h.clientStep s) steps ?_
  unfold PhaseBounded
  change (0 : ULONG).toNat < 48000
  decide

/-- In every state a stream reaches, a silence submission that fails leaves no trace, and a packet
submission that fails leaves none exactly when the block it made ends at the phase it started
from. -/
theorem run_submits_sideEffectFree_iff (buffer : Option Memory)
    (bufferSize notificationCount packetSize : ULONG) (steps : List ClientStep)
    (packetNumber packetLength : ULONG) (o : TxSubmit) :
    let w := run clientStep (World.fresh buffer bufferSize notificationCount packetSize) steps
    ((submitRenderSilencePacket packetNumber o w).1 ≠ .success →
      SideEffectFree (submitRenderSilencePacket packetNumber) o w) ∧
    ((submitRenderPacket packetNumber packetLength o w).1 ≠ .success →
      (SideEffectFree (submitRenderPacket packetNumber packetLength) o w ↔
        KeepsPhase packetNumber w)) := by
  intro w
  have hphase : PhaseBounded w :=
    run_phaseBounded buffer bufferSize notificationCount packetSize steps
  refine ⟨submitRenderSilencePacket_sideEffectFree, fun hfail => ?_⟩
  have hiff := submitRenderPacket_phase_iff hphase hfail
  refine ⟨fun h => hiff.mp h.renderFallbackPhase, fun hkeeps => ?_⟩
  exact submitRenderPacket_sideEffectFree hfail (hiff.mpr hkeeps)

/-- A stream in the fallback with one packet written. -/
def fallbackWithOnePacket : List ClientStep :=
  [.call (.act (.setState .run (.granted 1))),
    .call (.act (.worker (.maybeSwitch 10 (.granted 10)))),
    .call (.act (.worker (.maybeSwitch 25000010 (.granted 25000010)))),
    .call (.act (.setWritePacket 0 false 0))]

/-- A full ring moves the phase, and the retry sends other frames. -/
theorem run_submits_sideEffectFree_ringFull :
    let w := run clientStep (World.fresh (some numberedFrames) 32768 16 2048) fallbackWithOnePacket
    let refused := submitRenderPacket 0 2048 .ringFull w
    refused.1 = .deviceBusy ∧ w.renderFallbackPhase = 32000 ∧
      refused.2.renderFallbackPhase = 16000 ∧
      (submitRenderPacket 0 2048 .queued refused.2).1 = .success ∧
      ((submitRenderPacket 0 2048 .queued refused.2).2.txQueue.map (·.audio)) ≠
        ((submitRenderPacket 0 2048 .queued w).2.txQueue.map (·.audio)) ∧
      ¬ SideEffectFree (submitRenderPacket 0 2048) .ringFull w := by
  intro w refused
  refine ⟨by decide +kernel, by decide +kernel, by decide +kernel, by decide +kernel,
    by decide +kernel, fun h => ?_⟩
  exact absurd h.renderFallbackPhase (by decide +kernel)

end Viosnd.Render
