import Viosnd.Circuit.Lending

/-!
# The commands of a stream

A PCM stream of the device gets its parameters before it is prepared, is prepared before it is
started, and is stopped before it is released. The driver keeps to this order as long as a stream is
released before it is cleaned up, whatever the device answers. The steps are the callbacks of the
streams, without the `ViosndAcxStopStreams` of the device.
-/

namespace Viosnd.Circuit

open StepRun EffectSystem

/-! ## Phases -/

inductive Phase where
  | off
  /-- The parameters are set. -/
  | configured
  | prepared
  | started
  | stopped
  deriving DecidableEq

/-- The phase after a command, as far as it may come now. A `STOP` may also come to a stream that
does not run, and it is over with it whatever the answer is, as with a `RELEASE`. -/
def Phase.next : Phase → PcmCommand × NtStatus → Option Phase
  | .off, (.setParams, answer) => some (if answer = .success then .configured else .off)
  | .configured, (.prepare, answer) => some (if answer = .success then .prepared else .off)
  | .prepared, (.start, answer) | .stopped, (.start, answer) =>
      some (if answer = .success then .started else .prepared)
  | .prepared, (.stop, _) | .started, (.stop, _) | .stopped, (.stop, _) => some .stopped
  | .stopped, (.release, _) => some .off
  | _, _ => none

/-- The phase after all commands, where each came when it may. -/
def phaseAfter (commands : List (PcmCommand × NtStatus)) : Option Phase :=
  commands.foldlM Phase.next .off

def Phase.isPrepared : Phase → Bool
  | .off | .configured => false
  | .prepared | .started | .stopped => true

def Phase.isStarted : Phase → Bool
  | .started => true
  | _ => false

/-- The commands led to the phase, and the flags tell it. -/
structure InPhase (p : Phase) (s : Stream) : Prop where
  path : phaseAfter s.log.commands = some p
  settled : p ≠ .configured
  prepared : s.prepared = p.isPrepared
  running : s.running = p.isStarted

def FollowsProtocol (w : World) : Prop := ∀ c, ∃ p, InPhase p (w.streams c)

/-- A stream was released before the next one is created in its place. -/
def ReleasedFirst (w : World) : Input → Prop
  | .create c => (w.streams c).present = false → (w.streams c).prepared = false
  | _ => True

section

variable {s s' : Stream} {p q : Phase}

private theorem phaseAfter_concat {commands : List (PcmCommand × NtStatus)}
    (h : phaseAfter commands = some p) (c : PcmCommand) (answer : NtStatus) :
    phaseAfter (commands ++ [(c, answer)]) = p.next (c, answer) := by
  unfold phaseAfter at h ⊢
  rw [List.foldlM_append, h]
  simp

/-! ## What sends no command -/

structure Silent (s s' : Stream) : Prop where
  commands : s'.log.commands = s.log.commands
  prepared : s'.prepared = s.prepared
  running : s'.running = s.running

theorem Silent.refl (s : Stream) : Silent s s := ⟨rfl, rfl, rfl⟩

theorem Silent.trans {t : Stream} (first : Silent s t) (second : Silent t s') : Silent s s' :=
  ⟨second.commands.trans first.commands, second.prepared.trans first.prepared,
    second.running.trans first.running⟩

theorem InPhase.silent (h : InPhase p s) (hsilent : Silent s s') : InPhase p s' := by
  refine ⟨?_, h.settled, hsilent.prepared.trans h.prepared, hsilent.running.trans h.running⟩
  rw [hsilent.commands]
  exact h.path

theorem Aside.silent (h : Aside s s') (hcommands : s'.log.commands = s.log.commands) :
    Silent s s' :=
  ⟨hcommands, h.prepared, h.running⟩

private theorem completeAll_silent (completions : List Completion) (s : Stream) :
    Silent s (s.completeAll completions) := by
  obtain ⟨queue, hstream, -⟩ := completeAll_eq completions s
  rw [hstream]
  exact ⟨rfl, rfl, rfl⟩

private theorem popRenderPacket_silent (s : Stream) : Silent s (popRenderPacket s) :=
  (popRenderPacket_aside s).silent (congrArg Log.commands (popRenderPacket_log s))

private theorem copyCapture_silent (s : Stream) (packetNumber : ULONGLONG) :
    Silent s (copyCapture s packetNumber) := by
  unfold copyCapture
  split
  · exact Silent.refl s
  · exact ⟨rfl, rfl, rfl⟩

private theorem clearRenderQueue_silent (s : Stream) : Silent s (clearRenderQueue s) := by
  unfold clearRenderQueue
  split
  · exact Silent.refl s
  · exact ⟨rfl, rfl, rfl⟩

private theorem queueRenderPacket_silent (s : Stream) (packet : ULONG) :
    Silent s (queueRenderPacket s packet) := by
  unfold queueRenderPacket
  split
  · exact ⟨rfl, rfl, rfl⟩
  · exact ⟨rfl, rfl, rfl⟩

private theorem freeStreamPeriods_silent (s : Stream) : Silent s (freeStreamPeriods s) := by
  unfold freeStreamPeriods
  split
  · exact Silent.refl s
  · exact ⟨rfl, rfl, rfl⟩

private theorem allocateRtPackets_silent (s : Stream) (packetCount packetSize : ℕ)
    (allocated : Bool) :
    Silent s (allocateRtPackets s packetCount packetSize allocated).2 :=
  (allocateRtPackets_aside s packetCount packetSize allocated).silent
    (congrArg Log.commands (allocateRtPackets_log s packetCount packetSize allocated))

private theorem submitCapturePeriod_silent (s : Stream) (i : ℕ) (packetNumber : ULONGLONG) :
    Silent s (submitCapturePeriod s i packetNumber).2 := by
  rcases submitCapturePeriod_cases s i packetNumber with hsubmit | hsubmit |
    ⟨-, -, -, hsubmit | ⟨queue, -, hsubmit⟩⟩
  · rw [hsubmit]
    exact Silent.refl s
  · rw [hsubmit]
    exact Silent.refl s
  · rw [hsubmit]
    exact ⟨rfl, rfl, rfl⟩
  · rw [hsubmit]
    exact ⟨rfl, rfl, rfl⟩

private theorem submitRenderPacket_silent (s : Stream) (packet : Acx.Ready) :
    Silent s (submitRenderPacket s packet).2 := by
  rcases submitRenderPacket_cases s packet with hsubmit | hsubmit |
    ⟨index, i, -, -, -, -, -, hsubmit | ⟨queue, -, hsubmit⟩⟩
  · rw [hsubmit]
    exact Silent.refl s
  · rw [hsubmit]
    exact Silent.refl s
  · rw [hsubmit]
    exact ⟨rfl, rfl, rfl⟩
  · rw [hsubmit]
    exact ⟨rfl, rfl, rfl⟩

private theorem pumpPackets_silent (n : ℕ) (s : Stream) : Silent s (pumpPackets n s) := by
  induction n generalizing s with
  | zero => exact Silent.refl s
  | succ n ih =>
      unfold pumpPackets
      cases peekRenderPacket s with
      | none => exact Silent.refl s
      | some packet =>
          have hsubmit := submitRenderPacket_silent s packet
          dsimp only
          split
          · rename_i hresult
            rw [hresult] at hsubmit
            exact hsubmit
          · rename_i hresult
            rw [hresult] at hsubmit
            exact (hsubmit.trans (popRenderPacket_silent _)).trans (ih _)
          · rename_i t _ _ hresult
            rw [hresult] at hsubmit
            have hfail : Silent t (t.fail packet) := ⟨rfl, rfl, rfl⟩
            exact (hsubmit.trans hfail).trans (popRenderPacket_silent _)

private theorem pumpRenderQueue_silent (s : Stream) : Silent s (pumpRenderQueue s) := by
  unfold pumpRenderQueue
  split
  · exact Silent.refl s
  · exact pumpPackets_silent _ s

private theorem resubmitCapture_silent (s : Stream) (i : ℕ) : Silent s (resubmitCapture s i) := by
  have hsubmit := submitCapturePeriod_silent s i s.nextCapturePacket
  unfold resubmitCapture
  split
  · split
    · rename_i hresult
      rw [hresult] at hsubmit
      exact ⟨hsubmit.commands, hsubmit.prepared, hsubmit.running⟩
    · rename_i hresult
      rw [hresult] at hsubmit
      exact hsubmit
    · rename_i hresult
      rw [hresult] at hsubmit
      exact ⟨hsubmit.commands, hsubmit.prepared, hsubmit.running⟩
  · exact Silent.refl s

private theorem count_silent (s : Stream) (p : Period) (answer : Answer) :
    Silent s (s.count p answer) :=
  ⟨rfl, rfl, rfl⟩

private theorem completeRender_silent (s : Stream) (chain : Chain) (answer : Answer) :
    Silent s (completeRender s chain answer) := by
  unfold completeRender
  split
  · exact ⟨rfl, rfl, rfl⟩
  · exact ⟨rfl, rfl, rfl⟩

private theorem completeCapture_silent (s : Stream) (chain : Chain) (answer : Answer) :
    Silent s (completeCapture s chain answer) := by
  unfold completeCapture
  split
  · have hstale : Silent s s.stale := ⟨rfl, rfl, rfl⟩
    exact hstale.trans (copyCapture_silent _ _)
  · have hrelease : Silent s (s.release chain.period) := ⟨rfl, rfl, rfl⟩
    have hcopy := hrelease.trans (copyCapture_silent _ (s.period chain.period).packetNumber)
    exact (hcopy.trans (count_silent _ _ answer)).trans (resubmitCapture_silent _ _)

private theorem drainUsed_silent {pass : Stream → Chain → Answer → Stream}
    (hpass : ∀ s chain answer, Silent s (pass s chain answer)) (n : ℕ) (s : Stream) :
    Silent s (drainUsed pass n s) := by
  induction n generalizing s with
  | zero => exact Silent.refl s
  | succ n ih =>
      unfold drainUsed
      cases s.queue.get with
      | none => exact Silent.refl s
      | some got =>
          obtain ⟨⟨chain, answer⟩, queue⟩ := got
          have hget : Silent s { s with
              queue := queue } := ⟨rfl, rfl, rfl⟩
          exact (hget.trans (hpass _ chain answer)).trans (ih _)

private theorem drainStreamQueue_silent (s : Stream) : Silent s (drainStreamQueue s) := by
  unfold drainStreamQueue
  split
  · exact Silent.refl s
  split
  · exact drainUsed_silent completeCapture_silent _ s
  · exact (drainUsed_silent completeRender_silent _ s).trans (pumpRenderQueue_silent _)

private theorem waitForStreamIdle_silent (n : ℕ) (sleeps : List (List Completion)) (s : Stream) :
    Silent s (waitForStreamIdle n sleeps s) := by
  have hdrain := drainStreamQueue_silent s
  induction n generalizing sleeps s with
  | zero =>
      unfold waitForStreamIdle
      dsimp only
      split
      · exact hdrain
      · exact ⟨hdrain.commands, hdrain.prepared, hdrain.running⟩
  | succ n ih =>
      unfold waitForStreamIdle
      dsimp only
      split
      · exact hdrain
      · have hslept := hdrain.trans (completeAll_silent (sleeps.headD []) _)
        exact hslept.trans (ih sleeps.tail _ (drainStreamQueue_silent _))

private theorem submitCapturePeriods_silent (n i : ℕ) (s : Stream) :
    Silent s (submitCapturePeriods n i s).2 := by
  induction n generalizing i s with
  | zero => exact Silent.refl s
  | succ n ih =>
      have hsubmit := submitCapturePeriod_silent s i s.nextCapturePacket
      unfold submitCapturePeriods
      split
      · rename_i t hresult
        rw [hresult] at hsubmit
        have hcount : Silent t { t with
            nextCapturePacket := t.nextCapturePacket + 1 } := ⟨rfl, rfl, rfl⟩
        exact (hsubmit.trans hcount).trans (ih (i + 1) _)
      · rename_i hresult
        rw [hresult] at hsubmit
        exact hsubmit.trans (ih (i + 1) _)
      · rename_i hresult
        rw [hresult] at hsubmit
        exact hsubmit

private theorem submitStream_silent (s : Stream) : Silent s (submitStream s).2 := by
  unfold submitStream
  split
  · exact submitCapturePeriods_silent _ 0 s
  · exact pumpRenderQueue_silent s

private theorem prepareStreamPeriods_silent (s : Stream) (allocation : Allocation) :
    Silent s (prepareStreamPeriods s allocation).2 := by
  unfold prepareStreamPeriods
  split
  · exact Silent.refl s
  · dsimp only
    generalize (if s.packetSize ≠ 0 then s.packetSize else defaultPeriodBytes.toNat) = periodBytes
    split
    · exact Silent.refl s
    · cases allocation with
      | none | partly | all => exact ⟨rfl, rfl, rfl⟩

/-! ## What sends commands -/

theorem InPhase.command (h : InPhase p s) (c : PcmCommand) (answer : NtStatus) :
    phaseAfter (s.command c answer).log.commands = p.next (c, answer) :=
  phaseAfter_concat h.path c answer

theorem InPhase.off (h : InPhase p s) (hprepared : s.prepared = false) : p = .off := by
  have hflag := h.prepared
  rw [hprepared] at hflag
  cases p with
  | off => rfl
  | configured => exact absurd rfl h.settled
  | prepared | started | stopped => cases hflag

private theorem configurePcmStream_follows (i : ConfigureInput) (h : InPhase p s) :
    ∃ q, InPhase q (configurePcmStream i s).2 ∧
      ((configurePcmStream i s).1 = .success → q.isPrepared = true) ∧
      (configurePcmStream i s).2.running = s.running := by
  cases hprepared : s.prepared with
  | true =>
      have hsame : configurePcmStream i s = (.success, s) := if_pos hprepared
      rw [hsame]
      exact ⟨p, h, fun _ => h.prepared.symm.trans hprepared, rfl⟩
  | false =>
      obtain rfl : p = .off := h.off hprepared
      have hperiods := h.silent (prepareStreamPeriods_silent s i.allocation)
      have hrunning := (prepareStreamPeriods_silent s i.allocation).running
      unfold configurePcmStream
      rw [if_neg (by simp [hprepared])]
      cases hresult : prepareStreamPeriods s i.allocation with
      | mk status s₁ =>
          rw [hresult] at hperiods hrunning
          dsimp only at hperiods hrunning ⊢
          have hset := hperiods.command .setParams i.setParams
          split
          · rename_i hfailed
            exact ⟨.off, hperiods, fun hsuccess => absurd hsuccess hfailed, hrunning⟩
          split
          · rename_i hfailed
            have hpath := hset.trans (congrArg some (if_neg hfailed))
            exact ⟨.off, ⟨hpath, hperiods.settled, hperiods.prepared, hperiods.running⟩,
              fun hsuccess => absurd hsuccess hfailed, hrunning⟩
          rename_i hsuccess
          have hconfigured := hset.trans (congrArg some (if_pos (not_not.mp hsuccess)))
          have hprepare := phaseAfter_concat hconfigured .prepare i.prepare
          split
          · rename_i hfailed
            have hpath := hprepare.trans (congrArg some (if_neg hfailed))
            exact ⟨.off, ⟨hpath, hperiods.settled, hperiods.prepared, hperiods.running⟩,
              fun hsuccess => absurd hsuccess hfailed, hrunning⟩
          · rename_i hready
            have hpath := hprepare.trans (congrArg some (if_pos (not_not.mp hready)))
            exact ⟨.prepared, ⟨hpath, by decide, rfl, hperiods.running⟩, fun _ => rfl, hrunning⟩

private theorem evtStreamPrepareHardware_follows (i : ConfigureInput) (h : InPhase p s) :
    ∃ q, InPhase q (evtStreamPrepareHardware i s).2 := by
  obtain ⟨q, hq, -, -⟩ := configurePcmStream_follows i h
  unfold evtStreamPrepareHardware
  dsimp only
  split
  · exact ⟨q, hq.silent (freeStreamPeriods_silent _)⟩
  · exact ⟨q, hq⟩

theorem InPhase.start (h : InPhase p s) (hprepared : p.isPrepared = true)
    (hrunning : s.running = false) (answer : NtStatus) :
    p.next (.start, answer) = some (if answer = .success then .started else .prepared) := by
  have hflag := h.running
  rw [hrunning] at hflag
  cases p with
  | off | configured => cases hprepared
  | prepared | stopped => rfl
  | started => cases hflag

private theorem evtStreamRun_follows (i : RunInput) (h : InPhase p s) :
    ∃ q, InPhase q (evtStreamRun i s).2 := by
  cases hrunning : s.running with
  | true =>
      have hsame : evtStreamRun i s = (.success, s) := if_pos hrunning
      rw [hsame]
      exact ⟨p, h⟩
  | false =>
      obtain ⟨q, hq, hprepared, hstill⟩ := configurePcmStream_follows i.configure h
      unfold evtStreamRun
      rw [if_neg (by simp [hrunning])]
      dsimp only
      split
      · exact ⟨q, hq⟩
      rename_i hsuccess
      have hready := hprepared (not_not.mp hsuccess)
      have hsubmitted := submitStream_silent (configurePcmStream i.configure s).2
      have hsubmit := hq.silent hsubmitted
      have hstopped := hsubmitted.running.trans (hstill.trans hrunning)
      split
      · exact ⟨q, hsubmit⟩
      generalize (submitStream (configurePcmStream i.configure s).2).2 = t at hsubmit hstopped ⊢
      have hstart := (hsubmit.command .start i.start).trans
        (hsubmit.start hready hstopped i.start)
      have hdelivered := completeAll_silent i.meanwhile (t.command .start i.start)
      have hpath := (congrArg phaseAfter hdelivered.commands).trans hstart
      have hflag := hdelivered.prepared.trans (hsubmit.prepared.trans hready)
      split
      · rename_i hfailed
        rw [if_neg hfailed] at hpath
        exact ⟨.prepared, hpath, by decide, hflag, rfl⟩
      · rename_i hstarted
        rw [if_pos (not_not.mp hstarted)] at hpath
        have hrun : InPhase .started { (t.command .start i.start).completeAll i.meanwhile with
            running := true } := ⟨hpath, by decide, hflag, rfl⟩
        dsimp only
        split
        · exact ⟨.started, hrun⟩
        · exact ⟨.started, hrun.silent (pumpRenderQueue_silent _)⟩

/-- Whatever a prepared stream is at, it may be stopped. -/
theorem InPhase.stop (h : InPhase p s) (hprepared : s.prepared = true) (answer : NtStatus) :
    p.next (.stop, answer) = some .stopped := by
  have hflag := h.prepared
  rw [hprepared] at hflag
  cases p with
  | off | configured => cases hflag
  | prepared | started | stopped => rfl

private theorem halted_follows (release : Bool) (i : StopInput) (h : InPhase p s)
    (hprepared : s.prepared = true) :
    phaseAfter (s.halted release i).log.commands = some (if release then .off else .stopped) ∧
      (s.halted release i).prepared = true ∧ (s.halted release i).running = false := by
  have hstop := (phaseAfter_concat h.path .stop i.stop).trans (h.stop hprepared i.stop)
  have hmeanwhile := (completeAll_silent i.meanwhile ({ s with
    running := false }.command .stop i.stop)).trans (clearRenderQueue_silent _)
  have hpath := (congrArg phaseAfter hmeanwhile.commands).trans hstop
  have hflag := hmeanwhile.prepared.trans hprepared
  unfold Stream.halted
  cases release with
  | false => exact ⟨hpath, hflag, hmeanwhile.running⟩
  | true => exact ⟨phaseAfter_concat hpath .release i.release, hflag, hmeanwhile.running⟩

private theorem stopStream_follows (release : Bool) (i : StopInput) (h : InPhase p s) :
    ∃ q, InPhase q (stopStream release i s) := by
  cases hpresent : s.present with
  | false =>
      have hsame : stopStream release i s = s := if_pos hpresent
      rw [hsame]
      exact ⟨p, h⟩
  | true =>
      cases hprepared : s.prepared with
      | false =>
          obtain rfl : p = .off := h.off hprepared
          rw [stopStream_of_unprepared s release i hpresent hprepared]
          exact ⟨.off, h.path, h.settled, h.prepared, rfl⟩
      | true =>
          obtain ⟨hpath, hflag, hrunning⟩ := halted_follows release i h hprepared
          rw [stopStream_eq s release i hpresent hprepared]
          cases release with
          | false =>
              have hphase : InPhase .stopped (s.halted false i) :=
                ⟨hpath, by decide, hflag, hrunning⟩
              exact ⟨.stopped, hphase.silent (waitForStreamIdle_silent _ _ _)⟩
          | true =>
              have hwait := waitForStreamIdle_silent releaseTimeoutMs i.sleeps (s.halted true i)
              exact ⟨.off, (congrArg phaseAfter hwait.commands).trans hpath, by decide, rfl,
                hwait.running.trans hrunning⟩

private theorem evtStreamSetRenderPacket_silent (s : Stream) (packet : ULONG) :
    Silent s (evtStreamSetRenderPacket s packet).2 := by
  have hqueue := queueRenderPacket_silent s packet
  unfold evtStreamSetRenderPacket
  split
  · exact Silent.refl s
  split
  · exact Silent.refl s
  · dsimp only
    split
    · exact hqueue.trans (pumpRenderQueue_silent _)
    · exact hqueue

private theorem evtStreamCleanup_silent (s : Stream) : Silent s (evtStreamCleanup s) := by
  have hfree := freeStreamPeriods_silent s
  exact ⟨hfree.commands, hfree.prepared, hfree.running⟩

end

/-! ## Runs -/

section

variable {w : World}

theorem FollowsProtocol.on (h : FollowsProtocol w) (capture : Bool) {f : Stream → Stream}
    (hf : ∀ p, InPhase p (w.streams capture) → ∃ q, InPhase q (f (w.streams capture))) :
    FollowsProtocol (w.on capture f) := by
  intro c
  by_cases hc : c = capture
  · subst hc
    rw [on_self]
    obtain ⟨p, hp⟩ := h c
    exact hf p hp
  · rw [on_other w f hc]
    exact h c

theorem FollowsProtocol.callback (h : FollowsProtocol w) (capture : Bool) {f : Stream → Stream}
    (hf : ∀ s p, InPhase p s → ∃ q, InPhase q (f s)) : FollowsProtocol (w.callback capture f) := by
  unfold World.callback
  split
  · exact h.on capture (hf (w.streams capture))
  · exact h

theorem FollowsProtocol.silent (h : FollowsProtocol w) (capture : Bool) {f : Stream → Stream}
    (hf : ∀ s, Silent s (f s)) : FollowsProtocol (w.callback capture f) :=
  h.callback capture fun s p hp => ⟨p, hp.silent (hf s)⟩

theorem FollowsProtocol.drain (h : FollowsProtocol w) : FollowsProtocol (drainQueues w) := by
  intro c
  obtain ⟨p, hp⟩ := h c
  exact ⟨p, hp.silent (drainStreamQueue_silent _)⟩

private theorem createStream_follows {s : Stream} {p : Phase} (h : InPhase p s)
    (hprepared : s.prepared = false) : InPhase .off (createStream s) := by
  obtain rfl : p = .off := h.off hprepared
  exact ⟨h.path, h.settled, rfl, rfl⟩

theorem FollowsProtocol.step (h : FollowsProtocol w) (i : Input) (hreleased : ReleasedFirst w i) :
    FollowsProtocol (w.step i) := by
  cases i with
  | create capture =>
      dsimp only [World.step]
      split
      · exact h
      · rename_i habsent
        refine h.on capture fun p hp => ⟨.off, createStream_follows hp ?_⟩
        exact hreleased (Bool.not_eq_true _ ▸ habsent)
  | cleanup capture => exact h.silent capture evtStreamCleanup_silent
  | allocateRtPackets capture packetCount packetSize allocated =>
      exact h.silent capture fun s => allocateRtPackets_silent s packetCount packetSize allocated
  | freeRtPackets capture => exact h.silent capture fun s => ⟨rfl, rfl, rfl⟩
  | prepareHardware capture i =>
      exact h.callback capture fun s p hp => evtStreamPrepareHardware_follows i hp
  | run capture i => exact h.callback capture fun s p hp => evtStreamRun_follows i hp
  | pause capture i =>
      dsimp only [World.step]
      split
      · have hstopped : FollowsProtocol (w.on capture fun s =>
            (stopStream false i s).completeAll i.last) := by
          refine h.on capture fun p hp => ?_
          obtain ⟨q, hq⟩ := stopStream_follows false i hp
          exact ⟨q, hq.silent (completeAll_silent i.last _)⟩
        exact hstopped.drain
      · exact h
  | releaseHardware capture i =>
      dsimp only [World.step]
      split
      · have hstopped : FollowsProtocol (w.on capture fun s =>
            (stopStream true i s).completeAll i.last) := by
          refine h.on capture fun p hp => ?_
          obtain ⟨q, hq⟩ := stopStream_follows true i hp
          exact ⟨q, hq.silent (completeAll_silent i.last _)⟩
        exact hstopped.drain.on capture fun p hp => ⟨p, hp.silent (freeStreamPeriods_silent _)⟩
      · exact h
  | setRenderPacket packet =>
      exact h.silent false fun s => evtStreamSetRenderPacket_silent s packet
  | complete capture c =>
      exact h.on capture (f := fun s => s.complete c) fun p hp =>
        ⟨p, hp.silent (completeAll_silent [c] _)⟩
  | interrupt => exact h.drain

/-- A stream that is created over one that was not released: the driver takes the device's stream
for off. -/
private theorem FollowsProtocol.unreleased (h : FollowsProtocol w) (i : Input)
    (hnot : ¬ ReleasedFirst w i) : ¬ FollowsProtocol (w.step i) := by
  cases i with
  | create capture =>
      obtain ⟨habsent, hprepared⟩ := Classical.not_imp.mp hnot
      intro hfollows
      obtain ⟨p, hp⟩ := h capture
      obtain ⟨q, hq⟩ := hfollows capture
      dsimp only [World.step] at hq
      rw [if_neg (by simp [habsent]), on_self] at hq
      obtain rfl : p = q := Option.some.inj (hp.path.symm.trans hq.path)
      exact hprepared (hp.prepared.trans hq.prepared.symm)
  | _ => exact absurd trivial hnot

/-- The commands of both streams keep to the order exactly in the runs where a stream is released
before the next one is created. -/
theorem run_followsProtocol_iff (hasQueue : Bool → Bool) (queueSize : Bool → ℕ)
    (inputs : List Input) :
    (∀ first, first <+: inputs →
      FollowsProtocol (run World.step (World.fresh hasQueue queueSize) first)) ↔
    Guarded World.step ReleasedFirst (World.fresh hasQueue queueSize) inputs := by
  have hfresh : FollowsProtocol (World.fresh hasQueue queueSize) :=
    fun _ => ⟨.off, rfl, by decide, rfl, rfl⟩
  have hstep : ∀ w i, FollowsProtocol w → ReleasedFirst w i → FollowsProtocol (w.step i) :=
    fun _ i h => h.step i
  exact forall_prefix_iff_guarded (fun _ h => h) hstep (fun _ i h => h.unreleased i) hfresh inputs

end

end Viosnd.Circuit
