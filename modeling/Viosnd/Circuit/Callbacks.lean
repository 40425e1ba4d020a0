import Viosnd.Circuit.Effects

/-!
# The callbacks as changes

Every callback of a stream is decomposed into the changes of its kinds, and so is every step of the
pair of streams. What all changes keep, every run keeps.
-/

namespace Viosnd.Circuit

open StepRun EffectSystem

variable {s s' : Stream}

private theorem freeStreamPeriods_does (hprepared : s.prepared = false) :
    Does background s (freeStreamPeriods s) :=
  Does.inBackground (Effect.freePeriods s hprepared)

private theorem prepareStreamPeriods_does (hpresent : s.present = true)
    (hprepared : s.prepared = false) (allocation : Allocation) :
    Does background s (prepareStreamPeriods s allocation).2 ∧
      (prepareStreamPeriods s allocation).2.prepared = false ∧
      ((prepareStreamPeriods s allocation).1 = .success →
        (prepareStreamPeriods s allocation).2.periods ≠ none) := by
  unfold prepareStreamPeriods
  split
  · rename_i hperiods
    exact ⟨Within.refl s, hprepared, fun _ => hperiods⟩
  rename_i hperiods
  dsimp only
  generalize hbytes : (if s.packetSize ≠ 0 then s.packetSize else defaultPeriodBytes.toNat) =
    periodBytes
  split
  · exact ⟨Within.refl s, hprepared, by simp⟩
  have hsize : periodBytes = s.packetSize ∨ s.packetSize = 0 ∧ periodBytes = 2048 := by
    rw [← hbytes]
    split_ifs with hzero
    · exact Or.inl rfl
    · exact Or.inr ⟨not_not.mp hzero, rfl⟩
  have hnew := Does.inBackground
    (Effect.newPeriods s periodBytes hpresent (not_not.mp hperiods) hsize)
  cases allocation with
  | none => exact ⟨Within.refl s, hprepared, by simp⟩
  | partly =>
      refine ⟨hnew.trans (freeStreamPeriods_does hprepared), ?_, by simp⟩
      exact hprepared
  | all => exact ⟨hnew, hprepared, fun _ => Option.some_ne_none _⟩

theorem configurePcmStream_does (hpresent : s.present = true) (i : ConfigureInput) :
    Does background s (configurePcmStream i s).2 ∧
      ((configurePcmStream i s).1 = .success ↔ (configurePcmStream i s).2.prepared = true) := by
  unfold configurePcmStream
  split
  · rename_i hprepared
    exact ⟨Within.refl s, iff_of_true rfl hprepared⟩
  rename_i hunprepared
  obtain ⟨hperiods, hstill, hsome⟩ :=
    prepareStreamPeriods_does hpresent (Bool.not_eq_true _ ▸ hunprepared) i.allocation
  cases hresult : prepareStreamPeriods s i.allocation with
  | mk status s₁ =>
      rw [hresult] at hperiods hstill hsome
      dsimp only at hperiods hstill hsome ⊢
      split
      · rename_i hfailed
        exact ⟨hperiods, iff_of_false hfailed (by simp [hstill])⟩
      rename_i hsuccess
      have hset : Does background s (s₁.command .setParams i.setParams) :=
        hperiods.trans (does_command _ _ _).widen
      split
      · rename_i hfailed
        exact ⟨hset, iff_of_false hfailed (by simp [Stream.command, hstill])⟩
      have hprepare : Does background s
          ((s₁.command .setParams i.setParams).command .prepare i.prepare) :=
        hset.trans (does_command _ _ _).widen
      split
      · rename_i hfailed
        exact ⟨hprepare, iff_of_false hfailed (by simp [Stream.command, hstill])⟩
      · let s₂ := (s₁.command .setParams i.setParams).command .prepare i.prepare
        have hflags := Does.inBackground (Effect.flags s₂ true s₁.running (fun _ => rfl)
          (Or.inr ⟨rfl, hsome (not_not.mp hsuccess)⟩))
        have htune := does_tune { s₂ with
          prepared := true } 0 0 0 s₁.xrunCount s₂.log.commands
        exact ⟨hprepare.trans (hflags.trans htune.widen), iff_of_true rfl rfl⟩

theorem evtStreamPrepareHardware_does (hpresent : s.present = true)
    (i : ConfigureInput) : Does background s (evtStreamPrepareHardware i s).2 := by
  obtain ⟨hconfigure, hprepared⟩ := configurePcmStream_does hpresent i
  unfold evtStreamPrepareHardware
  cases hresult : configurePcmStream i s with
  | mk status s₁ =>
      rw [hresult] at hconfigure hprepared
      dsimp only at hconfigure hprepared ⊢
      split
      · rename_i hfailed
        refine hconfigure.trans (freeStreamPeriods_does ?_)
        exact Bool.not_eq_true _ ▸ hprepared.not.mp hfailed
      · exact hconfigure

private theorem Effect.keeps_prepared {k : Kind} (heffect : Effect k s s')
    (hunprepare : k ≠ .unprepare) (hcreate : k ≠ .create) (hprepared : s.prepared = true) :
    s'.prepared = true := by
  cases heffect with
  | flags _ prepared _ _ hset =>
      rcases hset with rfl | ⟨rfl, -⟩
      · exact hprepared
      · rfl
  | unprepare _ _ => exact absurd rfl hunprepare
  | accept _ packet _ => exact (queueRenderPacket_aside s packet).prepared.trans hprepared
  | clear => exact (clearRenderQueue_aside s).prepared.trans hprepared
  | submitRender _ packet index i queue =>
      have hpop := popRenderPacket_aside ((s.fillRender index i packet).sent i queue)
      exact hpop.prepared.trans hprepared
  | fail _ packet _ =>
      exact ((fail_aside s packet).trans (popRenderPacket_aside _)).prepared.trans hprepared
  | takeCapture _ chain answer queue _ _ =>
      have hcopy := copyCapture_aside ({ s with
        queue := queue }.release chain.period) (s.period chain.period).packetNumber
      exact hcopy.prepared.trans hprepared
  | staleCapture _ chain answer queue _ _ =>
      have hcopy := copyCapture_aside { s with
        queue := queue }.stale chain.packetNumber
      exact hcopy.prepared.trans hprepared
  | freePeriods _ hnot => exact absurd (hnot.symm.trans hprepared) (by decide)
  | allocatePackets _ packetCount packetSize _ _ _ =>
      exact (allocateRtPackets_aside s packetCount packetSize true).prepared.trans hprepared
  | create _ _ => exact absurd rfl hcreate
  | cleanup =>
      unfold evtStreamCleanup freeStreamPeriods
      dsimp only
      split
      · exact hprepared
      · exact hprepared
  | _ => exact hprepared

private theorem Does.keeps_prepared (h : Does background s s') (hprepared : s.prepared = true) :
    s'.prepared = true := by
  have hstep : ∀ k ∈ background, ∀ a b, Effect k a b → a.prepared = true → b.prepared = true := by
    intro k hk a b heffect
    apply heffect.keeps_prepared
    · rintro rfl
      exact absurd hk (by decide)
    · rintro rfl
      exact absurd hk (by decide)
  exact h.invariant hstep hprepared

private theorem submitCapturePeriods_does (n i : ℕ) (h : Wired s) (hprepared : s.prepared = true)
    (hperiods : s.periods ≠ none) (hn : i + n ≤ s.periodCount) :
    Does ambient s (submitCapturePeriods n i s).2 := by
  induction n generalizing i s with
  | zero => exact Within.refl s
  | succ n ih =>
      unfold submitCapturePeriods
      have hsubmit := submitCapturePeriod_does s i s.nextCapturePacket hprepared hperiods (by omega)
      have hwired := hsubmit.wired h
      have hrest : i + 1 + n ≤ s.periodCount := by omega
      rcases submitCapturePeriod_cases s i s.nextCapturePacket with hcase | hcase |
        ⟨-, -, -, hcase | ⟨queue, -, hcase⟩⟩
      · rw [hcase]
        exact Within.refl s
      · rw [hcase]
        exact ih (i + 1) h hprepared hperiods hrest
      · rw [hcase] at hsubmit hwired ⊢
        exact hsubmit.trans (ih (i + 1) hwired hprepared hperiods hrest)
      · rw [hcase] at hsubmit hwired ⊢
        have hcount := does_nextCapturePacket
          ((s.fillCapture i s.nextCapturePacket).sent i queue) (s.nextCapturePacket + 1)
        have hlater := ih (i + 1) (hcount.wired hwired) hprepared hperiods hrest
        exact (hsubmit.trans hcount).trans hlater

theorem submitStream_does (h : Wired s) (hprepared : s.prepared = true)
    (hperiods : s.periods ≠ none) : Does ambient s (submitStream s).2 := by
  unfold submitStream
  split
  · exact submitCapturePeriods_does s.periodCount 0 h hprepared hperiods (by omega)
  · exact pumpRenderQueue_does s

private theorem does_running (h : s.prepared = true) (running : Bool) : Does background s { s with
    running := running } :=
  Does.inBackground (Effect.flags s s.prepared running (fun _ => h) (Or.inl rfl))

private theorem evtStreamRun_does (h : Wired s) (hpresent : s.present = true) (i : RunInput) :
    Does background s (evtStreamRun i s).2 := by
  unfold evtStreamRun
  split
  · exact Within.refl s
  obtain ⟨hconfigure, hprepared⟩ := configurePcmStream_does hpresent i.configure
  cases hresult : configurePcmStream i.configure s with
  | mk status s₁ =>
      rw [hresult] at hconfigure hprepared
      dsimp only at hconfigure hprepared ⊢
      split
      · exact hconfigure
      rename_i hsuccess
      have hready : s₁.prepared = true := hprepared.mp (not_not.mp hsuccess)
      have hwired := hconfigure.wired h
      have hsame := hconfigure.sameStream (by decide) (by decide)
      have hperiods := hwired.periods (hsame.present.trans hpresent) hready
      have hsubmit := submitStream_does hwired hready hperiods
      cases hresult' : submitStream s₁ with
      | mk status' s₂ =>
          rw [hresult'] at hsubmit
          dsimp only at hsubmit ⊢
          split
          · exact hconfigure.trans hsubmit.widen
          have hcommand := does_command s₂ .start i.start
          have hdelivered := completeAll_does i.meanwhile (s₂.command .start i.start)
          have hrest : Does background s₁ ((s₂.command .start i.start).completeAll i.meanwhile) :=
            Does.widen ((hsubmit.trans hcommand).trans hdelivered)
          have hstill := hrest.keeps_prepared hready
          split
          · exact (hconfigure.trans hrest).trans (does_running hstill false)
          have hstarted := (hconfigure.trans hrest).trans (does_running hstill true)
          dsimp only
          split
          · exact hstarted
          · exact hstarted.trans (pumpRenderQueue_does _).widen

private theorem evtStreamSetRenderPacket_does (s : Stream) (packet : ULONG) :
    Does (insert .accept background) s (evtStreamSetRenderPacket s packet).2 := by
  unfold evtStreamSetRenderPacket
  split
  · exact Within.refl s
  split
  · exact Within.refl s
  rename_i hcapacity
  have haccept : Does (insert .accept background) s (queueRenderPacket s packet) :=
    (Does.one (Effect.accept s packet hcapacity)).widen
  dsimp only
  split
  · exact haccept.trans (pumpRenderQueue_does _).widen
  · exact haccept

structure SameFlags (s s' : Stream) : Prop where
  prepared : s'.prepared = s.prepared
  running : s'.running = s.running
  periods : s'.periods = s.periods
  periodCount : s'.periodCount = s.periodCount

theorem Aside.sameFlags (h : Aside s s') : SameFlags s s' :=
  ⟨h.prepared, h.running, h.periods, h.periodCount⟩

/-- What goes on by itself, and what a stop does before the stream is unprepared. -/
def stopping : Finset Kind := insert .clear ambient

theorem Effect.sameFlags {k : Kind} (heffect : Effect k s s') (hk : k ∈ stopping) :
    SameFlags s s' := by
  cases heffect with
  | clear => exact (clearRenderQueue_aside s).sameFlags
  | submitRender _ packet index i queue =>
      have hpop := (popRenderPacket_aside ((s.fillRender index i packet).sent i queue)).sameFlags
      exact ⟨hpop.prepared, hpop.running, hpop.periods, hpop.periodCount⟩
  | fail _ packet _ => exact ((fail_aside s packet).trans (popRenderPacket_aside _)).sameFlags
  | takeCapture _ chain answer queue _ _ =>
      have hcopy := (copyCapture_aside ({ s with
        queue := queue }.release chain.period) (s.period chain.period).packetNumber).sameFlags
      exact ⟨hcopy.prepared, hcopy.running, hcopy.periods, hcopy.periodCount⟩
  | staleCapture _ chain answer queue _ _ =>
      have hcopy := (copyCapture_aside { s with
        queue := queue }.stale chain.packetNumber).sameFlags
      exact ⟨hcopy.prepared, hcopy.running, hcopy.periods, hcopy.periodCount⟩
  | tune | fillRender | submitCapture | fillCapture | takeRender | staleRender | deliver =>
      exact ⟨rfl, rfl, rfl, rfl⟩
  | _ => exact absurd hk (by decide)

theorem Does.sameFlags (h : Does stopping s s') : SameFlags s s' := by
  have hstep : ∀ k ∈ stopping, ∀ a b, Effect k a b → SameFlags s a → SameFlags s b := by
    intro k hk a b heffect ha
    have hb := heffect.sameFlags hk
    exact ⟨hb.prepared.trans ha.prepared, hb.running.trans ha.running, hb.periods.trans ha.periods,
      hb.periodCount.trans ha.periodCount⟩
  exact h.invariant hstep ⟨rfl, rfl, rfl, rfl⟩

/-- Before a stop waits: the commands, what the device completes meanwhile, the queue cleared. -/
def Stream.halted (s : Stream) (release : Bool) (i : StopInput) : Stream :=
  let cleared := clearRenderQueue (({ s with
    running := false }.command .stop i.stop).completeAll i.meanwhile)
  if release then cleared.command .release i.release else cleared

theorem stopStream_eq (s : Stream) (release : Bool) (i : StopInput) (hpresent : s.present = true)
    (hprepared : s.prepared = true) :
    stopStream release i s =
      if release then { waitForStreamIdle releaseTimeoutMs i.sleeps (s.halted true i) with
        prepared := false }
      else waitForStreamIdle pauseTimeoutMs i.sleeps (s.halted false i) := by
  unfold stopStream Stream.halted
  simp [hpresent, hprepared]

theorem stopStream_of_unprepared (s : Stream) (release : Bool) (i : StopInput)
    (hpresent : s.present = true) (hprepared : s.prepared = false) :
    stopStream release i s = { s with
      running := false } := by
  unfold stopStream
  rw [if_neg (by simp [hpresent])]
  exact if_pos hprepared

theorem halted_does (s : Stream) (release : Bool) (i : StopInput) :
    Does stopping { s with
      running := false } (s.halted release i) := by
  have hstop := does_command { s with
    running := false } .stop i.stop
  have hmeanwhile := completeAll_does i.meanwhile ({ s with
    running := false }.command .stop i.stop)
  have hclear : Does stopping _ _ := (Does.one (Effect.clear (({ s with
    running := false }.command .stop i.stop).completeAll i.meanwhile))).widen
  have hbefore := (Does.widen (hstop.trans hmeanwhile)).trans hclear
  unfold Stream.halted
  dsimp only
  split
  · exact hbefore.trans (does_command _ .release i.release).widen
  · exact hbefore

theorem does_not_running (s : Stream) : Does background s { s with
    running := false } :=
  Does.inBackground (Effect.flags s s.prepared false (by simp) (Or.inl rfl))

private theorem stopped_does (h : Wired s) (release : Bool) (i : StopInput) (n : ℕ) :
    Does stopping { s with
      running := false } (waitForStreamIdle n i.sleeps (s.halted release i)) := by
  have hhalted := halted_does s release i
  have hwired := hhalted.wired ((does_not_running s).wired h)
  exact hhalted.trans (waitForStreamIdle_does n i.sleeps hwired).widen

theorem pauseStream_does (h : Wired s) (i : StopInput) :
    Does (insert .clear background) s (stopStream false i s) := by
  have hrunning : Does (insert .clear background) s { s with
      running := false } := (does_not_running s).widen
  cases hpresent : s.present with
  | false =>
      unfold stopStream
      rw [hpresent]
      exact Within.refl s
  | true =>
      cases hprepared : s.prepared with
      | false =>
          rw [stopStream_of_unprepared s false i hpresent hprepared]
          exact hrunning
      | true =>
          rw [stopStream_eq s false i hpresent hprepared]
          exact hrunning.trans (stopped_does h false i pauseTimeoutMs).widen

theorem releaseStream_does (h : Wired s) (i : StopInput) :
    Does (insert .unprepare (insert .clear background)) s (stopStream true i s) := by
  have hrunning : Does (insert .unprepare (insert .clear background)) s { s with
      running := false } := (does_not_running s).widen
  cases hpresent : s.present with
  | false =>
      unfold stopStream
      rw [hpresent]
      exact Within.refl s
  | true =>
      cases hprepared : s.prepared with
      | false =>
          rw [stopStream_of_unprepared s true i hpresent hprepared]
          exact hrunning
      | true =>
          rw [stopStream_eq s true i hpresent hprepared]
          have hstopped := stopped_does h true i releaseTimeoutMs
          have hunprepare := Effect.unprepare _ hstopped.sameFlags.running
          exact hrunning.trans (Within.trans hstopped.widen (Does.one hunprepare).widen)

theorem releaseStream_unprepared (s : Stream) (i : StopInput) (hpresent : s.present = true) :
    (stopStream true i s).prepared = false := by
  cases hprepared : s.prepared with
  | false =>
      rw [stopStream_of_unprepared s true i hpresent hprepared]
      exact hprepared
  | true =>
      rw [stopStream_eq s true i hpresent hprepared]
      rfl

/-! ## Steps -/

/-- What an input may do to the render stream or the capture stream. -/
def Input.kinds : Input → Bool → Finset Kind
  | .create capture, c => if c = capture then {.create} else ∅
  | .cleanup capture, c => if c = capture then {.cleanup} else ∅
  | .allocateRtPackets capture _ _ _, c =>
      if c = capture then {.freePackets, .allocatePackets} else ∅
  | .freeRtPackets capture, c => if c = capture then {.freePackets} else ∅
  | .pause capture _, c => if c = capture then insert .clear background else ambient
  | .releaseHardware capture _, c =>
      if c = capture then insert .unprepare (insert .clear background) else ambient
  | .setRenderPacket _, c => if c = false then insert .accept background else ∅
  | _, _ => background

@[simp] theorem on_self (w : World) (c : Bool) (f : Stream → Stream) :
    (w.on c f).streams c = f (w.streams c) :=
  Function.update_self _ _ _

theorem on_other (w : World) {c d : Bool} (f : Stream → Stream) (h : d ≠ c) :
    (w.on c f).streams d = w.streams d :=
  Function.update_of_ne h _ _

@[simp] theorem drainQueues_streams (w : World) (c : Bool) :
    (drainQueues w).streams c = drainStreamQueue (w.streams c) :=
  rfl

private theorem ite_empty_subset (p : Prop) [Decidable p] (K : Finset Kind) :
    (if p then K else ∅) ⊆ K := by
  split
  · exact Finset.Subset.refl K
  · exact Finset.empty_subset K

theorem allocateRtPackets_does (s : Stream) (packetCount packetSize : ℕ) (allocated : Bool) :
    Does {.freePackets, .allocatePackets} s
      (allocateRtPackets s packetCount packetSize allocated).2 := by
  by_cases hbad : packetCount = 0 ∨ packetSize = 0 ∨ pageSize < packetSize
  · unfold allocateRtPackets
    rw [if_pos hbad]
    exact Within.refl s
  · cases allocated with
    | false =>
        unfold allocateRtPackets
        rw [if_neg hbad]
        exact (Does.one (Effect.freePackets s)).widen
    | true =>
        simp only [not_or, not_lt] at hbad
        exact (Does.one (Effect.allocatePackets s packetCount packetSize hbad.1 hbad.2.1
          hbad.2.2)).widen

private theorem callback_does {K : Finset Kind} (w : World) (c : Bool) (f : Stream → Stream)
    (hf : (w.streams c).present = true → Does K (w.streams c) (f (w.streams c))) (d : Bool) :
    Does (if d = c then K else ∅) (w.streams d) ((w.callback c f).streams d) := by
  unfold World.callback
  by_cases hpresent : (w.streams c).present = true
  · rw [if_pos hpresent]
    by_cases hd : d = c
    · subst hd
      rw [if_pos rfl, on_self]
      exact hf hpresent
    · rw [on_other w f hd]
      exact Within.refl _
  · rw [if_neg hpresent]
    exact Within.refl _

def AllWired (w : World) : Prop := ∀ c, Wired (w.streams c)

theorem drained_does (h : Wired s) (completions : List Completion) :
    Does ambient s (drainStreamQueue (s.completeAll completions)) := by
  have hdelivered := completeAll_does completions s
  exact hdelivered.trans (drainStreamQueue_does (hdelivered.wired h))

theorem step_does {w : World} (h : AllWired w) (i : Input) (c : Bool) :
    Does (i.kinds c) (w.streams c) ((w.step i).streams c) := by
  cases i with
  | create capture =>
      dsimp only [World.step, Input.kinds]
      by_cases hpresent : (w.streams capture).present = true
      · rw [if_pos hpresent]
        exact Within.refl _
      · rw [if_neg hpresent]
        by_cases hc : c = capture
        · subst hc
          rw [if_pos rfl, on_self]
          exact Does.one (Effect.create _ (Bool.not_eq_true _ ▸ hpresent))
        · rw [on_other w _ hc]
          exact Within.refl _
  | cleanup capture => exact callback_does w capture _ (fun _ => Does.one (Effect.cleanup _)) c
  | allocateRtPackets capture packetCount packetSize allocated =>
      exact callback_does w capture _ (fun _ => allocateRtPackets_does _ _ _ _) c
  | freeRtPackets capture =>
      exact callback_does w capture _ (fun _ => Does.one (Effect.freePackets _)) c
  | prepareHardware capture i =>
      have hstep := callback_does w capture (fun s => (evtStreamPrepareHardware i s).2)
        (fun hpresent => evtStreamPrepareHardware_does hpresent i) c
      exact Within.mono (ite_empty_subset _ background) hstep
  | run capture i =>
      have hstep := callback_does w capture (fun s => (evtStreamRun i s).2)
        (fun hpresent => evtStreamRun_does (h capture) hpresent i) c
      exact Within.mono (ite_empty_subset _ background) hstep
  | pause capture i =>
      dsimp only [World.step, Input.kinds]
      by_cases hpresent : (w.streams capture).present = true
      · rw [if_pos hpresent]
        unfold evtStreamPause
        rw [drainQueues_streams]
        by_cases hc : c = capture
        · subst hc
          have hstop := pauseStream_does (h c) i
          rw [if_pos rfl, on_self]
          exact hstop.trans (drained_does (hstop.wired (h c)) i.last).widen
        · rw [if_neg hc, on_other w _ hc]
          exact drainStreamQueue_does (h c)
      · rw [if_neg hpresent]
        exact Within.refl _
  | releaseHardware capture i =>
      dsimp only [World.step, Input.kinds]
      by_cases hpresent : (w.streams capture).present = true
      · rw [if_pos hpresent]
        unfold evtStreamReleaseHardware
        by_cases hc : c = capture
        · subst hc
          have hstop := releaseStream_does (h c) i
          have hdrained := drained_does (hstop.wired (h c)) i.last
          have hunprepared : (drainStreamQueue ((stopStream true i (w.streams c)).completeAll
              i.last)).prepared = false :=
            (Does.widen hdrained).sameFlags.prepared.trans
              (releaseStream_unprepared _ i hpresent)
          rw [if_pos rfl, on_self, drainQueues_streams, on_self]
          exact (hstop.trans hdrained.widen).trans (freeStreamPeriods_does hunprepared).widen
        · rw [if_neg hc, on_other _ _ hc, drainQueues_streams, on_other w _ hc]
          exact drainStreamQueue_does (h c)
      · rw [if_neg hpresent]
        exact Within.refl _
  | setRenderPacket packet =>
      exact callback_does w false _ (fun _ => evtStreamSetRenderPacket_does _ packet) c
  | complete capture completion =>
      dsimp only [World.step, Input.kinds]
      by_cases hc : c = capture
      · subst hc
        rw [on_self]
        exact Does.inBackground (Effect.deliver _ completion)
      · rw [on_other w _ hc]
        exact Within.refl _
  | interrupt =>
      have hdrain : Does background _ _ := (drainStreamQueue_does (h c)).widen
      exact hdrain

theorem AllWired.step {w : World} (h : AllWired w) (i : Input) : AllWired (w.step i) :=
  fun c => (step_does h i c).wired (h c)

theorem Wired.fresh (capture hasQueue : Bool) (queueSize : ℕ) :
    Wired (Stream.fresh capture hasQueue queueSize) :=
  ⟨fun _ => rfl, by simp [Stream.fresh], by simp [Stream.fresh], by simp [Stream.fresh],
    by simp [Stream.fresh], by simp [Stream.fresh]⟩

theorem allWired_run (hasQueue : Bool → Bool) (queueSize : Bool → ℕ) (inputs : List Input) :
    AllWired (run World.step (World.fresh hasQueue queueSize) inputs) :=
  run_invariant (P := AllWired) (fun _ i h => h.step i) inputs
    (fun c => Wired.fresh c (hasQueue c) (queueSize c))

end Viosnd.Circuit
