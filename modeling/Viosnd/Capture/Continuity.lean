import Viosnd.Capture.Position

/-!
# Capture across a pause

`SetState(KSSTATE_RUN)` resets packet numbers and position whatever state it comes from. The packet
numbers handed out keep rising, and the position never falls, as long as a start that is not
refused finds the position at zero.
-/

namespace Viosnd.Capture

open StepRun EffectSystem

def Event.handedOutPacket : Event → Option ULONG
  | .handedOut packet => some packet
  | _ => none

def handedOutPackets (history : List Event) : List ULONG := history.filterMap Event.handedOutPacket

/-- All packets ever handed out were handed out in the current session. -/
def OneSession (history : List Event) : Prop :=
  handedOutPackets history = (books history).handedOut

theorem OneSession.append {older : List Event} (h : OneSession older) (newer : List Event)
    (hnewer : .begun ∉ newer) : OneSession (newer ++ older) := by
  induction newer with
  | nil => exact h
  | cons e newer ih =>
      rw [List.mem_cons, not_or] at hnewer
      have hrest : OneSession (newer ++ older) := ih hnewer.2
      unfold OneSession at hrest ⊢
      cases e with
      | begun => exact absurd rfl hnewer.1
      | handedOut packet => exact congrArg (packet :: ·) hrest
      | _ => exact hrest

/-- The position is at least `floor`, and what was handed out was stored in this session. -/
structure Continued (floor : Nat) (w : World) : Prop where
  accounted : Accounted w
  tracked : Tracked w
  handed : (books w.history).handedOut ≠ [] → (books w.history).stored ≠ []
  single : OneSession w.history
  above : floor ≤ w.position.toNat

section

variable {floor : Nat} {w w' : World}

theorem Continued.begin (h : Continued floor w) (hzero : w.position = 0) (hfloor : floor = 0) :
    Continued floor (beginCapture w) := by
  have hnone : (books w.history).handedOut = [] := by
    by_contra hsome
    have hstored := List.length_pos_iff.mpr (h.handed hsome)
    have hposition := h.tracked.position
    have hsettled := h.tracked.settled
    have hreturned := h.accounted.returned
    have hsize : w.packetSize ≠ 0 := by
      apply h.tracked.sized
      intro hempty
      rw [hempty, List.length_nil] at hreturned
      omega
    have hpositive : 0 < w.packetSize.toNat :=
      Nat.pos_of_ne_zero fun h0 => hsize (BitVec.eq_of_toNat_eq h0)
    have hproduct := Nat.mul_pos hpositive hstored
    rw [← hposition, hzero] at hproduct
    exact absurd hproduct (by decide)
  refine ⟨beginCapture_accounted w, beginCapture_tracked w, fun hsome => absurd rfl hsome, ?_, ?_⟩
  · have hsingle := h.single
    unfold OneSession at hsingle ⊢
    rw [hnone] at hsingle
    exact hsingle
  · rw [hfloor]
    exact Nat.zero_le _

theorem Accounted.settle (h : Accounted w) :
    Accounted { w with captureInFlight := 0, outstandingWrites := 0 } := by
  obtain ⟨h1, h2, h3, h4, h5, h6, h7, h8, h9⟩ := h
  exact ⟨h1, h2, h3, h4, h5, h6, h1.ready, h8, h9⟩

private theorem Booking.handed (hR : Booking w w')
    (h : Orderly w → Accounted w ∧ Tracked w ∧
      ((books w.history).handedOut ≠ [] → (books w.history).stored ≠ [])) :
    Orderly w' → (books w'.history).handedOut ≠ [] → (books w'.history).stored ≠ [] := by
  intro horderly
  cases hR with
  | nothing => exact (h horderly).2.2
  | submit entry => exact (h (lendCaptureIo_orderly entry w horderly)).2.2
  | fail k entry => exact (h ((failCapture_orderly k entry w).mp horderly).2).2.2
  | complete k entry bytesRead audio =>
      intro _
      rw [(completeCapture_books entry bytesRead audio _).1]
      exact List.cons_ne_nil _ _
  | read =>
      obtain ⟨haccounted, htracked, hhanded⟩ := h ((getReadPacket_orderly w).mp horderly)
      unfold getReadPacket
      split_ifs with hbuffer hstate
      · exact hhanded
      · exact hhanded
      · intro _ hempty
        have hzero := htracked.written hempty
        have hcursor := haccounted.outstanding
        rw [not_or] at hstate
        exact hstate.2 (BitVec.eq_of_toNat_eq (by
          have hnone : w.outstandingWrites.toNat = 0 := by omega
          exact hnone))

theorem Booking.position_le (hR : Booking w w') (hw : Tracked w) (hw' : Tracked w') :
    w.position.toNat ≤ w'.position.toNat := by
  rw [hw.position, hw'.position, hR.geometry.2]
  apply Nat.mul_le_mul_left
  cases hR with
  | read =>
      unfold getReadPacket
      split_ifs <;> exact le_rfl
  | complete k entry bytesRead audio =>
      rw [(completeCapture_books entry bytesRead audio _).1]
      exact Nat.le_succ _
  | _ => exact le_rfl

/-- The changes that a run without SetState(KSSTATE_STOP) makes within a session. -/
def continuingKinds : Finset Kind := insert .settle lastingKinds

private theorem Effect.continued {k : Kind} (hR : Effect k w w') (hk : k ∈ continuingKinds)
    (h : Orderly w → Continued floor w) : Orderly w' → Continued floor w' := by
  intro horderly
  have hsingle : OneSession w.history → OneSession w'.history := by
    intro hw
    obtain ⟨newer, hhistory, hbegun⟩ := hR.history_extends (by
      rintro rfl
      exact absurd hk (by decide))
    rw [hhistory]
    exact hw.append newer hbegun
  by_cases hsettle : k = .settle
  · subst hsettle
    cases hR
    obtain ⟨haccounted, ⟨h1, h2, h3, h4, h5⟩, hhanded, hone, hfloor⟩ := h horderly
    exact ⟨haccounted.settle, ⟨h1, h2, h3, h4, h5⟩, hhanded, hone, hfloor⟩
  · obtain ⟨u, hbooking, hsame⟩ := hR.booking (Finset.mem_of_mem_insert_of_ne hk hsettle)
    have hu : Orderly u := hsame.orderly.mp horderly
    have hw := h (hbooking.orderly hu)
    have haccounted := hbooking.accounted (fun _ => hw.accounted) hu
    have htracked := hbooking.tracked (fun _ => ⟨hw.accounted, hw.tracked⟩) hu
    have hhanded := hbooking.handed (fun _ => ⟨hw.accounted, hw.tracked, hw.handed⟩) hu
    have hposition := hbooking.position_le hw.tracked htracked
    have hfloor := hw.above
    refine ⟨haccounted.congr hsame, htracked.congr hsame, ?_, hsingle hw.single, ?_⟩
    · rwa [hsame.books]
    · rw [hsame.position]
      omega

private theorem Does.continued {K : Finset Kind} (h : Does K w w') (hK : K ⊆ continuingKinds)
    (hw : Orderly w → Continued floor w) : Orderly w' → Continued floor w' :=
  h.invariant (P := fun w => Orderly w → Continued floor w)
    (fun _ hk _ _ hR => hR.continued (hK hk)) hw

end

/-! ## Runs -/

/-- No `SetState(KSSTATE_STOP)`, and a start that is not refused finds the position at zero. -/
def Action.Continues (w : World) : Action → Prop
  | .setState target _ => target ≠ .stop ∧
      (target = .run → w.state ≠ .run → w.captureFaulted = false → w.position = 0)
  | _ => True

/-- The action continues the stream, and the buffers come back in order. -/
def ContinuityGuard (w : World) (a : Action) : Prop := a.Continues w ∧ Orderly (step w a)

instance continuityGuard_decidable (w : World) (a : Action) : Decidable (ContinuityGuard w a) :=
  have : Decidable (a.Continues w) := match a with
    | .getReadPacket => isTrue trivial
    | .worker _ => isTrue trivial
    | .setState target _ => inferInstanceAs (Decidable (target ≠ .stop ∧
        (target = .run → w.state ≠ .run → w.captureFaulted = false → w.position = 0)))
  inferInstanceAs (Decidable (a.Continues w ∧ Orderly (step w a)))

private theorem step_continued {floor : Nat} {w : World} {a : Action} (hw : Continued floor w)
    (hg : ContinuityGuard w a) : Continued floor (step w a) := by
  obtain ⟨hcontinues, horderly⟩ := hg
  cases a with
  | setState target i =>
      change Orderly (setState target i w).2 at horderly
      change Continued floor (setState target i w).2
      obtain ⟨htarget, hstart⟩ := hcontinues
      by_cases hrun : w.state = .run
      · by_cases hto : target = .run
        · rw [setState_other target i w (iff_of_true hto hrun)] at horderly ⊢
          exact (Does.one (.enter target w)).continued (by decide) (fun _ => hw) horderly
        · rw [setState_stop target i w hto hrun] at horderly ⊢
          have hentered := (Does.one (.enter target w)).continued (by decide) (fun _ => hw)
          exact (stopCapture_pause_does target i w htarget).continued (by decide) hentered horderly
      · by_cases hto : target = .run
        · subst hto
          rw [setState_start i w hrun] at horderly ⊢
          cases hfault : w.captureFaulted with
          | true =>
              rw [startCapture_faulted i w hfault]
              exact hw
          | false =>
              have hzero := hstart rfl hrun hfault
              have hfloor : floor = 0 := by
                have habove := hw.above
                rw [hzero] at habove
                exact Nat.le_zero.mp habove
              exact (startCapture_begun_does i w hfault).continued (by decide)
                (fun _ => hw.begin hzero hfloor) horderly
        · rw [setState_other target i w (iff_of_false hto hrun)] at horderly ⊢
          exact (Does.one (.enter target w)).continued (by decide) (fun _ => hw) horderly
  | worker s => exact (workerStep_does w s).continued (by decide) (fun _ => hw) horderly
  | getReadPacket => exact (Does.one (.read w)).continued (by decide) (fun _ => hw) horderly

private theorem World.fresh_continued (allocated : Option ULONG) :
    Continued 0 (World.fresh allocated) := by
  obtain ⟨h1, h2, h3, h4, h5, h6, h7, h8, h9⟩ := beginCapture_accounted (World.fresh allocated)
  obtain ⟨t1, t2, t3, t4, t5⟩ := beginCapture_tracked (World.fresh allocated)
  exact ⟨⟨h1, h2, h3, h4, h5, h6, h7, h8, h9⟩, ⟨t1, t2, t3, t4, t5⟩,
    fun hsome => absurd rfl hsome, rfl, Nat.zero_le _⟩

/-- Over any number of pauses, the packets handed out rise and the position never falls. -/
theorem run_continuity (allocated : Option ULONG) (actions : List Action)
    (hg : Guarded step ContinuityGuard (World.fresh allocated) actions) :
    (handedOutPackets (run step (World.fresh allocated) actions).history).Pairwise (· > ·) ∧
      ∀ first, first <+: actions → (run step (World.fresh allocated) first).position ≤
        (run step (World.fresh allocated) actions).position := by
  constructor
  · have hend := hg.invariant (P := Continued 0) (fun w a hw ha => step_continued hw ha)
      (World.fresh_continued allocated)
    rw [hend.single]
    have hincreasing := hend.accounted.sound.increasing
    simp only [window] at hincreasing
    rw [List.pairwise_map] at hincreasing
    exact hincreasing
  · rintro first ⟨second, rfl⟩
    rw [guarded_append] at hg
    have hmiddle := hg.1.invariant (P := Continued 0) (fun w a hw ha => step_continued hw ha)
      (World.fresh_continued allocated)
    rw [run_append]
    generalize run step (World.fresh allocated) first = w at hg hmiddle ⊢
    have hfloor : Continued w.position.toNat w := { hmiddle with above := le_rfl }
    exact (hg.2.invariant (P := Continued w.position.toNat)
      (fun w a hw ha => step_continued hw ha) hfloor).above

def recorded : Action := .worker (.reclaim (.used 0 10 true fun _ => 0))

/-- The stream is paused before a packet was completed with success, and two packets are read after
the resume. -/
def resumeAtZero : List Action :=
  [.setState .run .granted, .worker (.submit .queued),
    .worker (.reclaim (.used 0 4 true fun _ => 0)), .setState .pause .granted,
    .setState .run .granted, .worker (.submit .queued), .worker (.submit .queued), recorded,
    .getReadPacket, recorded, .getReadPacket, .setState .pause .granted]

theorem run_continuity_paused :
    (handedOutPackets (run step (World.fresh (some 4096)) resumeAtZero).history).Pairwise (· > ·) ∧
      (∀ first, first <+: resumeAtZero → (run step (World.fresh (some 4096)) first).position ≤
        (run step (World.fresh (some 4096)) resumeAtZero).position) ∧
      handedOutPackets (run step (World.fresh (some 4096)) resumeAtZero).history = [1, 0] := by
  obtain ⟨hrising, hposition⟩ := run_continuity (some 4096) resumeAtZero (by decide +kernel)
  exact ⟨hrising, hposition, by decide +kernel⟩

/-- One packet is read before a pause, and the stream goes on. -/
def pauseAndResume : List Action :=
  [.setState .run .granted, .worker (.submit .queued), recorded, .getReadPacket,
    .setState .pause .granted, .setState .run .granted, .worker (.submit .queued), recorded,
    .getReadPacket]

/-- After the pause packet 0 is handed out again, and the position is back at zero. -/
theorem run_not_continuity :
    ¬ (handedOutPackets (run step (World.fresh (some 4096)) pauseAndResume).history).Pairwise
        (· > ·) ∧
      (run step (World.fresh (some 4096)) (pauseAndResume.take 6)).position <
        (run step (World.fresh (some 4096)) (pauseAndResume.take 5)).position := by
  decide +kernel

end Viosnd.Capture
