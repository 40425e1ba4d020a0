import Viosnd.Worker.Threads

/-!
# The references of a stream

`m_RefCount` is what the caller, the call under way and the workers hold. Whoever takes it to zero
is alone with the stream.
-/

namespace Viosnd.Worker

open StepRun

/-! ## Who holds a reference -/

def ReleaseAt.holds : ReleaseAt → Bool
  | .check | .stop _ | .decrement => true
  | _ => false

def ReleaseAt.isLast : ReleaseAt → Bool
  | .last | .lastStop _ => true
  | _ => false

def Place.holds : Place → Bool
  | .starting | .loop | .leaving => true
  | .release place => place.holds
  | .terminated => false

def Place.isLast : Place → Bool
  | .release place => place.isLast
  | _ => false

/-- The references in the hands of the call under way, besides `callerRefs`. -/
def CallerAt.refs : CallerAt → ℕ
  | .release place => place.holds.toNat
  | .start _ (.drop place) => place.holds.toNat
  | .start _ .createThread => 1
  | _ => 0

def CallerAt.inSetState : CallerAt → Bool
  | .start _ _ | .leave _ => true
  | _ => false

def CallerAt.isLast : CallerAt → Bool
  | .release place => place.isLast
  | .start _ (.drop place) => place.isLast
  | _ => false

/-! ## The count -/

structure World.Counted (w : World) : Prop where
  refs : w.stream.refCount = w.callerRefs + w.caller.refs + w.threads.countP Place.holds
  calling : w.caller.inSetState = true → 0 < w.callerRefs
  lastThread : ∀ p ∈ w.threads, p.isLast = true → w.stream.refCount = 0
  lastCaller : w.caller.isLast = true → w.stream.refCount = 0

@[simp] theorem stopRenderWorker_refCount (ended : ℕ → Bool) (inTime : Bool) (s : Stream)
    (place : StopAt) : (stopRenderWorker ended inTime s place).1.refCount = s.refCount := by
  unfold stopRenderWorker
  cases place with
  | read => cases s.threadObject <;> rfl
  | wait thread => dsimp only; split_ifs <;> rfl
  | _ => rfl

private theorem release_refCount_le (ended : ℕ → Bool) (self : Option ℕ) (inTime : Bool)
    (s : Stream) (place : ReleaseAt) :
    (release ended self inTime s place).1.refCount ≤ s.refCount := by
  cases place with
  | check => simp only [release]; split_ifs <;> exact Nat.le_refl _
  | stop place => cases place <;> simp [release]
  | decrement => exact Nat.sub_le _ _
  | last => simp only [release]; split_ifs <;> exact Nat.le_refl _
  | lastStop place => cases place <;> simp [release]
  | returned => exact Nat.le_refl _

private theorem release_counts (ended : ℕ → Bool) (self : Option ℕ) (inTime : Bool) (s : Stream)
    (place : ReleaseAt) (hpos : place.holds = true → 0 < s.refCount)
    (hlast : place.isLast = true → s.refCount = 0) :
    (release ended self inTime s place).1.refCount + place.holds.toNat =
        s.refCount + (release ended self inTime s place).2.holds.toNat ∧
      ((release ended self inTime s place).2.isLast = true →
        (release ended self inTime s place).1.refCount = 0) := by
  cases place with
  | check =>
      simp only [release]
      split_ifs <;> simp [ReleaseAt.holds, ReleaseAt.isLast]
  | stop place =>
      cases place <;> simp [release, ReleaseAt.holds, ReleaseAt.isLast]
  | decrement =>
      have hone := hpos rfl
      simp only [release]
      split_ifs with hzero
      · simp only [ReleaseAt.holds, ReleaseAt.isLast]
        exact ⟨by simp; omega, fun _ => hzero⟩
      · simp only [ReleaseAt.holds, ReleaseAt.isLast]
        exact ⟨by simp; omega, fun h => by simp at h⟩
  | last =>
      have hzero := hlast rfl
      simp only [release]
      split_ifs <;> simp [ReleaseAt.holds, ReleaseAt.isLast, hzero]
  | lastStop place =>
      have hzero := hlast rfl
      cases place <;> simp [release, ReleaseAt.holds, ReleaseAt.isLast, hzero]
  | returned => simp [release, ReleaseAt.holds, ReleaseAt.isLast]

variable {w : World}

private theorem World.Counted.refCount_pos (h : w.Counted) (hset : w.caller.inSetState = true) :
    0 < w.stream.refCount := by
  have hcalling := h.calling hset
  have hrefs := h.refs
  omega

theorem World.Counted.move (h : w.Counted) {s : Stream} {c : CallerAt}
    (hs : s.refCount = w.stream.refCount) (hrefs : c.refs = w.caller.refs)
    (hset : c.inSetState = true → w.caller.inSetState = true) (hlast : c.isLast = false) :
    World.Counted { w with
      stream := s
      caller := c } := by
  refine ⟨?_, fun hin => h.calling (hset hin), fun p hp hplast => ?_, fun hc => ?_⟩
  · show s.refCount = _
    rw [hs, h.refs]
    simp only [hrefs]
  · exact hs.trans (h.lastThread p hp hplast)
  · simp [hlast] at hc

theorem World.Counted.release (h : w.Counted) {place : ReleaseAt} {c : ReleaseAt → CallerAt}
    (hcaller : w.caller = c place) (hrefs : ∀ r, (c r).refs = r.holds.toNat)
    (hlast : ∀ r, (c r).isLast = r.isLast) (hset : ∀ r, (c r).inSetState = (c place).inSetState)
    (granted : Bool) :
    World.Counted { w with
      stream := (Worker.release w.ended none granted w.stream place).1
      caller := c (Worker.release w.ended none granted w.stream place).2 } := by
  have hcount := h.refs
  rw [hcaller, hrefs] at hcount
  have hzero : place.isLast = true → w.stream.refCount = 0 := fun hl =>
    h.lastCaller (by rw [hcaller, hlast, hl])
  obtain ⟨hsum, hnext⟩ := release_counts w.ended none granted w.stream place
    (fun hholds => by rw [hholds] at hcount; simp at hcount; omega) hzero
  refine ⟨?_, fun hin => ?_, fun p hp hplast => ?_, fun hl => ?_⟩
  · show (Worker.release w.ended none granted w.stream place).1.refCount =
      w.callerRefs + (c _).refs + w.threads.countP Place.holds
    rw [hrefs]
    omega
  · rw [hset, ← hcaller] at hin
    exact h.calling hin
  · have hgone := h.lastThread p hp hplast
    have hle := release_refCount_le w.ended none granted w.stream place
    rw [hgone] at hle
    exact Nat.le_zero.mp hle
  · rw [hlast] at hl
    exact hnext hl

private theorem counted_start (h : w.Counted) {oldState : KsState} {place : StartAt}
    (hcaller : w.caller = .start oldState place) (granted : Bool) :
    (moveStart granted oldState w place).Counted := by
  have hset : w.caller.inSetState = true := by rw [hcaller]; rfl
  have hpos := h.refCount_pos hset
  have hnolast : ∀ p ∈ w.threads, p.isLast ≠ true := fun p hp hl => by
    have := h.lastThread p hp hl
    omega
  have hmove : ∀ (s : Stream) (c : CallerAt), s.refCount = w.stream.refCount → c.refs = 0 →
      (CallerAt.start oldState place).refs = 0 → c.isLast = false → World.Counted { w with
        stream := s
        caller := c } := by
    intro s c hs hc hplace hlast
    exact h.move hs (by rw [hc, hcaller]; exact hplace.symm) (fun _ => hset) hlast
  have hrefs := h.refs
  rw [hcaller] at hrefs
  cases place with
  | checkFaulted =>
      refine hmove w.stream _ rfl ?_ rfl ?_ <;> split_ifs <;> rfl
  | prepare => refine hmove w.stream _ rfl ?_ rfl ?_ <;> cases granted <;> rfl
  | enterRun => exact hmove _ _ rfl rfl rfl rfl
  | test => refine hmove w.stream _ rfl ?_ rfl ?_ <;> split_ifs <;> rfl
  | allocatePool => refine hmove w.stream _ rfl ?_ rfl ?_ <;> cases granted <;> rfl
  | clearStop => exact hmove _ _ rfl rfl rfl rfl
  | addRef =>
      refine ⟨?_, fun _ => h.calling hset, fun p hp hl => absurd hl (hnolast p hp),
        fun hl => by cases hl⟩
      show w.stream.refCount + 1 = w.callerRefs + 1 + w.threads.countP Place.holds
      simp only [CallerAt.refs] at hrefs
      omega
  | createThread =>
      cases granted with
      | true =>
          refine ⟨?_, fun _ => h.calling hset, fun p hp hl => ?_, fun hl => by cases hl⟩
          · show w.stream.refCount =
              w.callerRefs + 0 + (w.threads ++ [Place.starting]).countP Place.holds
            rw [List.countP_append, hrefs]
            simp only [CallerAt.refs, List.countP_singleton, Place.holds, if_true]
            omega
          · rcases List.mem_append.mp hp with hold | hnew
            · exact absurd hl (hnolast p hold)
            · rw [List.mem_singleton.mp hnew] at hl
              cases hl
      | false =>
          refine h.move (s := w.stream) rfl ?_ (fun _ => hset) rfl
          rw [hcaller]
          rfl
  | drop place =>
      have hrelease := h.release (c := fun r => .start oldState (.drop r)) hcaller
        (fun _ => rfl) (fun _ => rfl) (fun _ => rfl) granted
      cases place with
      | returned => exact hmove w.stream _ rfl rfl rfl rfl
      | _ => exact hrelease
  | referenceObject thread =>
      cases granted with
      | true => exact hmove _ _ rfl rfl rfl rfl
      | false =>
          have hunchanged := hmove w.stream (.start oldState .setStop) rfl rfl rfl rfl
          exact ⟨hunchanged.refs, hunchanged.calling, hunchanged.lastThread,
            hunchanged.lastCaller⟩
  | setStarted => exact hmove _ _ rfl rfl rfl rfl
  | setStop => exact hmove _ _ rfl rfl rfl rfl
  | restore => exact hmove _ _ rfl rfl rfl rfl

private theorem counted_leave (h : w.Counted) {place : LeaveAt} (hcaller : w.caller = .leave place)
    (granted : Bool) : (moveLeave granted w place).Counted := by
  have hset : w.caller.inSetState = true := by rw [hcaller]; rfl
  have hmove : ∀ (s : Stream) (c : CallerAt), s.refCount = w.stream.refCount → c.refs = 0 →
      c.isLast = false → World.Counted { w with
        stream := s
        caller := c } := by
    intro s c hs hc hlast
    exact h.move hs (by rw [hc, hcaller]; rfl) (fun _ => hset) hlast
  cases place with
  | test => refine hmove w.stream _ rfl ?_ ?_ <;> split_ifs <;> rfl
  | stop place =>
      have hstop := stopRenderWorker_refCount w.ended granted w.stream place
      cases place <;> first | exact hmove w.stream _ rfl rfl rfl | exact hmove _ _ hstop rfl rfl
  | quiesce stopped =>
      simp only [moveLeave]
      split_ifs <;> exact hmove _ _ rfl rfl rfl
  | stopAgain place =>
      have hstop := stopRenderWorker_refCount w.ended granted w.stream place
      cases place <;> first | exact hmove w.stream _ rfl rfl rfl | exact hmove _ _ hstop rfl rfl
  | configure stopped => exact hmove _ _ rfl rfl rfl
  | finish stopped => exact hmove _ _ rfl rfl rfl

private theorem counted_caller (h : w.Counted) (granted : Bool) :
    (moveCaller granted w).Counted := by
  unfold moveCaller
  cases hcaller : w.caller with
  | idle => exact h
  | start oldState place => exact counted_start h hcaller granted
  | leave place => exact counted_leave h hcaller granted
  | release place =>
      have hrelease := h.release (c := .release) hcaller (fun _ => rfl) (fun _ => rfl)
        (fun _ => rfl) granted
      cases place with
      | returned =>
          exact h.move (s := w.stream) (c := .idle) rfl (by rw [hcaller]; rfl)
            (fun hin => by cases hin) rfl
      | _ => exact hrelease

private theorem moveWorker_refCount_le (ended : ℕ → Bool) (self : ℕ) (inTime : Bool) (s : Stream)
    (p : Place) : (moveWorker ended self inTime s p).1.refCount ≤ s.refCount := by
  cases p with
  | release place =>
      have hle := release_refCount_le ended (some self) inTime s place
      cases place with
      | returned => exact Nat.le_refl _
      | _ => exact hle
  | _ => exact Nat.le_refl _

private theorem moveWorker_counts (ended : ℕ → Bool) (self : ℕ) (inTime : Bool) (s : Stream)
    (p : Place) (hpos : p.holds = true → 0 < s.refCount)
    (hlast : p.isLast = true → s.refCount = 0) :
    (moveWorker ended self inTime s p).1.refCount + p.holds.toNat =
        s.refCount + (moveWorker ended self inTime s p).2.holds.toNat ∧
      ((moveWorker ended self inTime s p).2.isLast = true →
        (moveWorker ended self inTime s p).1.refCount = 0) := by
  cases p with
  | loop =>
      simp only [moveWorker]
      split_ifs <;> simp [Place.holds, Place.isLast]
  | release place =>
      have hcounts := release_counts ended (some self) inTime s place hpos hlast
      cases place with
      | returned => simp [moveWorker, Place.holds, ReleaseAt.holds, Place.isLast]
      | _ => exact hcounts
  | _ => simp [moveWorker, Place.holds, Place.isLast, ReleaseAt.holds, ReleaseAt.isLast]

private theorem counted_worker (h : w.Counted) {thread : ℕ} {p : Place}
    (hp : w.threads[thread]? = some p) (inTime : Bool) : World.Counted { w with
      stream := (moveWorker w.ended thread inTime w.stream p).1
      threads := w.threads.set thread (moveWorker w.ended thread inTime w.stream p).2 } := by
  have hmem : p ∈ w.threads := List.mem_of_getElem? hp
  have hrefs := h.refs
  have hholds : p.holds = true → 0 < w.threads.countP Place.holds := fun hh =>
    List.countP_pos_iff.mpr ⟨p, hmem, hh⟩
  obtain ⟨hsum, hnext⟩ := moveWorker_counts w.ended thread inTime w.stream p
    (fun hh => by have := hholds hh; omega) (h.lastThread p hmem)
  have hcount := ThreadPool.countP_move hp Place.holds
    (moveWorker w.ended thread inTime w.stream p).2
  have hgone : w.stream.refCount = 0 →
      (moveWorker w.ended thread inTime w.stream p).1.refCount = 0 := fun hzero =>
    Nat.le_zero.mp (hzero ▸ moveWorker_refCount_le w.ended thread inTime w.stream p)
  refine ⟨?_, h.calling, fun q hq hl => ?_, fun hl => hgone (h.lastCaller hl)⟩
  · show (moveWorker w.ended thread inTime w.stream p).1.refCount =
      w.callerRefs + w.caller.refs + (w.threads.set thread _).countP Place.holds
    omega
  · rcases ThreadPool.mem_of_mem_move hq with hold | rfl
    · exact hgone (h.lastThread q hold hl)
    · exact hnext hl

private theorem counted_setState (h : w.Counted) (hready : w.ready) (state : KsState) :
    (callSetState state w).Counted := by
  have hrefs := h.refs
  rw [hready.1] at hrefs
  unfold callSetState
  split_ifs with hrun hcapture hleave
  · exact ⟨hrefs, fun _ => hready.2, h.lastThread, fun hl => by cases hl⟩
  · exact ⟨hrefs, fun _ => hready.2, h.lastThread, fun hl => by cases hl⟩
  · exact ⟨hrefs, fun _ => hready.2, h.lastThread, fun hl => by cases hl⟩
  · exact ⟨h.refs, h.calling, h.lastThread, h.lastCaller⟩

theorem counted_step (h : w.Counted) (i : Input) : (w.step i).Counted := by
  cases i with
  | setState state =>
      simp only [World.step]
      split_ifs with hready
      · exact counted_setState h hready state
      · exact h
  | addRef =>
      simp only [World.step]
      split_ifs with hready
      · have hrefs := h.refs
        have hpos := hready.2
        refine ⟨?_, fun _ => Nat.succ_pos _, fun p hp hl => ?_, fun hl => ?_⟩
        · show w.stream.refCount + 1 =
            w.callerRefs + 1 + w.caller.refs + w.threads.countP Place.holds
          omega
        · have hzero := h.lastThread p hp hl
          omega
        · rw [hready.1] at hl
          cases hl
      · exact h
  | release =>
      simp only [World.step]
      split_ifs with hready
      · have hrefs := h.refs
        have hpos := hready.2
        rw [hready.1] at hrefs
        refine ⟨?_, fun hin => (by cases hin), h.lastThread, fun hl => (by cases hl)⟩
        show w.stream.refCount = w.callerRefs - 1 + 1 + w.threads.countP Place.holds
        simp only [CallerAt.refs] at hrefs
        omega
      · exact h
  | caller granted => exact counted_caller h granted
  | worker thread inTime =>
      simp only [World.step]
      cases hp : w.threads[thread]? with
      | none => exact h
      | some p => exact counted_worker h hp inTime
  | faultElsewhere => exact ⟨h.refs, h.calling, h.lastThread, h.lastCaller⟩

/-- A stream whose references are gone stays that way. -/
theorem refCount_step_zero (h : w.Counted) (hzero : w.stream.refCount = 0) (i : Input) :
    (w.step i).stream.refCount = 0 := by
  have hrefs := h.refs
  have hnot : ¬ w.ready := fun hready => by
    have hmine := hready.2
    omega
  cases i with
  | setState state => simp only [World.step, if_neg hnot, hzero]
  | addRef => simp only [World.step, if_neg hnot, hzero]
  | release => simp only [World.step, if_neg hnot, hzero]
  | caller granted =>
      have hidle : w.caller.inSetState = true → False := fun hset => by
        have hmine := h.calling hset
        omega
      simp only [World.step, moveCaller]
      cases hcaller : w.caller with
      | idle => exact hzero
      | start oldState place => exact absurd (by rw [hcaller]; rfl) hidle
      | leave place => exact absurd (by rw [hcaller]; rfl) hidle
      | release place =>
          have hle := release_refCount_le w.ended none granted w.stream place
          rw [hzero] at hle
          cases place with
          | returned => exact hzero
          | _ => exact Nat.le_zero.mp hle
  | worker thread inTime =>
      simp only [World.step]
      cases w.threads[thread]? with
      | none => exact hzero
      | some p =>
          have hle := moveWorker_refCount_le w.ended thread inTime w.stream p
          rw [hzero] at hle
          exact Nat.le_zero.mp hle
  | faultElsewhere => exact hzero

theorem fresh_counted (capture captureFaulted : Bool) :
    (World.fresh capture captureFaulted).Counted :=
  ⟨rfl, fun hset => (by cases hset), fun p hp => (by cases hp), fun hl => (by cases hl)⟩

/-- The references are counted in every run. -/
theorem run_counted (capture captureFaulted : Bool) (inputs : List Input) :
    (run World.step (World.fresh capture captureFaulted) inputs).Counted :=
  run_invariant (P := World.Counted) (fun _ i h => counted_step h i) inputs
    (fresh_counted capture captureFaulted)

end Viosnd.Worker
