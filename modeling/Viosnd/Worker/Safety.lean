import Viosnd.Worker.References

/-!
# At most one worker

A thread that has not come past its look at `m_ThreadObject` in its last `Release` is pending: it
may still service the stream, or stop the worker that does. As long as no thread is created while a
thread `StartRenderWorker` lost track of is pending, one thread at most is.
-/

namespace Viosnd.Worker

open StepRun

/-! ## Who is pending -/

def ReleaseAt.pending : ReleaseAt → Bool
  | .check | .stop _ => true
  | _ => false

def Place.pending : Place → Bool
  | .starting | .loop | .leaving => true
  | .release place => place.pending
  | .terminated => false

private theorem Place.pending_of_inLoop {p : Place} (h : p.inLoop = true) : p.pending = true := by
  cases p <;> simp_all [Place.inLoop, Place.pending]

private theorem Place.holds_of_pending {p : Place} (h : p.pending = true) : p.holds = true := by
  cases p with
  | release place =>
      cases place <;> simp_all [Place.pending, Place.holds, ReleaseAt.pending, ReleaseAt.holds]
  | _ => simp_all [Place.pending, Place.holds]

/-! ## The condition -/

/-- A thread whose object could not be referenced is pending. -/
def World.orphaned (w : World) : Bool :=
  w.unreferenced.any fun thread => (w.threads[thread]?).any Place.pending

def World.createsThread (w : World) : Input → Bool
  | .caller true => match w.caller with
      | .start _ .createThread => true
      | _ => false
  | _ => false

/-- No thread is created beside an orphaned one. -/
def NoOrphan (w : World) (i : Input) : Prop := w.createsThread i = true → w.orphaned = false

instance (w : World) (i : Input) : Decidable (NoOrphan w i) :=
  inferInstanceAs (Decidable (_ → _))

/-! ## Who is tracked -/

variable {w : World}

def World.PendingAt (w : World) (thread : ℕ) : Prop :=
  ∃ p, w.threads[thread]? = some p ∧ p.pending = true

/-- The thread of a capture stream was given up: no other is started. -/
def Stream.GivenUp (s : Stream) : Prop := s.capture = true ∧ s.captureFaulted = true

def CallerAt.created : CallerAt → Option ℕ
  | .start _ (.referenceObject thread) => some thread
  | _ => none

/-- `m_ThreadObject` is written and `m_WorkerStarted` is not yet. -/
def CallerAt.marking : CallerAt → Bool
  | .start _ .setStarted => true
  | _ => false

structure World.Tracked (w : World) : Prop where
  alone : ∀ t u, w.PendingAt t → w.PendingAt u → t = u
  tracked : ∀ t u, w.stream.threadObject = some t → w.PendingAt u → u = t
  /-- No worker stops another one. -/
  quiet : ∀ p ∈ w.threads, ∀ place, p ≠ .release (.stop place)
  lost : ∀ t, w.stream.threadObject = none → w.PendingAt t →
    w.stream.GivenUp ∨ t ∈ w.unreferenced ∨ w.caller.created = some t
  started : 0 < w.stream.refCount → w.stream.threadObject ≠ none →
    w.stream.workerStarted = true ∨ w.caller.marking = true

/-- What a call knows in `StopRenderWorker`. -/
def World.StopFits (w : World) : StopAt → Prop
  | .signal thread | .wait thread => w.stream.threadObject = some thread
  | .clearObject _ => ∀ t, w.PendingAt t → w.stream.GivenUp
  | .clearStarted _ => w.stream.threadObject = none
  | .read | .returned _ => True

def World.OnlyOrphans (w : World) : Prop := ∀ t, w.PendingAt t → t ∈ w.unreferenced

def World.StartFits (w : World) : StartAt → Prop
  | .prepare | .enterRun | .test => w.stream.threadObject = none → w.OnlyOrphans
  | .allocatePool | .clearStop | .addRef | .createThread =>
      w.stream.threadObject = none ∧ w.OnlyOrphans
  | .drop place => w.stream.threadObject = none ∧ ∀ stop, place ≠ .stop stop
  | .referenceObject thread =>
      w.stream.threadObject = none ∧ ∀ t, w.PendingAt t → t = thread
  | .checkFaulted | .setStarted | .setStop | .restore => True

/-- What a call knows at its place. -/
def World.CallerFits (w : World) : Prop :=
  match w.caller with
  | .start _ place => w.StartFits place
  | .leave (.stop place) | .leave (.stopAgain place) | .release (.stop place) => w.StopFits place
  | _ => True

private theorem tracked_of_released (h : w.Counted) (hzero : w.stream.refCount = 0) :
    w.Tracked ∧ w.CallerFits := by
  have hrefs := h.refs
  have hnone : ∀ p ∈ w.threads, p.holds ≠ true := by
    have hcount : w.threads.countP Place.holds = 0 := by omega
    exact List.countP_eq_zero.mp hcount
  have hpending : ∀ t, ¬ w.PendingAt t := fun t ⟨p, hp, hpend⟩ =>
    hnone p (List.mem_of_getElem? hp) (Place.holds_of_pending hpend)
  refine ⟨⟨fun t u ht => absurd ht (hpending t), fun t u _ hu => absurd hu (hpending u),
    fun p hp place heq => hnone p hp (by rw [heq]; rfl),
    fun t _ ht => absurd ht (hpending t), fun hpos => by omega⟩, ?_⟩
  unfold World.CallerFits
  split
  · have hset := h.calling (by simp_all [CallerAt.inSetState])
    omega
  · have hset := h.calling (by simp_all [CallerAt.inSetState])
    omega
  · have hset := h.calling (by simp_all [CallerAt.inSetState])
    omega
  · simp_all [CallerAt.refs, ReleaseAt.holds]
  · trivial

/-! ## Steps of the workers -/

private theorem moveWorker_keeps (h : w.Tracked) {thread : ℕ} {p : Place}
    (hp : w.threads[thread]? = some p) (hlive : p.isLast = false) (inTime : Bool) :
    (∃ n, (moveWorker w.ended thread inTime w.stream p).1 =
      { w.stream with
        refCount := n }) ∧
      ((moveWorker w.ended thread inTime w.stream p).2.pending = true → p.pending = true) ∧
      ∀ place, (moveWorker w.ended thread inTime w.stream p).2 ≠ .release (.stop place) := by
  have hquiet := h.quiet p (List.mem_of_getElem? hp)
  cases p with
  | starting => exact ⟨⟨_, rfl⟩, fun _ => rfl, fun _ => by simp [moveWorker]⟩
  | loop =>
      refine ⟨⟨_, rfl⟩, fun _ => rfl, fun place => ?_⟩
      simp only [moveWorker]
      split_ifs <;> simp
  | leaving => exact ⟨⟨_, rfl⟩, fun _ => rfl, fun _ => by simp [moveWorker]⟩
  | release place =>
      cases place with
      | check =>
          -- the object, if there is one, is the worker's own
          have hself : ¬ (w.stream.threadObject ≠ none ∧
              w.stream.threadObject ≠ some thread) := by
            rintro ⟨hsome, hother⟩
            obtain ⟨t, ht⟩ := Option.ne_none_iff_exists'.mp hsome
            have hsame := h.tracked t thread ht ⟨_, hp, rfl⟩
            exact hother (hsame ▸ ht)
          simp only [moveWorker, release, if_neg hself]
          exact ⟨⟨_, rfl⟩, fun _ => rfl, fun _ => by simp⟩
      | stop place => exact absurd rfl (hquiet place)
      | decrement =>
          refine ⟨⟨_, rfl⟩, fun hpend => ?_, fun place => ?_⟩
          · simp only [moveWorker, release] at hpend
            split_ifs at hpend <;> cases hpend
          · simp only [moveWorker, release]
            split_ifs <;> simp
      | last => cases hlive
      | lastStop place => cases hlive
      | returned => exact ⟨⟨_, rfl⟩, fun hpend => (by cases hpend), fun _ => by simp [moveWorker]⟩
  | terminated => exact ⟨⟨_, rfl⟩, id, fun _ => by simp [moveWorker]⟩

private theorem pendingAt_set {thread : ℕ} {p q : Place} (hp : w.threads[thread]? = some p)
    (hpend : q.pending = true → p.pending = true) {s : Stream} {t : ℕ}
    (h : World.PendingAt { w with
      stream := s
      threads := w.threads.set thread q } t) : w.PendingAt t := by
  obtain ⟨r, hr, hrpend⟩ := h
  have hr : (w.threads.set thread q)[t]? = some r := hr
  by_cases heq : t = thread
  · subst heq
    rw [List.getElem?_set_self (List.getElem?_eq_some_iff.mp hp).1] at hr
    obtain rfl := Option.some.inj hr
    exact ⟨p, hp, hpend hrpend⟩
  · rw [List.getElem?_set_ne (Ne.symm heq)] at hr
    exact ⟨r, hr, hrpend⟩

private theorem callerFits_fewer {s : Stream} {threads : List Place} (hfits : w.CallerFits)
    (hobj : s.threadObject = w.stream.threadObject) (hgiven : w.stream.GivenUp → s.GivenUp)
    (hfewer : ∀ t, World.PendingAt { w with
      stream := s
      threads := threads } t → w.PendingAt t) :
    World.CallerFits { w with
      stream := s
      threads := threads } := by
  have hstop : ∀ place, w.StopFits place → World.StopFits { w with
      stream := s
      threads := threads } place := by
    intro place hplace
    cases place with
    | signal t => exact hobj.trans hplace
    | wait t => exact hobj.trans hplace
    | clearObject stopped => exact fun t ht => hgiven (hplace t (hfewer t ht))
    | clearStarted stopped => exact hobj.trans hplace
    | _ => trivial
  unfold World.CallerFits at hfits ⊢
  cases hcaller : w.caller with
  | idle => trivial
  | start oldState place =>
      rw [hcaller] at hfits
      cases place with
      | prepare => exact fun hnone t ht => hfits (hobj ▸ hnone) t (hfewer t ht)
      | enterRun => exact fun hnone t ht => hfits (hobj ▸ hnone) t (hfewer t ht)
      | test => exact fun hnone t ht => hfits (hobj ▸ hnone) t (hfewer t ht)
      | allocatePool => exact ⟨hobj.trans hfits.1, fun t ht => hfits.2 t (hfewer t ht)⟩
      | clearStop => exact ⟨hobj.trans hfits.1, fun t ht => hfits.2 t (hfewer t ht)⟩
      | addRef => exact ⟨hobj.trans hfits.1, fun t ht => hfits.2 t (hfewer t ht)⟩
      | createThread => exact ⟨hobj.trans hfits.1, fun t ht => hfits.2 t (hfewer t ht)⟩
      | drop place => exact ⟨hobj.trans hfits.1, hfits.2⟩
      | referenceObject thread =>
          exact ⟨hobj.trans hfits.1, fun t ht => hfits.2 t (hfewer t ht)⟩
      | _ => trivial
  | leave place =>
      rw [hcaller] at hfits
      cases place with
      | stop place => exact hstop place hfits
      | stopAgain place => exact hstop place hfits
      | _ => trivial
  | release place =>
      rw [hcaller] at hfits
      cases place with
      | stop place => exact hstop place hfits
      | _ => trivial

private theorem tracked_worker (hcounted : w.Counted) (h : w.Tracked) (hfits : w.CallerFits)
    (hpos : 0 < w.stream.refCount) {thread : ℕ} {p : Place} (hp : w.threads[thread]? = some p)
    (inTime : Bool) :
    World.Tracked { w with
      stream := (moveWorker w.ended thread inTime w.stream p).1
      threads := w.threads.set thread (moveWorker w.ended thread inTime w.stream p).2 } ∧
    World.CallerFits { w with
      stream := (moveWorker w.ended thread inTime w.stream p).1
      threads := w.threads.set thread (moveWorker w.ended thread inTime w.stream p).2 } := by
  have hlive : p.isLast = false := by
    rw [Bool.eq_false_iff]
    intro hl
    have hzero := hcounted.lastThread p (List.mem_of_getElem? hp) hl
    omega
  obtain ⟨⟨n, hs⟩, hpend, hquiet⟩ := moveWorker_keeps h hp hlive inTime
  generalize hr : moveWorker w.ended thread inTime w.stream p = r at hs hpend hquiet
  obtain ⟨s, q⟩ := r
  dsimp only at hs hpend hquiet ⊢
  subst hs
  have hfewer := fun t => pendingAt_set (s := { w.stream with
    refCount := n }) (t := t) hp hpend
  refine ⟨⟨fun t u ht hu => h.alone t u (hfewer t ht) (hfewer u hu),
    fun t u hobj hu => h.tracked t u hobj (hfewer u hu), fun x hx place => ?_,
    fun t hobj ht => h.lost t hobj (hfewer t ht), fun _ hobj => h.started hpos hobj⟩,
    callerFits_fewer hfits rfl id hfewer⟩
  rcases ThreadPool.mem_of_mem_move hx with hold | rfl
  · exact h.quiet x hold place
  · exact hquiet place

/-! ## Steps of the caller -/

theorem World.Tracked.keep (h : w.Tracked) {s : Stream} {c : CallerAt}
    (hobj : s.threadObject = w.stream.threadObject) (hgiven : w.stream.GivenUp → s.GivenUp)
    (hcreated : w.caller.created = none) (hmarking : w.caller.marking = false)
    (hstarted : s.workerStarted = w.stream.workerStarted)
    (hpos : 0 < w.stream.refCount) : World.Tracked { w with
      stream := s
      caller := c } := by
  refine ⟨h.alone, fun t u ht => h.tracked t u (hobj ▸ ht), h.quiet, fun t ht hpend => ?_,
    fun _ hsome => ?_⟩
  · rcases h.lost t (hobj ▸ ht) hpend with hgone | hlost | hnew
    · exact Or.inl (hgiven hgone)
    · exact Or.inr (Or.inl hlost)
    · rw [hcreated] at hnew
      cases hnew
  · rcases h.started hpos (hobj ▸ hsome) with hold | hmark
    · exact Or.inl (hstarted.trans hold)
    · rw [hmarking] at hmark
      cases hmark

/-- `StopRenderWorker` lets go of a thread that has ended, or gives it up. -/
private theorem tracked_stop (h : w.Tracked) (hpos : 0 < w.stream.refCount) {place : StopAt}
    (hfits : w.StopFits place) (hcreated : w.caller.created = none)
    (hmarking : w.caller.marking = false) (inTime : Bool) (c : CallerAt) :
    World.Tracked { w with
      stream := (stopRenderWorker w.ended inTime w.stream place).1
      caller := c } ∧
    World.StopFits { w with
      stream := (stopRenderWorker w.ended inTime w.stream place).1
      caller := c } (stopRenderWorker w.ended inTime w.stream place).2 := by
  have hkeep := h.keep (s := w.stream) (c := c) rfl id hcreated hmarking rfl hpos
  cases place with
  | read =>
      cases hobj : w.stream.threadObject with
      | none =>
          simp only [stopRenderWorker, hobj]
          exact ⟨hkeep, hobj⟩
      | some t =>
          simp only [stopRenderWorker, hobj]
          exact ⟨hkeep, hobj⟩
  | signal t => exact ⟨h.keep rfl id hcreated hmarking rfl hpos, hfits⟩
  | wait t =>
      simp only [stopRenderWorker]
      split_ifs with hlate hcapture hended
      · exact ⟨h.keep rfl (fun hgone => ⟨hgone.1, rfl⟩) hcreated hmarking rfl hpos,
          fun _ _ => ⟨hcapture, rfl⟩⟩
      · exact ⟨hkeep, trivial⟩
      · -- the thread the object stands for is over, and no other is pending
        refine ⟨hkeep, fun u hu => ?_⟩
        obtain rfl := h.tracked t u hfits hu
        obtain ⟨p, hp, hpend⟩ := hu
        have hp : w.threads[u]? = some p := hp
        simp only [World.ended, hp, beq_iff_eq, Option.some.injEq] at hended
        subst hended
        cases hpend
      · exact ⟨hkeep, hfits⟩
  | clearObject stopped =>
      refine ⟨⟨h.alone, fun t u ht => (by cases ht), h.quiet, fun t _ ht => Or.inl (hfits t ht),
        fun _ hsome => absurd rfl hsome⟩, rfl⟩
  | clearStarted stopped =>
      have hnone : w.stream.threadObject = none := hfits
      refine ⟨⟨h.alone, h.tracked, h.quiet, fun t ht hpend => ?_, fun _ hsome =>
        absurd hnone hsome⟩, trivial⟩
      exact (hkeep.lost t ht hpend)
  | returned stopped => exact ⟨hkeep, trivial⟩

private theorem tracked_release (hcounted : w.Counted) (h : w.Tracked) (hfits : w.CallerFits)
    (hpos : 0 < w.stream.refCount) {place : ReleaseAt} (hcaller : w.caller = .release place)
    (granted : Bool) : (moveCaller granted w).Tracked ∧ (moveCaller granted w).CallerFits := by
  have hcreated : w.caller.created = none := by rw [hcaller]; rfl
  have hmarking : w.caller.marking = false := by rw [hcaller]; rfl
  have hkeep := fun c => h.keep (s := w.stream) (c := c) rfl id hcreated hmarking rfl hpos
  have hlive : place.isLast ≠ true := fun hl => by
    have hzero := hcounted.lastCaller (by rw [hcaller]; exact hl)
    omega
  simp only [World.CallerFits, hcaller] at hfits
  simp only [moveCaller, hcaller]
  cases place with
  | check =>
      simp only [release]
      split_ifs
      · exact ⟨hkeep _, trivial⟩
      · exact ⟨hkeep _, trivial⟩
  | stop place =>
      have hstop := tracked_stop h hpos hfits hcreated hmarking granted
      cases place with
      | returned stopped => exact ⟨hkeep _, trivial⟩
      | _ => exact hstop _
  | decrement =>
      refine ⟨h.keep rfl id hcreated hmarking rfl hpos, ?_⟩
      simp only [release, World.CallerFits]
      split_ifs <;> trivial
  | last => exact absurd rfl hlive
  | lastStop place => exact absurd rfl hlive
  | returned => exact ⟨hkeep _, trivial⟩

private theorem tracked_leave (h : w.Tracked) (hfits : w.CallerFits) (hpos : 0 < w.stream.refCount)
    {place : LeaveAt} (hcaller : w.caller = .leave place) (granted : Bool) :
    (moveLeave granted w place).Tracked ∧ (moveLeave granted w place).CallerFits := by
  have hcreated : w.caller.created = none := by rw [hcaller]; rfl
  have hmarking : w.caller.marking = false := by rw [hcaller]; rfl
  have hkeep := fun c => h.keep (s := w.stream) (c := c) rfl id hcreated hmarking rfl hpos
  simp only [World.CallerFits, hcaller] at hfits
  cases place with
  | test =>
      refine ⟨hkeep _, ?_⟩
      simp only [moveLeave, World.CallerFits]
      split_ifs <;> trivial
  | stop place =>
      have hstop := tracked_stop h hpos hfits hcreated hmarking granted
      cases place with
      | returned stopped => exact ⟨hkeep _, trivial⟩
      | _ => exact hstop _
  | quiesce stopped =>
      simp only [moveLeave]
      split_ifs
      · exact ⟨hkeep _, trivial⟩
      · exact ⟨h.keep rfl (fun hgone => ⟨hgone.1, rfl⟩) hcreated hmarking rfl hpos, trivial⟩
      · exact ⟨hkeep _, trivial⟩
      · exact ⟨hkeep _, trivial⟩
  | stopAgain place =>
      have hstop := tracked_stop h hpos hfits hcreated hmarking granted
      cases place with
      | returned stopped => exact ⟨hkeep _, trivial⟩
      | _ => exact hstop _
  | configure stopped =>
      refine ⟨h.keep rfl (fun hgone => ⟨hgone.1, ?_⟩) hcreated hmarking rfl hpos, trivial⟩
      show (w.stream.captureFaulted || _) = true
      rw [hgone.2, Bool.true_or]
  | finish stopped => exact ⟨h.keep rfl id hcreated hmarking rfl hpos, trivial⟩

private theorem tracked_create (h : w.Tracked) (hnone : w.stream.threadObject = none)
    (hfree : ∀ t, ¬ w.PendingAt t) (oldState : KsState) :
    World.Tracked { w with
      threads := w.threads ++ [.starting]
      caller := .start oldState (.referenceObject w.threads.length) } ∧
    World.CallerFits { w with
      threads := w.threads ++ [.starting]
      caller := .start oldState (.referenceObject w.threads.length) } := by
  have hnew : ∀ t, World.PendingAt { w with
      threads := w.threads ++ [.starting]
      caller := .start oldState (.referenceObject w.threads.length) } t →
      t = w.threads.length := by
    rintro t ⟨p, hp, hpend⟩
    have hp : (w.threads ++ [Place.starting])[t]? = some p := hp
    have hlt := (List.getElem?_eq_some_iff.mp hp).1
    rw [List.length_append, List.length_singleton] at hlt
    rcases Nat.lt_succ_iff_lt_or_eq.mp hlt with hold | heq
    · rw [List.getElem?_append_left hold] at hp
      exact absurd ⟨p, hp, hpend⟩ (hfree t)
    · exact heq
  refine ⟨⟨fun t u ht hu => (hnew t ht).trans (hnew u hu).symm, fun t u ht => ?_,
    fun p hp place => ?_, fun t _ ht => ?_, fun _ hsome => absurd hnone hsome⟩, hnone, hnew⟩
  · have hobj : w.stream.threadObject = some t := ht
    rw [hnone] at hobj
    cases hobj
  · rcases List.mem_append.mp hp with hold | hlast
    · exact h.quiet p hold place
    · rw [List.mem_singleton.mp hlast]
      exact fun heq => by cases heq
  · rw [hnew t ht]
    exact Or.inr (Or.inr rfl)

private theorem not_pending_of_not_orphaned (horphan : w.orphaned = false) {t : ℕ}
    (ht : t ∈ w.unreferenced) : ¬ w.PendingAt t := by
  rintro ⟨p, hp, hpend⟩
  unfold World.orphaned at horphan
  rw [List.any_eq_false] at horphan
  have hnot := horphan t ht
  rw [hp, Option.any_some, hpend] at hnot
  exact hnot rfl

private theorem tracked_start (hcounted : w.Counted) (h : w.Tracked) (hfits : w.CallerFits)
    (hpos : 0 < w.stream.refCount) {oldState : KsState} {place : StartAt}
    (hcaller : w.caller = .start oldState place) {granted : Bool}
    (hguard : NoOrphan w (.caller granted)) :
    (moveStart granted oldState w place).Tracked ∧
      (moveStart granted oldState w place).CallerFits := by
  simp only [World.CallerFits, hcaller] at hfits
  have hkeep : ∀ (s : Stream) (c : CallerAt), (CallerAt.start oldState place).created = none →
      (CallerAt.start oldState place).marking = false →
      s.threadObject = w.stream.threadObject → s.GivenUp = w.stream.GivenUp →
      s.workerStarted = w.stream.workerStarted → World.Tracked { w with
        stream := s
        caller := c } := by
    intro s c hcreated hmarking hobj hgiven hstarted
    exact h.keep hobj (fun hgone => hgiven ▸ hgone) (hcaller ▸ hcreated) (hcaller ▸ hmarking)
      hstarted hpos
  cases place with
  | checkFaulted =>
      refine ⟨hkeep w.stream _ rfl rfl rfl rfl rfl, ?_⟩
      simp only [moveStart, World.CallerFits]
      split_ifs with hfaulted
      · trivial
      · intro hnone t ht
        rcases h.lost t hnone ht with hgone | hlost | hnew
        · exact absurd hgone.2 hfaulted
        · exact hlost
        · rw [hcaller] at hnew
          cases hnew
  | prepare =>
      refine ⟨hkeep w.stream _ rfl rfl rfl rfl rfl, ?_⟩
      cases granted with
      | true => exact hfits
      | false => trivial
  | enterRun => exact ⟨hkeep _ _ rfl rfl rfl rfl rfl, hfits⟩
  | test =>
      refine ⟨hkeep w.stream _ rfl rfl rfl rfl rfl, ?_⟩
      simp only [moveStart, World.CallerFits]
      split_ifs with hstarted
      · trivial
      · have hnone : w.stream.threadObject = none := by
          by_contra hsome
          rcases h.started hpos hsome with hold | hmark
          · exact hstarted hold
          · rw [hcaller] at hmark
            cases hmark
        exact ⟨hnone, hfits hnone⟩
  | allocatePool =>
      refine ⟨hkeep w.stream _ rfl rfl rfl rfl rfl, ?_⟩
      cases granted with
      | true => exact hfits
      | false => trivial
  | clearStop => exact ⟨hkeep _ _ rfl rfl rfl rfl rfl, hfits⟩
  | addRef => exact ⟨hkeep _ _ rfl rfl rfl rfl rfl, hfits⟩
  | createThread =>
      cases granted with
      | true =>
          have hfree : ∀ t, ¬ w.PendingAt t := by
            intro t ht
            have hno := hguard (by simp only [World.createsThread, hcaller])
            exact not_pending_of_not_orphaned hno (hfits.2 t ht) ht
          exact tracked_create h hfits.1 hfree oldState
      | false =>
          exact ⟨hkeep w.stream _ rfl rfl rfl rfl rfl, hfits.1, fun _ => by simp⟩
  | drop place =>
      have hlive : place.isLast ≠ true := fun hl => by
        have hzero := hcounted.lastCaller (by rw [hcaller]; exact hl)
        omega
      cases place with
      | check =>
          -- the stream has no worker here, so that there is nothing to stop
          have hnone := hfits.1
          simp only [moveStart, release, hnone]
          exact ⟨hkeep w.stream _ rfl rfl rfl rfl rfl, hnone, fun _ => by simp⟩
      | stop place => exact absurd rfl (hfits.2 place)
      | decrement =>
          refine ⟨hkeep _ _ rfl rfl rfl rfl rfl, hfits.1, fun stop => ?_⟩
          show (if w.stream.refCount - 1 = 0 then ReleaseAt.last else .returned) ≠ .stop stop
          split_ifs <;> simp
      | last => exact absurd rfl hlive
      | lastStop place => exact absurd rfl hlive
      | returned => exact ⟨hkeep w.stream _ rfl rfl rfl rfl rfl, trivial⟩
  | referenceObject thread =>
      cases granted with
      | true =>
          refine ⟨⟨h.alone, fun t u ht hu => ?_, h.quiet, fun t ht => (by cases ht),
            fun _ _ => Or.inr rfl⟩, trivial⟩
          obtain rfl := Option.some.inj ht
          exact hfits.2 u hu
      | false =>
          refine ⟨⟨h.alone, h.tracked, h.quiet, fun t _ ht => ?_,
            fun _ hsome => absurd hfits.1 hsome⟩, trivial⟩
          rw [hfits.2 t ht]
          exact Or.inr (Or.inl (List.mem_append_right _ (List.mem_singleton_self _)))
  | setStarted =>
      refine ⟨⟨h.alone, h.tracked, h.quiet, fun t hnone ht => ?_, fun _ _ => Or.inl rfl⟩, trivial⟩
      rcases h.lost t hnone ht with hgone | hlost | hnew
      · exact Or.inl hgone
      · exact Or.inr (Or.inl hlost)
      · rw [hcaller] at hnew
        cases hnew
  | setStop => exact ⟨hkeep _ _ rfl rfl rfl rfl rfl, trivial⟩
  | restore => exact ⟨hkeep _ _ rfl rfl rfl rfl rfl, trivial⟩

/-! ## Runs -/

structure World.Sound (w : World) : Prop where
  counted : w.Counted
  tracked : w.Tracked
  fits : w.CallerFits

private theorem tracked_call (h : w.Tracked) (hpos : 0 < w.stream.refCount) (hready : w.ready)
    (state : KsState) : (callSetState state w).Tracked ∧ (callSetState state w).CallerFits := by
  have hcreated : w.caller.created = none := by rw [hready.1]; rfl
  have hmarking : w.caller.marking = false := by rw [hready.1]; rfl
  have hkeep := fun c => h.keep (s := w.stream) (c := c) rfl id hcreated hmarking rfl hpos
  unfold callSetState
  split_ifs with hrun hcapture hleave
  · exact ⟨hkeep _, trivial⟩
  · refine ⟨hkeep _, fun hnone t ht => ?_⟩
    -- a render stream gives no thread up
    rcases h.lost t hnone ht with hgone | hlost | hnew
    · exact absurd hgone.1 hcapture
    · exact hlost
    · rw [hcreated] at hnew
      cases hnew
  · exact ⟨h.keep rfl id hcreated hmarking rfl hpos, trivial⟩
  · refine ⟨h.keep (s := { w.stream with
      state := state }) (c := w.caller) rfl id hcreated hmarking rfl hpos, ?_⟩
    simp only [World.CallerFits, hready.1]

private theorem tracked_step (hcounted : w.Counted) (h : w.Tracked) (hfits : w.CallerFits)
    (hpos : 0 < w.stream.refCount) (i : Input) (hguard : NoOrphan w i) :
    (w.step i).Tracked ∧ (w.step i).CallerFits := by
  have hready : w.ready → w.caller.created = none ∧ w.caller.marking = false := fun hready => by
    rw [hready.1]
    exact ⟨rfl, rfl⟩
  cases i with
  | setState state =>
      simp only [World.step]
      split_ifs with hcall
      · exact tracked_call h hpos hcall state
      · exact ⟨h, hfits⟩
  | addRef =>
      simp only [World.step]
      split_ifs with hcall
      · obtain ⟨hcreated, hmarking⟩ := hready hcall
        refine ⟨⟨h.alone, h.tracked, h.quiet, h.lost, fun _ => h.started hpos⟩, ?_⟩
        simp only [World.CallerFits, hcall.1]
      · exact ⟨h, hfits⟩
  | release =>
      simp only [World.step]
      split_ifs with hcall
      · obtain ⟨hcreated, hmarking⟩ := hready hcall
        have hkeep := h.keep (s := w.stream) (c := .release .check) rfl id hcreated hmarking rfl
          hpos
        exact ⟨⟨hkeep.alone, hkeep.tracked, hkeep.quiet, hkeep.lost, hkeep.started⟩, trivial⟩
      · exact ⟨h, hfits⟩
  | caller granted =>
      simp only [World.step]
      cases hcaller : w.caller with
      | idle =>
          simp only [moveCaller, hcaller]
          exact ⟨h, hfits⟩
      | start oldState place =>
          simp only [moveCaller, hcaller]
          exact tracked_start hcounted h hfits hpos hcaller hguard
      | leave place =>
          simp only [moveCaller, hcaller]
          exact tracked_leave h hfits hpos hcaller granted
      | release place => exact tracked_release hcounted h hfits hpos hcaller granted
  | worker thread inTime =>
      simp only [World.step]
      cases hp : w.threads[thread]? with
      | none => exact ⟨h, hfits⟩
      | some p => exact tracked_worker hcounted h hfits hpos hp inTime
  | faultElsewhere =>
      refine ⟨⟨h.alone, h.tracked, h.quiet, fun t hobj ht => ?_, h.started⟩,
        callerFits_fewer hfits rfl (fun hgone => ⟨hgone.1, rfl⟩) fun t ht => ht⟩
      exact (h.lost t hobj ht).imp_left fun hgone => ⟨hgone.1, rfl⟩

/-- The step lemma: a sound world stays sound when no thread is created beside an orphaned one. -/
private theorem sound_step (h : w.Sound) (i : Input) (hguard : NoOrphan w i) :
    (w.step i).Sound := by
  have hcounted := counted_step h.counted i
  rcases Nat.eq_zero_or_pos w.stream.refCount with hzero | hpos
  · have hgone := tracked_of_released hcounted (refCount_step_zero h.counted hzero i)
    exact ⟨hcounted, hgone.1, hgone.2⟩
  · have hnext := tracked_step h.counted h.tracked h.fits hpos i hguard
    exact ⟨hcounted, hnext.1, hnext.2⟩

theorem fresh_sound (capture captureFaulted : Bool) :
    (World.fresh capture captureFaulted).Sound := by
  have hnone : ∀ t, ¬ (World.fresh capture captureFaulted).PendingAt t := fun t ⟨p, hp, _⟩ => by
    simp [World.fresh] at hp
  refine ⟨fresh_counted capture captureFaulted,
    ⟨fun t u ht => absurd ht (hnone t), fun t u hobj => (by cases hobj),
      fun p hp => (by cases hp), fun t _ ht => absurd ht (hnone t),
      fun _ hsome => absurd rfl hsome⟩, trivial⟩

private theorem inLoop_le_one (h : w.Tracked) : w.threads.countP Place.inLoop ≤ 1 :=
  ThreadPool.countP_le_one fun t u _ _ ha hb hla hlb =>
    h.alone t u ⟨_, ha, Place.pending_of_inLoop hla⟩ ⟨_, hb, Place.pending_of_inLoop hlb⟩

private theorem run_staysSound (capture captureFaulted : Bool) {inputs : List Input}
    (hrun : Guarded World.step NoOrphan (World.fresh capture captureFaulted) inputs) :
    (run World.step (World.fresh capture captureFaulted) inputs).Sound :=
  hrun.invariant (fun _ i h hguard => sound_step h i hguard) (fresh_sound capture captureFaulted)

/-- In a run that creates no thread while an orphaned one is pending, at most one thread is in the
loop. -/
theorem run_oneWorker (capture captureFaulted : Bool) (inputs : List Input)
    (hrun : Guarded World.step NoOrphan (World.fresh capture captureFaulted) inputs) :
    (run World.step (World.fresh capture captureFaulted) inputs).threads.countP Place.inLoop
      ≤ 1 :=
  inLoop_le_one (run_staysSound capture captureFaulted hrun).tracked

/-- A call to `SetState(KSSTATE_RUN)` up to the creation of the thread. -/
def launch : List Input := .setState .run :: List.replicate 7 (.caller true)

/-- Two RUN periods: the first worker ends while the caller waits for it. -/
def twoPeriods : List Input :=
  launch ++ [.caller true, .caller true, .worker 0 true, .setState .pause] ++
    List.replicate 3 (.caller true) ++ List.replicate 5 (.worker 0 true) ++
    List.replicate 6 (.caller true) ++ launch ++ [.caller true, .caller true, .worker 1 true]

theorem run_oneWorker_twoPeriods :
    (run World.step (World.fresh false false) twoPeriods).threads = [.terminated, .loop] ∧
      (run World.step (World.fresh false false) twoPeriods).threads.countP Place.inLoop ≤ 1 :=
  ⟨by decide, run_oneWorker false false twoPeriods (by decide)⟩

/-- The object of the first thread cannot be referenced; the next start clears the event before the
thread has looked at it. -/
def lostThread : List Input :=
  launch ++ [.caller false, .caller true, .caller true] ++ launch ++
    [.caller true, .caller true, .worker 0 true, .worker 1 true]

theorem run_not_oneWorker :
    ¬ (run World.step (World.fresh false false) lostThread).threads.countP Place.inLoop ≤ 1 := by
  decide

/-- A thread created while another is in the loop joins it there. -/
theorem createThread_beside_loop {oldState : KsState}
    (hcaller : w.caller = .start oldState .createThread)
    (hloop : 0 < w.threads.countP Place.inLoop) :
    1 < (run World.step w [.caller true, .worker w.threads.length true]).threads.countP
      Place.inLoop := by
  have hcreate : (w.step (.caller true)).threads = w.threads ++ [.starting] := by
    simp only [World.step, moveCaller, hcaller, moveStart, if_true]
  rw [run_cons, run_cons, run_nil]
  generalize w.step (.caller true) = v at hcreate
  have hplace : v.threads[w.threads.length]? = some .starting := by
    rw [hcreate, List.getElem?_append_right (Nat.le_refl _), Nat.sub_self]
    rfl
  have hstep : (v.step (.worker w.threads.length true)).threads =
      v.threads.set w.threads.length .loop := by
    simp only [World.step, hplace]
    rfl
  have hcount := ThreadPool.countP_move hplace Place.inLoop .loop
  have hbefore : 0 < v.threads.countP Place.inLoop := by
    rw [hcreate, List.countP_append]
    omega
  rw [hstep]
  simp only [Place.inLoop, Bool.toNat_true, Bool.toNat_false] at hcount
  omega

end Viosnd.Worker
