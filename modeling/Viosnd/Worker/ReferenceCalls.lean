import Viosnd.Capture.Effects
import Viosnd.Render.Effects
import Viosnd.Worker.Threads

/-!
# Reference calls and the worker

`AddRef`, `QueryInterface` and `Release` as other threads than the worker call them. `Release` stops
the worker of a stream that has one before it gives up a reference. Between the calls, and while
`Release` waits, the worker makes its own moves.
-/

namespace Viosnd.Worker

open StepRun

/-- What reference calls and the worker share, besides the count. -/
structure Shared (W : Type) where
  world : W
  stopEvent : Bool
  /-- A worker is in its loop. -/
  inLoop : Bool

structure Referenced (W : Type) where
  shared : Shared W
  refCount : ℕ

/-- What the calls use of a stream of either direction. -/
structure Side (W ι : Type) where
  capture : Bool
  threadObject : W → Bool
  state : W → KsState
  workerStep : W → ι → W
  stopRenderWorker : Bool → W → Bool × W

def renderSide : Side Render.World Render.WorkerStep where
  capture := false
  threadObject := Render.World.threadObject
  state := Render.World.state
  workerStep := Render.workerStep
  stopRenderWorker := Render.stopRenderWorker

def captureSide : Side Capture.World Capture.WorkerStep where
  capture := true
  threadObject := Capture.World.threadObject
  state := Capture.World.state
  workerStep := Capture.workerStep
  stopRenderWorker := Capture.stopRenderWorker

/-! ## The worker -/

inductive WorkerInput (ι : Type) where
  | step (i : ι)
  /-- The wait at the head of the loop. -/
  | look

variable {W ι : Type} {side : Side W ι}

/-- The render loop looks at the event, the capture loop also at `m_State`. -/
def Side.moveThread (side : Side W ι) (s : Shared W) : WorkerInput ι → Shared W
  | .step i => if s.inLoop then { s with world := side.workerStep s.world i } else s
  | .look =>
      if s.stopEvent ∨ (side.capture ∧ side.state s.world ≠ .run) then { s with inLoop := false }
      else s

/-- `InterlockedDecrement`; without a reference there is no stream any more. -/
def Referenced.drop (s : Referenced W) : Option (Referenced W) :=
  if s.refCount - 1 = 0 then none else some { s with refCount := s.refCount - 1 }

/-- A worker that leaves its loop gives up its reference. -/
def Side.moveWorker (side : Side W ι) (s : Referenced W) (i : WorkerInput ι) :
    Option (Referenced W) :=
  let shared := side.moveThread s.shared i
  if s.shared.inLoop ∧ shared.inLoop = false then Referenced.drop { s with shared := shared }
  else some { s with shared := shared }

/-! ## The calls -/

inductive InterfaceId where
  | unknown
  | waveRTStream
  | waveRTStreamNotification
  | waveRTInputStream
  | waveRTOutputStream
  | other
  deriving DecidableEq

/-- The interfaces `QueryInterface` hands out. -/
def InterfaceId.offered (capture : Bool) : InterfaceId → Bool
  | .unknown | .waveRTStream | .waveRTStreamNotification => true
  | .waveRTInputStream => capture
  | .waveRTOutputStream => !capture
  | .other => false

def addRef (s : Referenced W) : Referenced W := { s with refCount := s.refCount + 1 }

/-- `pointer` is `false` when `Interface` is `NULL`. -/
def queryInterface (capture pointer : Bool) (id : InterfaceId) (s : Referenced W) :
    NtStatus × Referenced W :=
  if pointer = false then (.invalidParameter, s)
  else if id.offered capture = false then (.invalidParameter, s)
  else (.success, addRef s)

/-- `Release` by another thread than the worker. The worker makes the moves `waiting` meanwhile, and
`exited` is `false` when the wait for it times out. -/
def Side.release (side : Side W ι) (waiting : List (WorkerInput ι)) (exited : Bool)
    (s : Referenced W) : Option (Referenced W) :=
  if side.threadObject s.shared.world then do
    let s ← waiting.foldlM side.moveWorker { s with shared := { s.shared with stopEvent := true } }
    let world := (side.stopRenderWorker exited s.shared.world).2
    Referenced.drop { s with shared := { s.shared with world := world } }
  else do
    let s ← waiting.foldlM side.moveWorker s
    s.drop

inductive ReferenceCall (ι : Type) where
  | addRef
  | queryInterface (pointer : Bool) (id : InterfaceId)
  | release (waiting : List (WorkerInput ι)) (exited : Bool)
  /-- A move of the worker between two calls. -/
  | worker (i : WorkerInput ι)

def ReferenceCall.moves : ReferenceCall ι → List (WorkerInput ι)
  | .release waiting _ => waiting
  | .worker i => [i]
  | _ => []

def Side.call (side : Side W ι) (s : Referenced W) : ReferenceCall ι → Option (Referenced W)
  | .addRef => some (addRef s)
  | .queryInterface pointer id => some (queryInterface side.capture pointer id s).2
  | .release waiting exited => side.release waiting exited s
  | .worker i => side.moveWorker s i

def Side.callStep (side : Side W ι) (s : Option (Referenced W)) (c : ReferenceCall ι) :
    Option (Referenced W) := s.bind fun s => side.call s c

/-- All that changed from `s` to `s'` is the count and what the worker did by itself. -/
def Side.Undisturbed (side : Side W ι) (s : Referenced W) (calls : List (ReferenceCall ι))
    (s' : Referenced W) : Prop :=
  s'.shared = run side.moveThread s.shared (calls.flatMap ReferenceCall.moves)

/-- The `Release` finds no thread object, or a render worker that was told to stop before and is
waited for in vain. -/
def Side.LeavesWorker (side : Side W ι) (s : Option (Referenced W)) : ReferenceCall ι → Prop
  | .release _ exited => ∀ t, s = some t → side.threadObject t.shared.world = false ∨
      (side.capture = false ∧ t.shared.stopEvent = true ∧ exited = false)
  | _ => True

/-! ## What a move keeps -/

/-- What the two directions have in common. -/
structure Side.Lawful (side : Side W ι) : Prop where
  keeps : ∀ w i, side.threadObject (side.workerStep w i) = side.threadObject w
  stops : ∀ w, side.threadObject w = true →
    side.threadObject (side.stopRenderWorker true w).2 = false
  forgets : ∀ w, side.capture = true → side.threadObject w = true →
    side.threadObject (side.stopRenderWorker false w).2 = false
  waits : ∀ w, side.capture = false → side.threadObject w = true →
    (side.stopRenderWorker false w).2 = w

private theorem renderSide_lawful : renderSide.Lawful where
  keeps := fun w i => ((Render.workerStep_does w i).thread_eq (by decide)).1
  stops := by
    intro w hthread
    change (Render.stopRenderWorker true w).2.threadObject = false
    unfold Render.stopRenderWorker
    have hworker : ¬ w.threadObject = false := (Bool.not_eq_false w.threadObject).mpr hthread
    rw [if_neg hworker, if_neg (by decide)]
    exact ((Render.freeRenderIoPool_does _).thread_eq (by decide)).1
  forgets := fun _ hcapture => absurd hcapture (by decide)
  waits := by
    intro w _ hthread
    change (Render.stopRenderWorker false w).2 = w
    unfold Render.stopRenderWorker
    have hworker : ¬ w.threadObject = false := (Bool.not_eq_false w.threadObject).mpr hthread
    rw [if_neg hworker, if_pos rfl]

private theorem captureSide_lawful : captureSide.Lawful where
  keeps := fun w i => ((Capture.workerStep_does w i).thread_eq (by decide)).1
  stops := by
    intro w hthread
    change (Capture.stopRenderWorker true w).2.threadObject = false
    unfold Capture.stopRenderWorker
    have hworker : ¬ w.threadObject = false := (Bool.not_eq_false w.threadObject).mpr hthread
    rw [if_neg hworker, if_neg (by decide)]
    exact ((Capture.freeCaptureIoPool_does _).thread_eq (by decide)).1
  forgets := by
    intro w _ hthread
    change (Capture.stopRenderWorker false w).2.threadObject = false
    unfold Capture.stopRenderWorker
    have hworker : ¬ w.threadObject = false := (Bool.not_eq_false w.threadObject).mpr hthread
    rw [if_neg hworker, if_pos rfl]
  waits := fun _ hrender => absurd hrender (by decide)

section

variable {s t : Referenced W} {waiting : List (WorkerInput ι)} {exited : Bool}

private theorem Referenced.drop_shared (h : s.drop = some t) : t.shared = s.shared := by
  unfold Referenced.drop at h
  split_ifs at h
  rw [← Option.some.inj h]

private theorem moveWorker_shared {i : WorkerInput ι} (h : side.moveWorker s i = some t) :
    t.shared = side.moveThread s.shared i := by
  unfold Side.moveWorker at h
  dsimp only at h
  split_ifs at h
  · exact Referenced.drop_shared h
  · rw [← Option.some.inj h]

private theorem moves_shared (h : waiting.foldlM side.moveWorker s = some t) :
    t.shared = run side.moveThread s.shared waiting := by
  induction waiting generalizing s with
  | nil =>
      rw [← Option.some.inj h]
      rfl
  | cons i waiting ih =>
      rw [List.foldlM_cons] at h
      obtain ⟨u, hfirst, hrest⟩ := Option.bind_eq_some_iff.mp h
      rw [ih hrest, moveWorker_shared hfirst, run_cons]

private theorem moveThread_keeps (hside : side.Lawful) (shared : Shared W) (i : WorkerInput ι) :
    (side.moveThread shared i).stopEvent = shared.stopEvent ∧
      side.threadObject (side.moveThread shared i).world = side.threadObject shared.world := by
  cases i with
  | step i =>
      unfold Side.moveThread
      dsimp only
      split
      · exact ⟨rfl, hside.keeps shared.world i⟩
      · exact ⟨rfl, rfl⟩
  | look =>
      unfold Side.moveThread
      dsimp only
      split <;> exact ⟨rfl, rfl⟩

private theorem moves_keep (hside : side.Lawful) (shared : Shared W)
    (moves : List (WorkerInput ι)) :
    (run side.moveThread shared moves).stopEvent = shared.stopEvent ∧
      side.threadObject (run side.moveThread shared moves).world =
        side.threadObject shared.world :=
  run_invariant (P := fun u : Shared W => u.stopEvent = shared.stopEvent ∧
      side.threadObject u.world = side.threadObject shared.world)
    (fun u i hu => by
      obtain ⟨hevent, hthread⟩ := moveThread_keeps hside u i
      exact ⟨hevent.trans hu.1, hthread.trans hu.2⟩) moves ⟨rfl, rfl⟩

/-! ## What a `Release` does -/

private theorem release_worker (h : side.release waiting exited s = some t)
    (hthread : side.threadObject s.shared.world = true) :
    ∃ u : Shared W, u = run side.moveThread { s.shared with stopEvent := true } waiting ∧
      t.shared = { u with world := (side.stopRenderWorker exited u.world).2 } := by
  unfold Side.release at h
  rw [if_pos hthread] at h
  obtain ⟨u, hmoves, hdrop⟩ := Option.bind_eq_some_iff.mp h
  exact ⟨u.shared, moves_shared hmoves, Referenced.drop_shared hdrop⟩

private theorem release_alone (h : side.release waiting exited s = some t)
    (hthread : side.threadObject s.shared.world = false) :
    t.shared = run side.moveThread s.shared waiting := by
  unfold Side.release at h
  rw [if_neg ((Bool.not_eq_true _).mpr hthread)] at h
  obtain ⟨u, hmoves, hdrop⟩ := Option.bind_eq_some_iff.mp h
  rw [Referenced.drop_shared hdrop, moves_shared hmoves]

/-- The event is set already and the wait is in vain. -/
private theorem release_vain (hside : side.Lawful) (h : side.release waiting exited s = some t)
    (hrender : side.capture = false) (hevent : s.shared.stopEvent = true)
    (hexited : exited = false) : t.shared = run side.moveThread s.shared waiting := by
  cases hthread : side.threadObject s.shared.world with
  | false => exact release_alone h hthread
  | true =>
      obtain ⟨u, hmoves, hshared⟩ := release_worker h hthread
      have hset : ({ s.shared with stopEvent := true } : Shared W) = s.shared := by rw [← hevent]
      rw [hset] at hmoves
      have hkept := (moves_keep hside s.shared waiting).2
      rw [← hmoves, hthread] at hkept
      rw [hshared, hexited, hside.waits u.world hrender hkept, hmoves]

/-- Any other `Release` takes the thread object away or sets the event. -/
private theorem release_disturbs (hside : side.Lawful) (h : side.release waiting exited s = some t)
    (hthread : side.threadObject s.shared.world = true)
    (hnot : ¬ (side.capture = false ∧ s.shared.stopEvent = true ∧ exited = false)) :
    side.threadObject t.shared.world = false ∨
      (s.shared.stopEvent = false ∧ t.shared.stopEvent = true) := by
  obtain ⟨u, hmoves, hshared⟩ := release_worker h hthread
  obtain ⟨hevent, hkept⟩ := moves_keep hside { s.shared with stopEvent := true } waiting
  rw [← hmoves] at hevent hkept
  have hworker : side.threadObject u.world = true := hkept.trans hthread
  cases exited with
  | true =>
      left
      rw [hshared]
      exact hside.stops u.world hworker
  | false =>
      by_cases hcapture : side.capture = true
      · left
        rw [hshared]
        exact hside.forgets u.world hcapture hworker
      · right
        have hrender : side.capture = false := Bool.eq_false_of_not_eq_true hcapture
        refine ⟨Bool.eq_false_of_not_eq_true fun hset => hnot ⟨hrender, hset, rfl⟩, ?_⟩
        rw [hshared]
        exact hevent

/-! ## What a call does -/

/-- No call brings a thread object back or clears the event. -/
private theorem call_monotone (hside : side.Lawful) {c : ReferenceCall ι}
    (h : side.call s c = some t) :
    (side.threadObject t.shared.world = true → side.threadObject s.shared.world = true) ∧
      (s.shared.stopEvent = true → t.shared.stopEvent = true) := by
  cases c with
  | addRef =>
      obtain rfl := Option.some.inj h
      exact ⟨id, id⟩
  | queryInterface pointer id =>
      obtain rfl := Option.some.inj h
      unfold queryInterface
      split_ifs <;> exact ⟨fun h => h, fun h => h⟩
  | worker i =>
      obtain ⟨hevent, hthread⟩ := moveThread_keeps hside s.shared i
      rw [← moveWorker_shared h] at hevent hthread
      exact ⟨fun ht => hthread.symm.trans ht, fun hs => hevent.trans hs⟩
  | release waiting exited =>
      cases hthread : side.threadObject s.shared.world with
      | true =>
          obtain ⟨u, hmoves, hshared⟩ := release_worker h hthread
          have hevent := (moves_keep hside { s.shared with stopEvent := true } waiting).1
          rw [← hmoves] at hevent
          rw [hshared]
          exact ⟨fun _ => rfl, fun _ => hevent⟩
      | false =>
          obtain ⟨hevent, hkept⟩ := moves_keep hside s.shared waiting
          rw [← release_alone h hthread] at hevent hkept
          exact ⟨fun ht => hthread.symm.trans (hkept.symm.trans ht), fun hs => hevent.trans hs⟩

private theorem call_quiet (hside : side.Lawful) {c : ReferenceCall ι} (h : side.call s c = some t)
    (hquiet : side.LeavesWorker (some s) c) :
    t.shared = run side.moveThread s.shared c.moves := by
  cases c with
  | addRef =>
      obtain rfl := Option.some.inj h
      rfl
  | queryInterface pointer id =>
      obtain rfl := Option.some.inj h
      unfold queryInterface
      split_ifs <;> rfl
  | worker i => exact moveWorker_shared h
  | release waiting exited =>
      rcases hquiet s rfl with hthread | ⟨hrender, hevent, hexited⟩
      · exact release_alone h hthread
      · exact release_vain hside h hrender hevent hexited

private theorem call_disturbs (hside : side.Lawful) {c : ReferenceCall ι}
    (h : side.call s c = some t) (hloud : ¬ side.LeavesWorker (some s) c) :
    (side.threadObject s.shared.world = true ∧ side.threadObject t.shared.world = false) ∨
      (s.shared.stopEvent = false ∧ t.shared.stopEvent = true) := by
  cases c with
  | release waiting exited =>
      have hboth : ¬ (side.threadObject s.shared.world = false ∨
          (side.capture = false ∧ s.shared.stopEvent = true ∧ exited = false)) := by
        intro hquiet
        apply hloud
        rintro u ⟨⟩
        exact hquiet
      obtain ⟨hthread, hnot⟩ := not_or.mp hboth
      have hworker := Bool.eq_true_of_not_eq_false hthread
      exact (release_disturbs hside h hworker hnot).imp_left fun hgone => ⟨hworker, hgone⟩
  | _ => exact absurd trivial hloud

/-! ## Runs of calls -/

private theorem run_none (calls : List (ReferenceCall ι)) :
    run side.callStep none calls = none := by
  induction calls with
  | nil => rfl
  | cons c calls ih => exact ih

private theorem run_monotone (hside : side.Lawful) {calls : List (ReferenceCall ι)}
    (h : run side.callStep (some s) calls = some t) :
    (side.threadObject t.shared.world = true → side.threadObject s.shared.world = true) ∧
      (s.shared.stopEvent = true → t.shared.stopEvent = true) := by
  induction calls generalizing s with
  | nil =>
      obtain rfl := Option.some.inj h
      exact ⟨fun h => h, fun h => h⟩
  | cons c calls ih =>
      rw [run_cons] at h
      cases hcall : side.call s c with
      | none =>
          rw [show side.callStep (some s) c = none from hcall, run_none] at h
          cases h
      | some u =>
          rw [show side.callStep (some s) c = some u from hcall] at h
          obtain ⟨hthread, hevent⟩ := call_monotone hside hcall
          obtain ⟨hthread', hevent'⟩ := ih h
          exact ⟨hthread ∘ hthread', hevent' ∘ hevent⟩

private theorem undisturbed_iff (hside : side.Lawful) {calls : List (ReferenceCall ι)}
    (h : run side.callStep (some s) calls = some t) :
    side.Undisturbed s calls t ↔ Guarded side.callStep side.LeavesWorker (some s) calls := by
  induction calls generalizing s with
  | nil =>
      obtain rfl := Option.some.inj h
      exact iff_of_true rfl trivial
  | cons c calls ih =>
      rw [run_cons] at h
      cases hcall : side.call s c with
      | none =>
          rw [show side.callStep (some s) c = none from hcall, run_none] at h
          cases h
      | some u =>
          have hstep : side.callStep (some s) c = some u := hcall
          rw [hstep] at h
          rw [guarded_cons, hstep, ← ih h]
          unfold Side.Undisturbed
          rw [List.flatMap_cons, run_append]
          by_cases hquiet : side.LeavesWorker (some s) c
          · rw [← call_quiet hside hcall hquiet, and_iff_right hquiet]
          · refine iff_of_false (fun hsame => ?_) fun hboth => hquiet hboth.1
            rw [← run_append] at hsame
            obtain ⟨hevent, hthread⟩ := moves_keep hside s.shared
              (c.moves ++ calls.flatMap ReferenceCall.moves)
            rw [← hsame] at hevent hthread
            obtain ⟨hback, hset⟩ := run_monotone hside h
            rcases call_disturbs hside hcall hquiet with ⟨hhad, hgone⟩ | ⟨hclear, hnow⟩
            · have hlost := hback (hthread.trans hhad)
              rw [hgone] at hlost
              cases hlost
            · have hstill := hevent.symm.trans (hset hnow)
              rw [hclear] at hstill
              cases hstill

theorem Side.Undisturbed.inLoop {calls : List (ReferenceCall ι)} (h : side.Undisturbed s calls t)
    (hside : side.Lawful) (hloop : s.shared.inLoop = true) (hevent : s.shared.stopEvent = false)
    (hrender : side.capture = false) : t.shared.inLoop = true := by
  have hruns : ∀ u : Shared W, ∀ i, u.inLoop = true ∧ u.stopEvent = false →
      (side.moveThread u i).inLoop = true ∧ (side.moveThread u i).stopEvent = false := by
    intro u i hu
    refine ⟨?_, (moveThread_keeps hside u i).1.trans hu.2⟩
    cases i with
    | step i =>
        unfold Side.moveThread
        dsimp only
        rw [if_pos hu.1]
        exact hu.1
    | look =>
        unfold Side.moveThread
        dsimp only
        rw [if_neg (by simp [hu.2, hrender])]
        exact hu.1
  have hend : t.shared = run side.moveThread s.shared (calls.flatMap ReferenceCall.moves) := h
  rw [hend]
  exact (run_invariant hruns _ ⟨hloop, hevent⟩).1

end

/-! ## Both directions -/

/-- Reference calls that leave a stream alive change nothing but the count exactly when every
`Release` by another thread finds no worker, or finds a render worker that was told to stop before
and waits for it in vain. -/
theorem referenceCalls_undisturbed_iff (s t : Referenced Render.World)
    (calls : List (ReferenceCall Render.WorkerStep)) (s' t' : Referenced Capture.World)
    (calls' : List (ReferenceCall Capture.WorkerStep)) :
    (run renderSide.callStep (some s) calls = some t →
        (renderSide.Undisturbed s calls t ↔
          Guarded renderSide.callStep renderSide.LeavesWorker (some s) calls)) ∧
      (run captureSide.callStep (some s') calls' = some t' →
        (captureSide.Undisturbed s' calls' t' ↔
          Guarded captureSide.callStep captureSide.LeavesWorker (some s') calls')) :=
  ⟨undisturbed_iff renderSide_lawful, undisturbed_iff captureSide_lawful⟩

/-- A run of the render stream and a run of its threads lead here. -/
def Reached (s : Referenced Render.World) : Prop :=
  ∃ (actions : List Render.Action) (inputs : List Input),
    s.shared.world = run Render.step (.fresh (some fun _ => 0) 32768 16 2048) actions ∧
    (run World.step (.fresh false false) inputs).caller = .idle ∧
    (run World.step (.fresh false false) inputs).stream =
      { capture := false
        state := s.shared.world.state
        stopEvent := s.shared.stopEvent
        threadObject := if s.shared.world.threadObject then some 0 else none
        workerStarted := s.shared.world.workerStarted
        captureFaulted := false
        refCount := s.refCount } ∧
    (run World.step (.fresh false false) inputs).threads = if s.shared.inLoop then [.loop] else []

/-- A playing stream: its client and its worker hold a reference each. -/
def playing : Referenced Render.World where
  shared := {
    world := Render.step (.fresh (some fun _ => 0) 32768 16 2048) (.setState .run (.granted 1))
    stopEvent := false
    inLoop := true }
  refCount := 2

/-- The worker was told to stop and has not seen it yet. -/
def toldToStop : Referenced Render.World :=
  { playing with shared := { playing.shared with stopEvent := true } }

/-- References to a stream without a worker come and go, and so does one to a stream whose worker is
waited for in vain. -/
theorem referenceCalls_undisturbed_iff_stopped :
    (∃ t, run renderSide.callStep (some ⟨⟨.fresh none 0 0 0, false, false⟩, 1⟩)
        [.addRef, .queryInterface true .waveRTOutputStream, .release [] true, .release [] true] =
          some t ∧
      renderSide.Undisturbed ⟨⟨.fresh none 0 0 0, false, false⟩, 1⟩
        [.addRef, .queryInterface true .waveRTOutputStream, .release [] true, .release [] true]
          t) ∧
    ∃ t, run renderSide.callStep (some toldToStop) [.addRef, .release [] false] = some t ∧
      renderSide.Undisturbed toldToStop [.addRef, .release [] false] t ∧ t.refCount = 2 := by
  have hcapture : Referenced Capture.World := ⟨⟨.fresh none, false, false⟩, 1⟩
  constructor
  · refine ⟨_, rfl, ((referenceCalls_undisturbed_iff _ _ _ hcapture hcapture []).1 rfl).mpr ?_⟩
    refine ⟨trivial, trivial, ?_, ?_, trivial⟩
    · rintro t ⟨⟩
      exact Or.inl rfl
    · rintro t ⟨⟩
      exact Or.inl rfl
  · refine ⟨_, rfl, ((referenceCalls_undisturbed_iff _ _ _ hcapture hcapture []).1 rfl).mpr ?_, rfl⟩
    refine ⟨trivial, ?_, trivial⟩
    rintro t ⟨⟩
    exact Or.inr ⟨rfl, rfl, rfl⟩

private theorem playing_reached : Reached playing :=
  ⟨[.setState .run (.granted 1)],
    .setState .run :: List.replicate 9 (.caller true) ++ [.worker 0 true],
    rfl, by decide, by decide, by decide⟩

/-- A client takes a second reference and gives it up again: the worker is gone. -/
theorem playing_disturbed :
    ¬ ∀ (s t : Referenced Render.World) (calls : List (ReferenceCall Render.WorkerStep)),
      Reached s → run renderSide.callStep (some s) calls = some t →
        renderSide.Undisturbed s calls t := by
  intro hall
  have hsame := hall playing _ [.addRef, .release [.look] true] playing_reached rfl
  have hloop : false = true := congrArg Shared.inLoop hsame
  cases hloop

end Viosnd.Worker
