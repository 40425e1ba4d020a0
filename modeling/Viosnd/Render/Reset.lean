import Viosnd.Render.Effects

/-!
# What SetState(KSSTATE_STOP) leaves behind

The session fields are reset on the way from RUN to STOP only. A stream that is stopped one state
at a time keeps them, and the next session starts with the packet numbers of the last one.
-/

namespace Viosnd.Render

open StepRun EffectSystem

structure SessionReset (w : World) : Prop where
  position : w.position = 0
  packetNumber : w.packetNumber = 0
  nextSubmitPacket : w.nextSubmitPacket = 0
  lastOsWritePacket : w.lastOsWritePacket = maxULONG
  eosPacketNumber : w.eosPacketNumber = maxULONG
  eosPacketLength : w.eosPacketLength = 0
  renderFallbackActive : w.renderFallbackActive = false
  renderFallbackPhase : w.renderFallbackPhase = 0

def Submittable (p : ULONG) (w : World) : Prop :=
  w.nextSubmitPacket = p ∧
    viosndHasWritableRenderPacket w.nextSubmitPacket w.lastOsWritePacket = true

def Action.IsStart : Action → Prop
  | .setState .run _ => True
  | _ => False

/-- STOP is requested in RUN, or with nothing to reset; no packet has the number of the sentinel;
a submission pass ends in the RUN period it began in. -/
def StopGuard (w : World) : Action → Prop
  | .setState .stop _ => w.state = .run ∨ SessionReset w
  | .setWritePacket packetNumber _ _ => packetNumber ≠ maxULONG
  | .worker (.submitLate _) => w.state = .run
  | _ => True

private theorem resetSession_sessionReset (w : World) : SessionReset (resetSession w) := by
  constructor <;> rfl

/-- STOP from RUN resets the session when it succeeds; from another state it resets nothing. -/
private theorem setState_stop_sessionReset_iff (i : SetStateInput) (w : World) :
    ((setState .stop i w).1 = .success → SessionReset (setState .stop i w).2) ↔
      w.state = .run ∨ SessionReset w := by
  by_cases hrun : w.state = .run
  · refine iff_of_true ?_ (Or.inl hrun)
    intro hok
    rw [setState_stop .stop i w (by decide) hrun] at hok ⊢
    unfold stopRender at hok ⊢
    dsimp only at hok ⊢
    split at hok
    · rename_i hquiet
      rw [if_pos hquiet, if_pos rfl]
      exact resetSession_sessionReset _
    · cases hok
  · rw [setState_other .stop i w (iff_of_false (by decide) hrun)]
    constructor
    · intro h
      obtain ⟨h₁, h₂, h₃, h₄, h₅, h₆, h₇, h₈⟩ := h rfl
      exact Or.inr ⟨h₁, h₂, h₃, h₄, h₅, h₆, h₇, h₈⟩
    · rintro (h | ⟨h₁, h₂, h₃, h₄, h₅, h₆, h₇, h₈⟩) -
      · exact absurd h hrun
      · exact ⟨h₁, h₂, h₃, h₄, h₅, h₆, h₇, h₈⟩

private theorem step_unwritten (w : World) (a : Action) (ha : ¬ a.IsWrite)
    (hw : w.lastOsWritePacket = maxULONG) : (step w a).lastOsWritePacket = maxULONG := by
  refine (step_does w a ha).invariant (P := fun w => w.lastOsWritePacket = maxULONG) ?_ hw
  intro k hk s t hR hs
  by_cases hreset : k = .reset
  · subst hreset
    cases hR with
    | reset => rfl
  · have hwrite : k ≠ .write := by
      rintro rfl
      exact absurd hk (by decide)
    rw [hR.lastOsWritePacket_eq hwrite hreset]
    exact hs

private theorem run_unwritten (w : World) (silent : List Action)
    (hsilent : ∀ a ∈ silent, ¬ a.IsWrite) (hw : w.lastOsWritePacket = maxULONG) :
    (run step w silent).lastOsWritePacket = maxULONG := by
  induction silent generalizing w with
  | nil => exact hw
  | cons a silent ih =>
      have ha := step_unwritten w a (hsilent a List.mem_cons_self) hw
      exact ih (step w a) (fun b hb => hsilent b (List.mem_cons_of_mem a hb)) ha

/-- The first packet written becomes the next to be submitted, and is ready for submission unless
its number is the sentinel. -/
private theorem setWritePacket_submittable (packetNumber : ULONG) (endOfStream : Bool)
    (eosPacketLength : ULONG) (w : World) (hw : w.lastOsWritePacket = maxULONG)
    (hnumber : packetNumber ≠ maxULONG)
    (hok : (setWritePacket packetNumber endOfStream eosPacketLength w).1 = .success) :
    Submittable packetNumber (setWritePacket packetNumber endOfStream eosPacketLength w).2 := by
  have hself : viosndHasWritableRenderPacket packetNumber packetNumber = true := by
    simp [viosndHasWritableRenderPacket, viosndPacketNumberLessOrEqual, hnumber]
  unfold setWritePacket at hok ⊢
  split at hok
  · cases hok
  · rename_i hbuffer
    rw [if_neg hbuffer]
    dsimp only
    rw [if_pos hw]
    split
    · exact ⟨rfl, hself⟩
    · split
      · exact ⟨rfl, hself⟩
      · exact ⟨rfl, hself⟩

/-- Outside RUN nothing but `SetWritePacket` and a late pass moves the packet numbers. -/
private theorem step_quiet (w : World) (a : Action) (hstate : w.state ≠ .run) (hwrite : ¬ a.IsWrite)
    (hstart : ¬ a.IsStart) (hlate : ∀ o, a ≠ .worker (.submitLate o)) :
    (step w a).state ≠ .run ∧ (step w a).nextSubmitPacket = w.nextSubmitPacket ∧
      (step w a).lastOsWritePacket = w.lastOsWritePacket := by
  have hquery : ∀ w', Does {.reading, .report} w w' →
      w'.state ≠ .run ∧ w'.nextSubmitPacket = w.nextSubmitPacket ∧
        w'.lastOsWritePacket = w.lastOsWritePacket := by
    intro w' h
    refine ⟨?_, h.nextSubmitPacket_eq (by decide), h.lastOsWritePacket_eq (by decide)⟩
    rw [h.state_eq (by decide)]
    exact hstate
  cases a with
  | setState target i =>
      have htarget : target ≠ .run := by
        rintro rfl
        exact hstart trivial
      rw [step_setState, setState_other target i w (iff_of_false htarget hstate)]
      exact ⟨htarget, rfl, rfl⟩
  | setWritePacket packetNumber endOfStream eosPacketLength => exact absurd trivial hwrite
  | worker s =>
      have hdoes := workerStep_prompt_does w s hstate fun o h => hlate o (by rw [h])
      refine ⟨?_, hdoes.nextSubmitPacket_eq (by decide), hdoes.lastOsWritePacket_eq (by decide)⟩
      change (workerStep w s).state ≠ .run
      rw [hdoes.state_eq (by decide)]
      exact hstate
  | getPosition qpc => exact hquery _ (getPosition_does qpc w)
  | getPresentationPosition qpc => exact hquery _ (queryClock_does qpc w)

private theorem run_quiet (p : ULONG) (w : World) (quiet : List Action)
    (hg : Guarded step StopGuard w quiet) (hstate : w.state ≠ .run)
    (hquiet : ∀ a ∈ quiet, ¬ a.IsWrite ∧ ¬ a.IsStart) (hp : Submittable p w) :
    (run step w quiet).state ≠ .run ∧ Submittable p (run step w quiet) := by
  induction quiet generalizing w with
  | nil => exact ⟨hstate, hp⟩
  | cons a quiet ih =>
      have ha := hquiet a List.mem_cons_self
      have hlate : ∀ o, a ≠ .worker (.submitLate o) := by
        rintro o rfl
        exact hstate hg.1
      obtain ⟨hstate', hnext, hlast⟩ := step_quiet w a hstate ha.1 ha.2 hlate
      have hp' : Submittable p (step w a) := by
        unfold Submittable
        rw [hnext, hlast]
        exact hp
      exact ih (step w a) hg.2 hstate' (fun b hb => hquiet b (List.mem_cons_of_mem a hb)) hp'

private theorem setState_run_submittable (p : ULONG) (i : SetStateInput) (w : World)
    (hstate : w.state ≠ .run) (hok : (setState .run i w).1 = .success) (hp : Submittable p w) :
    (setState .run i w).2.state = .run ∧ Submittable p (setState .run i w).2 := by
  rw [setState_start i w hstate] at hok ⊢
  obtain ⟨hdoes, hrun⟩ := startRender_success_does i w hok
  refine ⟨hrun, ?_⟩
  unfold Submittable
  rw [hdoes.nextSubmitPacket_eq (by decide), hdoes.lastOsWritePacket_eq (by decide)]
  exact hp

/-- What STOP promises the next session. -/
def SessionContract (w : World) (actions : List Action) : Prop :=
  ∀ before i after, actions = before ++ .setState .stop i :: after →
    let stopped := setState .stop i (run step w before)
    stopped.1 = .success → SessionReset stopped.2 ∧
    ∀ silent p endOfStream length later, after =
        silent ++ .setWritePacket p endOfStream length :: later → (∀ a ∈ silent, ¬ a.IsWrite) →
      let wrote := setWritePacket p endOfStream length (run step stopped.2 silent)
      wrote.1 = .success → Submittable p wrote.2 ∧
      ∀ quiet j rest, later = quiet ++ .setState .run j :: rest → wrote.2.state ≠ .run →
          (∀ a ∈ quiet, ¬ a.IsWrite ∧ ¬ a.IsStart) →
        let started := setState .run j (run step wrote.2 quiet)
        started.1 = .success → started.2.state = .run ∧ Submittable p started.2

/-- Where every STOP comes from RUN or has nothing to reset, it leaves a reset session, and the
first packet written after it is the one submitted first. -/
theorem setState_stop_sessionContract (w : World) (actions : List Action)
    (hg : Guarded step StopGuard w actions) : SessionContract w actions := by
  rintro before i after rfl
  obtain ⟨-, hstop, hafter⟩ := (guarded_append w before _).mp hg
  intro stopped hok
  have hreset := (setState_stop_sessionReset_iff i (run step w before)).mpr hstop hok
  refine ⟨hreset, ?_⟩
  rintro silent p endOfStream length later rfl hsilent
  obtain ⟨-, hnumber, hlater⟩ := (guarded_append _ silent _).mp hafter
  intro wrote hwrote
  have hunwritten := run_unwritten stopped.2 silent hsilent hreset.lastOsWritePacket
  have hp := setWritePacket_submittable p endOfStream length _ hunwritten hnumber hwrote
  refine ⟨hp, ?_⟩
  rintro quiet j rest rfl hstate hquiet started hstarted
  obtain ⟨hgquiet, -⟩ := (guarded_append _ quiet _).mp hlater
  obtain ⟨hstate', hp'⟩ := run_quiet p wrote.2 quiet hgquiet hstate hquiet hp
  exact setState_run_submittable p j _ hstate' hstarted hp'

/-- A session that passes from STOP through RUN and back. -/
theorem setState_stop_sessionContract_roundTrip :
    let w := World.fresh (some fun _ => 0) 4096 2 2048
    let cycle := [.setState .run (.granted 1), .setState .stop (.granted 2),
      .setWritePacket 7 false 0, .setState .run (.granted 3)]
    Guarded step StopGuard w cycle ∧ SessionContract w cycle := by
  intro w cycle
  have hg : Guarded step StopGuard w cycle := by
    refine ⟨trivial, ?_, ?_, trivial, trivial⟩
    · exact Or.inl (by decide +kernel)
    · show (7 : ULONG) ≠ maxULONG
      decide
  exact ⟨hg, setState_stop_sessionContract w cycle hg⟩

/-- One state at a time: RUN, PAUSE, ACQUIRE, STOP. The packet numbers stay, and packet 0 of the
next session is not submittable. -/
theorem setState_stop_keeps_session :
    ¬ SessionContract (World.fresh (some fun _ => 0) 4096 2 2048)
      [.setWritePacket 7 false 0, .setState .run (.granted 1), .setState .pause (.granted 2),
        .setState .acquire (.granted 3), .setState .stop (.granted 4)] := by
  intro h
  obtain ⟨hreset, -⟩ := h [.setWritePacket 7 false 0, .setState .run (.granted 1),
    .setState .pause (.granted 2), .setState .acquire (.granted 3)] (.granted 4) [] rfl
    (by decide +kernel)
  have hlast := hreset.lastOsWritePacket
  revert hlast
  decide +kernel

end Viosnd.Render
