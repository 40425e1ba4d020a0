import Viosnd.Lib.Runs

/-!
# Reading under a generation counter

A store is changed as a whole, and every change counts up a version of which a generation is shown.
A reader looks at the generation, makes its reads one by one while the store may change, looks
again, and starts over when the two differ. As long as the generation does not come round within one
pass, what it ends with was all there at one time.
-/

namespace SequenceLock

open StepRun

variable {σ ρ γ : Type*}

/-- A read changes what the reader has collected; passes do not clear it. -/
inductive Reader (σ ρ γ : Type*) where
  | start (acc : ρ)
  | reading (old : γ) (rest : List (σ → ρ → ρ)) (acc : ρ)
  | done (acc : ρ)

structure State (σ ρ γ : Type*) where
  contents : σ
  version : ℕ
  /-- The version at the last look at the generation. -/
  passStart : ℕ
  reader : Reader σ ρ γ

inductive Input (σ : Type*) where
  /-- The reader makes its next access. -/
  | tick
  | update (contents : σ)

section

variable (gen : ℕ → γ) (reads : List (σ → ρ → ρ))

def State.beginPass (s : State σ ρ γ) (acc : ρ) : State σ ρ γ :=
  { s with
    passStart := s.version
    reader := .reading (gen s.version) reads acc }

/-- Fewer than `m` changes since the last look, while the reader is at work. -/
def FewUpdates (m : ℕ) (s : State σ ρ γ) : Input σ → Prop
  | .tick => True
  | .update _ =>
      match s.reader with
      | .reading .. => s.version + 1 < s.passStart + m
      | _ => True

def readAll (contents : σ) (reads : List (σ → ρ → ρ)) (acc : ρ) : ρ :=
  reads.foldl (fun acc read => read contents acc) acc

/-- While nothing changes in a pass, its reads are as good as made at once. -/
structure Pass (m : ℕ) (s : State σ ρ γ) (old : γ) (rest : List (σ → ρ → ρ)) (acc : ρ) :
    Prop where
  looked : old = gen s.passStart
  started : s.passStart ≤ s.version
  few : s.version < s.passStart + m
  whole : ∃ made before, reads = made ++ rest ∧
    (s.version = s.passStart → acc = readAll s.contents made before)

def State.Sound (m : ℕ) (s : State σ ρ γ) : Prop :=
  ∀ old rest acc, s.reader = .reading old rest acc → Pass gen reads m s old rest acc

variable {gen} {reads} {m : ℕ} {s : State σ ρ γ}

theorem beginPass_sound (hm : 0 < m) (acc : ρ) : (s.beginPass gen reads acc).Sound gen reads m := by
  intro old rest acc' hreader
  simp only [State.beginPass, Reader.reading.injEq] at hreader
  obtain ⟨rfl, rfl, rfl⟩ := hreader
  exact ⟨rfl, Nat.le_refl _, Nat.lt_add_of_pos_right hm, [], acc, rfl, fun _ => rfl⟩

end

section

variable [DecidableEq γ] (gen : ℕ → γ) (reads : List (σ → ρ → ρ))

def State.tick (s : State σ ρ γ) : State σ ρ γ :=
  match s.reader with
  | .start acc => s.beginPass gen reads acc
  | .reading old (read :: rest) acc =>
      { s with reader := .reading old rest (read s.contents acc) }
  | .reading old [] acc =>
      if gen s.version = old then { s with reader := .done acc } else s.beginPass gen reads acc
  | .done _ => s

def step (s : State σ ρ γ) : Input σ → State σ ρ γ
  | .tick => s.tick gen reads
  | .update contents => { s with
      contents := contents
      version := s.version + 1 }

variable {gen} {reads} {m : ℕ} {s : State σ ρ γ}

theorem tick_sound (hm : 0 < m) (h : s.Sound gen reads m) :
    (s.tick gen reads).Sound gen reads m := by
  unfold State.tick
  cases hreader : s.reader with
  | start acc => exact beginPass_sound hm acc
  | done acc => exact h
  | reading old rest acc =>
      have hpass := h old rest acc hreader
      cases rest with
      | nil =>
          dsimp only
          split_ifs
          · intro old' rest' acc' hdone
            simp at hdone
          · exact beginPass_sound hm acc
      | cons read rest =>
          intro old' rest' acc' hnext
          simp only [Reader.reading.injEq] at hnext
          obtain ⟨rfl, rfl, rfl⟩ := hnext
          obtain ⟨made, before, hsplit, hmade⟩ := hpass.whole
          refine ⟨hpass.looked, hpass.started, hpass.few, made ++ [read], before, ?_, ?_⟩
          · simp [hsplit]
          · intro hsame
            simp [readAll, hmade hsame]

theorem step_sound (hm : 0 < m) (i : Input σ) (h : s.Sound gen reads m)
    (hguard : FewUpdates m s i) : (step gen reads s i).Sound gen reads m := by
  cases i with
  | tick => exact tick_sound hm h
  | update contents =>
      intro old rest acc hreader
      have hpass := h old rest acc hreader
      have hfew : s.version + 1 < s.passStart + m := by
        simp only [step] at hreader
        simpa [FewUpdates, hreader] using hguard
      obtain ⟨made, before, hsplit, -⟩ := hpass.whole
      have hstarted := hpass.started
      refine ⟨hpass.looked, Nat.le_succ_of_le hstarted, hfew, made, before, hsplit, ?_⟩
      intro hsame
      simp only [step] at hsame
      omega

theorem tick_done {acc : ρ} (hbefore : ∀ a, s.reader ≠ .done a)
    (hdone : (s.tick gen reads).reader = .done acc) :
    s.reader = .reading (gen s.version) [] acc := by
  unfold State.tick at hdone
  cases hreader : s.reader with
  | start acc' =>
      rw [hreader] at hdone
      simp [State.beginPass] at hdone
  | done acc' => exact absurd hreader (hbefore acc')
  | reading old rest acc' =>
      rw [hreader] at hdone
      cases rest with
      | cons read rest => simp at hdone
      | nil =>
          dsimp only at hdone
          split_ifs at hdone with hsame
          · simp only [Reader.done.injEq] at hdone
            rw [hsame, hdone]
          · simp [State.beginPass] at hdone

theorem run_done {acc : ρ} (hdone : s.reader = .done acc) (inputs : List (Input σ)) :
    (run (step gen reads) s inputs).reader = .done acc := by
  apply run_invariant (P := fun s : State σ ρ γ => s.reader = .done acc) ?_ inputs hdone
  intro s i hs
  cases i with
  | tick => simp [step, State.tick, hs]
  | update contents => exact hs

/-- A reader that has finished holds what the reads give at the moment of its last look. -/
theorem read_at_once (hm : 0 < m)
    (hgen : ∀ a b, a ≤ b → b < a + m → gen b = gen a → b = a) (hs : s.Sound gen reads m)
    (hbefore : ∀ a, s.reader ≠ .done a) {inputs : List (Input σ)}
    (hguard : Guarded (step gen reads) (FewUpdates m) s inputs) {acc : ρ}
    (hdone : (run (step gen reads) s inputs).reader = .done acc) :
    ∃ first, first <+: inputs ∧
      (∃ old acc', (run (step gen reads) s first).reader = .reading old [] acc') ∧
      ∃ before, acc = readAll (run (step gen reads) s first).contents reads before := by
  induction inputs generalizing s with
  | nil => exact absurd hdone (hbefore acc)
  | cons i inputs ih =>
      have hnext := step_sound hm i hs hguard.1
      by_cases hends : ∃ a, (step gen reads s i).reader = .done a
      · obtain ⟨acc', hends⟩ := hends
        have hsame : (run (step gen reads) (step gen reads s i) inputs).reader = .done acc' :=
          run_done hends inputs
        rw [run_cons, hsame, Reader.done.injEq] at hdone
        subst hdone
        cases i with
        | update contents => exact absurd hends (hbefore acc')
        | tick =>
            have hlast := tick_done hbefore hends
            have hpass := hs _ _ _ hlast
            have hversion := hgen _ _ hpass.started hpass.few hpass.looked
            obtain ⟨made, before, hsplit, hmade⟩ := hpass.whole
            refine ⟨[], List.nil_prefix, ⟨_, _, hlast⟩, before, ?_⟩
            rw [hsplit, List.append_nil]
            exact hmade hversion
      · have hnot : ∀ a, (step gen reads s i).reader ≠ .done a := fun a ha => hends ⟨a, ha⟩
        obtain ⟨first, hfirst, hlook, hread⟩ := ih hnext hnot hguard.2 hdone
        exact ⟨i :: first, (List.prefix_cons_inj i).mpr hfirst, hlook, hread⟩

end

end SequenceLock
