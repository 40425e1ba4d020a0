import Viosnd.Lib.Clock
import Viosnd.Render.Effects

/-!
# The reported position

Queries read the byte clock, which runs from an anchor during RUN and stands at `m_Position`
otherwise. Starts and stops move the anchor without moving the clock back. The fallback switch
anchors the clock at `m_Position`, which may be behind it.
-/

namespace Viosnd.Render

open StepRun EffectSystem RunningClock

/-! ## Readings and reports -/

def Event.counterReading : Event → Option LONGLONG
  | .counter qpc => some qpc
  | _ => none

def Event.reportedPosition : Event → Option ULONGLONG
  | .reported position => some position
  | _ => none

def Event.isCarry : Event → Bool
  | .carried => true
  | _ => false

def counterReadings (history : List Event) : List LONGLONG :=
  history.filterMap Event.counterReading

def reportedPositions (history : List Event) : List ULONGLONG :=
  history.filterMap Event.reportedPosition

/-- The counter never went back and `m_Position` never wrapped. -/
def Steady (history : List Event) : Prop :=
  (counterReadings history).Pairwise (fun newer older => older.toInt ≤ newer.toInt) ∧
    ∀ e ∈ history, e.isCarry = false

instance (history : List Event) : Decidable (Steady history) :=
  inferInstanceAs (Decidable (_ ∧ _))

def NeverBack (history : List Event) : Prop :=
  (reportedPositions history).Pairwise fun newer older => older ≤ newer

instance (history : List Event) : Decidable (NeverBack history) :=
  inferInstanceAs (Decidable (List.Pairwise _ _))

/-! ## The byte clock as a running clock -/

def World.Ticking (w : World) : Prop := w.runStartQpc ≠ 0 ∧ 0 < w.qpcFrequency.toInt

instance (w : World) : Decidable w.Ticking := inferInstanceAs (Decidable (_ ∧ _))

def World.clock (w : World) : Clock :=
  if w.Ticking then ⟨w.runStartPosition.toNat, some w.runStartQpc.toInt⟩
  else ⟨w.position.toNat, none⟩

/-- What the clock shows when the counter reads `qpc`, without overflow. -/
def World.clockAt (w : World) (qpc : LONGLONG) : ℕ :=
  w.clock.read (elapsed bytesPerSecond.toNat w.qpcFrequency.toInt.toNat blockAlign.toNat) qpc.toInt

/-- Neither the product nor the sum of a reading leaves 64 bits. -/
def ClockFits (qpc : LONGLONG) (w : World) : Prop :=
  w.Ticking → (qpc.toInt - w.runStartQpc.toInt).toNat * bytesPerSecond.toNat < 2 ^ 64 ∧
    w.clockAt qpc < 2 ^ 64

instance (qpc : LONGLONG) (w : World) : Decidable (ClockFits qpc w) :=
  inferInstanceAs (Decidable (_ → _))

section

variable {w w' : World} {q q' : LONGLONG}

private theorem clockAt_rest (hrest : ¬ w.Ticking) (q : LONGLONG) :
    w.clockAt q = w.position.toNat := by
  unfold World.clockAt World.clock
  rw [if_neg hrest]
  rfl

private theorem clockAt_ticking (hticking : w.Ticking) (q : LONGLONG) :
    w.clockAt q = w.runStartPosition.toNat + elapsed bytesPerSecond.toNat
      w.qpcFrequency.toInt.toNat blockAlign.toNat (q.toInt - w.runStartQpc.toInt).toNat := by
  unfold World.clockAt World.clock
  rw [if_pos hticking]
  rfl

private theorem clockAt_mono (hq : q.toInt ≤ q'.toInt) : w.clockAt q ≤ w.clockAt q' :=
  Clock.read_mono (elapsed_mono _ _ _) hq

private theorem not_ticking_iff : ¬ w.Ticking ↔ w.runStartQpc = 0 ∨ w.qpcFrequency.toInt ≤ 0 := by
  unfold World.Ticking
  rw [Decidable.not_and_iff_or_not, not_not, not_lt]

private theorem toNat_sub_of_toInt (q start : LONGLONG) (hstart : start.toInt ≤ q.toInt)
    (hsmall : (q.toInt - start.toInt).toNat < 2 ^ 63) :
    (q - start).toNat = (q.toInt - start.toInt).toNat ∧
      (q - start).toInt = q.toInt - start.toInt := by
  have hint : (q - start).toInt = q.toInt - start.toInt := by
    rw [BitVec.toInt_sub]
    apply Int.bmod_eq_of_le <;> omega
  refine ⟨?_, hint⟩
  have hnonneg : 0 ≤ (q - start).toInt := by omega
  have hnat := BitVec.toInt_eq_toNat_cond (q - start)
  split at hnat <;> omega

private theorem viosndRenderBytesFromQpc_toNat (delta frequency : LONGLONG)
    (hdelta : delta.toInt = delta.toNat) (hfrequency : 0 < frequency.toInt)
    (hproduct : delta.toNat * bytesPerSecond.toNat < 2 ^ 64) :
    (viosndRenderBytesFromQpc delta frequency).toNat =
      elapsed bytesPerSecond.toNat frequency.toInt.toNat blockAlign.toNat delta.toNat := by
  have hpositive : frequency.toInt.toNat = frequency.toNat := by
    have hnat := BitVec.toInt_eq_toNat_cond frequency
    split at hnat <;> omega
  unfold viosndRenderBytesFromQpc elapsed
  by_cases hzero : delta.toNat = 0
  · rw [if_pos (Or.inl (by omega)), hzero]
    simp
  · rw [if_neg (by omega), hpositive]
    have hunits : (delta * bytesPerSecond / frequency).toNat =
        delta.toNat * bytesPerSecond.toNat / frequency.toNat := by
      rw [BitVec.toNat_udiv, BitVec.toNat_mul, Nat.mod_eq_of_lt hproduct]
    have hgrain : (delta * bytesPerSecond / frequency % blockAlign).toNat =
        delta.toNat * bytesPerSecond.toNat / frequency.toNat % blockAlign.toNat := by
      rw [BitVec.toNat_umod, hunits]
    have hle : delta * bytesPerSecond / frequency % blockAlign ≤
        delta * bytesPerSecond / frequency := by
      rw [BitVec.le_def, hgrain, hunits]
      exact Nat.mod_le _ _
    dsimp only
    rw [BitVec.toNat_sub_of_le hle, hgrain, hunits]

private theorem getRenderClockPosition_toNat (hfits : ClockFits q w)
    (hstart : w.Ticking → w.runStartQpc.toInt ≤ q.toInt) :
    (getRenderClockPosition q w).toNat = w.clockAt q := by
  unfold getRenderClockPosition
  by_cases hticking : w.Ticking
  · rw [if_neg (fun h => not_ticking_iff.mpr h hticking)]
    obtain ⟨hproduct, hsum⟩ := hfits hticking
    have hsmall : (q.toInt - w.runStartQpc.toInt).toNat < 2 ^ 63 := by
      have hrate : bytesPerSecond.toNat = 192000 := by decide
      rw [hrate] at hproduct
      omega
    obtain ⟨hdelta, hsigned⟩ := toNat_sub_of_toInt q w.runStartQpc (hstart hticking) hsmall
    have hbytes := viosndRenderBytesFromQpc_toNat (q - w.runStartQpc) w.qpcFrequency
      (by have := hstart hticking; omega) hticking.2 (by rw [hdelta]; exact hproduct)
    rw [clockAt_ticking hticking] at hsum ⊢
    rw [BitVec.toNat_add, hbytes, hdelta, Nat.mod_eq_of_lt hsum]
  · rw [if_pos (not_ticking_iff.mp hticking), clockAt_rest hticking]

end

/-! ## What a history of readings says -/

/-- The reading is not before any reading of the history. -/
def Latest (q : LONGLONG) (history : List Event) : Prop :=
  ∀ q' ∈ counterReadings history, q'.toInt ≤ q.toInt

private theorem Steady.of_suffix {older history : List Event} (h : Steady history)
    (hsuffix : older <:+ history) : Steady older := by
  obtain ⟨noted, rfl⟩ := hsuffix
  obtain ⟨hreadings, hcarry⟩ := h
  unfold counterReadings at hreadings
  rw [List.filterMap_append, List.pairwise_append] at hreadings
  exact ⟨hreadings.2.1, fun e he => hcarry e (List.mem_append_right noted he)⟩

private theorem Steady.latest {q : LONGLONG} {history : List Event}
    (h : Steady (.counter q :: history)) : Latest q history := by
  obtain ⟨hreadings, -⟩ := h
  exact (List.pairwise_cons.mp hreadings).1

private theorem Latest.of_suffix {q : LONGLONG} {older history : List Event} (h : Latest q history)
    (hsuffix : older <:+ history) : Latest q older := by
  intro q' hq'
  apply h
  exact (hsuffix.filterMap Event.counterReading).subset hq'

private theorem latest_max (history : List Event) : Latest (BitVec.intMax 64) history := by
  intro q' _
  have hmax : (BitVec.intMax 64).toInt = 2 ^ 63 - 1 := by decide
  have hlt := BitVec.toInt_lt (x := q')
  omega

/-! ## What the changes do to the clock -/

/-- The clock was started at a reading of the history. -/
def Anchored (w : World) : Prop := w.Ticking → w.runStartQpc ∈ counterReadings w.history

/-- The clock shows at least `p`, now and after it is anchored anew. -/
def Floor (p : ℕ) (w : World) : Prop :=
  p ≤ w.position.toNat ∧ (w.Ticking → p ≤ w.runStartPosition.toNat)

private theorem clearAnchor_rest (w : World) : ¬ (clearAnchor w).Ticking := fun h => h.1 rfl

section

variable {k : Kind} {w w' : World}

private theorem Effect.history_suffix (h : Effect k w w') : w.history <:+ w'.history := by
  obtain ⟨noted, hhistory, -⟩ := h.history_extends
  exact ⟨noted, hhistory.symm⟩

private theorem Effect.reports_eq (h : Effect k w w') (hk : k ≠ .report) :
    reportedPositions w'.history = reportedPositions w.history := by
  obtain ⟨noted, hhistory, hnoted⟩ := h.history_extends
  have hnone : noted.filterMap Event.reportedPosition = [] := by
    apply List.filterMap_eq_nil_iff.mpr
    intro e he
    have hmem := hnoted e he
    cases e with
    | reported position => exact absurd (Finset.mem_singleton.mp hmem) hk
    | _ => rfl
  unfold reportedPositions
  rw [hhistory, List.filterMap_append, hnone, List.nil_append]

private theorem Effect.anchor_eq (h : Effect k w w')
    (hk : k ∉ ({.anchor, .clear, .settle, .reset} : Finset Kind)) :
    w'.runStartPosition = w.runStartPosition ∧ w'.runStartQpc = w.runStartQpc ∧
      w'.qpcFrequency = w.qpcFrequency := by
  cases h with
  | anchor => exact absurd (by decide) hk
  | clear => exact absurd (by decide) hk
  | settle => exact absurd (by decide) hk
  | reset => exact absurd (by decide) hk
  | write => rw [setWritePacket_eq]; exact ⟨rfl, rfl, rfl⟩
  | free => rw [freeRenderIo_eq]; exact ⟨rfl, rfl, rfl⟩
  | complete => rw [completeEntry_eq]; exact ⟨rfl, rfl, rfl⟩
  | detach => rw [detachEntry_eq]; exact ⟨rfl, rfl, rfl⟩
  | _ => exact ⟨rfl, rfl, rfl⟩

private theorem addPosition_le (bytes : ULONG) (w : World)
    (hsteady : Steady (addPosition bytes w).history) :
    w.position.toNat ≤ (addPosition bytes w).position.toNat := by
  have hcarry := hsteady.2
  unfold addPosition at hcarry ⊢
  dsimp only at hcarry ⊢
  by_cases hsum : w.position.toNat + bytes.toNat < 2 ^ 64
  · rw [BitVec.toNat_add, BitVec.toNat_setWidth, Nat.mod_eq_of_lt (by omega : bytes.toNat < 2 ^ 64),
      Nat.mod_eq_of_lt hsum]
    exact Nat.le_add_right _ _
  · rw [if_neg hsum] at hcarry
    exact absurd (hcarry .carried List.mem_cons_self) (by decide)

private theorem accountCompletion_position_le (entry : TxEntry) (w : World)
    (hsteady : Steady (accountCompletion entry w).history) :
    w.position.toNat ≤ (accountCompletion entry w).position.toNat := by
  unfold accountCompletion at hsteady ⊢
  split
  · exact le_rfl
  · rename_i hpacket
    rw [if_neg hpacket] at hsteady
    exact addPosition_le _ w hsteady

private theorem completeEntry_position_le (n : Nat) (entry : TxEntry)
    (hsteady : Steady (completeEntry n entry w).history) :
    w.position.toNat ≤ (completeEntry n entry w).position.toNat := by
  unfold completeEntry at hsteady ⊢
  rw [recycleRenderIo_history] at hsteady
  rw [recycleRenderIo_eq]
  exact accountCompletion_position_le entry { w with
    txQueue := w.txQueue.eraseIdx n
    history := .returned entry :: w.history
    outstandingWrites := w.outstandingWrites - 1 } (hsteady.of_suffix (List.suffix_cons _ _))

theorem Effect.position_le (h : Effect k w w') (hk : k ∉ ({.settle, .reset} : Finset Kind))
    (hsteady : Steady w'.history) : w.position.toNat ≤ w'.position.toNat := by
  cases h with
  | settle => exact absurd (by decide) hk
  | reset => exact absurd (by decide) hk
  | complete n entry => exact completeEntry_position_le n entry hsteady
  | write => rw [setWritePacket_eq]
  | free => rw [freeRenderIo_eq]
  | detach => rw [detachEntry_eq]
  | _ => exact le_rfl

private theorem Effect.anchored (h : Effect k w w') (hw : Anchored w) : Anchored w' := by
  by_cases hk : k ∈ ({.anchor, .clear, .settle, .reset} : Finset Kind)
  · intro hticking
    cases h with
    | anchor qpc frequency => exact List.mem_cons_self
    | clear => exact absurd hticking (clearAnchor_rest _)
    | settle => exact absurd hticking (clearAnchor_rest _)
    | reset => exact absurd hticking (clearAnchor_rest _)
    | _ => exact absurd hk (by decide)
  · obtain ⟨hposition, hqpc, hfrequency⟩ := h.anchor_eq hk
    intro hticking
    unfold World.Ticking at hticking
    rw [hqpc, hfrequency] at hticking
    rw [hqpc]
    exact (h.history_suffix.filterMap Event.counterReading).subset (hw hticking)

theorem Effect.floor {p : ℕ} (h : Effect k w w') (hk : k ∉ ({.settle, .reset} : Finset Kind))
    (hsteady : Steady w'.history) (hw : Floor p w) : Floor p w' := by
  obtain ⟨hposition, hstart⟩ := hw
  refine ⟨hposition.trans (h.position_le hk hsteady), ?_⟩
  by_cases hanchor : k ∈ ({.anchor, .clear, .settle, .reset} : Finset Kind)
  · intro hticking
    cases h with
    | anchor qpc frequency => exact hposition
    | clear => exact absurd hticking (clearAnchor_rest _)
    | settle => exact absurd hticking (clearAnchor_rest _)
    | reset => exact absurd hticking (clearAnchor_rest _)
    | _ => exact absurd hanchor (by decide)
  · obtain ⟨hstartPosition, hqpc, hfrequency⟩ := h.anchor_eq hanchor
    unfold World.Ticking
    rw [hstartPosition, hqpc, hfrequency]
    exact hstart

end

/-! ## The invariant -/

/-- Every report is below the clock from here on. -/
structure Clocked (w : World) : Prop where
  behind : ∀ r ∈ reportedPositions w.history, ∀ q, Latest q w.history → r.toNat ≤ w.clockAt q
  anchored : Anchored w
  ordered : NeverBack w.history

def Idle (w : World) : Prop := w.state ≠ .run → ¬ w.Ticking

section

variable {K : Finset Kind} {w w' : World} {p : ℕ}

private theorem Does.history_suffix (h : Does K w w') : w.history <:+ w'.history :=
  h.invariant (P := fun v => w.history <:+ v.history)
    (fun _ _ _ _ hR ha => ha.trans hR.history_suffix) List.suffix_rfl

private theorem Does.steady_invariant {P : World → Prop} (h : Does K w w')
    (hstep : ∀ k ∈ K, ∀ a b, Effect k a b → Steady b.history → P a → P b)
    (hsteady : Steady w'.history) (hw : P w) : P w' := by
  have hkinds : ∀ k ∈ K, ∀ a b, Effect k a b → (Steady a.history → P a) →
      Steady b.history → P b := by
    intro k hk a b hR ha hb
    exact hstep k hk a b hR hb (ha (hb.of_suffix hR.history_suffix))
  exact h.invariant (P := fun w => Steady w.history → P w) hkinds (fun _ => hw) hsteady

private theorem Does.reports_eq (h : Does K w w') (hK : .report ∉ K) :
    reportedPositions w'.history = reportedPositions w.history :=
  h.keeps (fun w => reportedPositions w.history) fun _ hk _ _ hR =>
    hR.reports_eq fun he => hK (he ▸ hk)

theorem Does.position_le (h : Does K w w') (hK : Disjoint K {.settle, .reset})
    (hsteady : Steady w'.history) : w.position.toNat ≤ w'.position.toNat :=
  h.steady_invariant (P := fun v => w.position.toNat ≤ v.position.toNat)
    (fun _ hk _ _ hR hb ha => ha.trans (hR.position_le (Finset.disjoint_left.mp hK hk) hb))
    hsteady le_rfl

theorem Does.floor (h : Does K w w') (hK : Disjoint K {.settle, .reset})
    (hsteady : Steady w'.history) (hw : Floor p w) : Floor p w' :=
  h.steady_invariant
    (fun _ hk _ _ hR hb ha => hR.floor (Finset.disjoint_left.mp hK hk) hb ha) hsteady hw

private theorem Does.anchored (h : Does K w w') (hw : Anchored w) : Anchored w' :=
  h.invariant (fun _ _ _ _ hR ha => hR.anchored ha) hw

private theorem Does.anchor_eq (h : Does K w w')
    (hK : Disjoint K {.anchor, .clear, .settle, .reset}) :
    w'.runStartPosition = w.runStartPosition ∧ w'.runStartQpc = w.runStartQpc ∧
      w'.qpcFrequency = w.qpcFrequency := by
  have hpair := h.keeps (fun w => (w.runStartPosition, w.runStartQpc, w.qpcFrequency))
    fun _ hk _ _ hR => by
      obtain ⟨hposition, hqpc, hfrequency⟩ := hR.anchor_eq (Finset.disjoint_left.mp hK hk)
      simp only [hposition, hqpc, hfrequency]
  simpa using hpair

private theorem Floor.le_clockAt (h : Floor p w) (q : LONGLONG) : p ≤ w.clockAt q := by
  by_cases hticking : w.Ticking
  · rw [clockAt_ticking hticking]
    exact (h.2 hticking).trans (Nat.le_add_right _ _)
  · rw [clockAt_rest hticking]
    exact h.1

/-- With the same anchor and a position that did not fall, the clock did not fall. -/
private theorem clockAt_le (hanchor : w'.runStartPosition = w.runStartPosition ∧
      w'.runStartQpc = w.runStartQpc ∧ w'.qpcFrequency = w.qpcFrequency)
    (hposition : w.position.toNat ≤ w'.position.toNat) (q : LONGLONG) :
    w.clockAt q ≤ w'.clockAt q := by
  obtain ⟨hstart, hqpc, hfrequency⟩ := hanchor
  by_cases hticking : w.Ticking
  · have hticking' : w'.Ticking := by
      unfold World.Ticking
      rw [hqpc, hfrequency]
      exact hticking
    rw [clockAt_ticking hticking, clockAt_ticking hticking', hstart, hqpc, hfrequency]
  · have hrest' : ¬ w'.Ticking := by
      unfold World.Ticking
      rw [hqpc, hfrequency]
      exact hticking
    rw [clockAt_rest hticking, clockAt_rest hrest']
    exact hposition

private theorem Does.clocked (h : Does K w w') (hK : Disjoint K {.anchor, .clear, .settle, .reset})
    (hreport : .report ∉ K) (hsteady : Steady w'.history) (hw : Clocked w) : Clocked w' := by
  have hposition : w.position.toNat ≤ w'.position.toNat :=
    h.position_le (hK.mono_right (by decide)) hsteady
  have hreports := h.reports_eq hreport
  refine ⟨?_, h.anchored hw.anchored, ?_⟩
  · intro r hr q hq
    rw [hreports] at hr
    have hbehind := hw.behind r hr q (hq.of_suffix h.history_suffix)
    exact hbehind.trans (clockAt_le (h.anchor_eq hK) hposition q)
  · unfold NeverBack
    rw [hreports]
    exact hw.ordered

theorem Does.idle (h : Does K w w') (hK : Disjoint K {.enter, .anchor, .clear, .settle, .reset})
    (hw : Idle w) : Idle w' := by
  obtain ⟨-, hqpc, hfrequency⟩ := h.anchor_eq (hK.mono_right (by decide))
  intro hstate hticking
  rw [h.state_eq (Finset.disjoint_right.mp hK (by decide))] at hstate
  unfold World.Ticking at hticking
  rw [hqpc, hfrequency] at hticking
  exact hw hstate hticking

private theorem Clocked.of_floor (hw : Clocked w)
    (hreports : reportedPositions w'.history = reportedPositions w.history)
    (hp : ∀ r ∈ reportedPositions w.history, r.toNat ≤ p) (hfloor : Floor p w')
    (hanchored : Anchored w') : Clocked w' := by
  refine ⟨?_, hanchored, ?_⟩
  · intro r hr q _
    rw [hreports] at hr
    exact (hp r hr).trans (hfloor.le_clockAt q)
  · unfold NeverBack
    rw [hreports]
    exact hw.ordered

private theorem Clocked.reports_le (hw : Clocked w) (q : LONGLONG)
    (hq : w.Ticking → Latest q w.history) :
    ∀ r ∈ reportedPositions w.history, r.toNat ≤ w.clockAt q := by
  intro r hr
  by_cases hticking : w.Ticking
  · exact hw.behind r hr q (hq hticking)
  · have hrest := hw.behind r hr _ (latest_max _)
    rw [clockAt_rest hticking] at hrest ⊢
    exact hrest

private theorem Clocked.start_le (hw : Clocked w) {q : LONGLONG}
    (hq : w.Ticking → Latest q w.history) (hticking : w.Ticking) : w.runStartQpc.toInt ≤ q.toInt :=
  hq hticking _ (hw.anchored hticking)

end

/-! ## Queries -/

/-- A run between two resets whose clock readings do not overflow. -/
def PlayGuard (w : World) : Action → Prop
  | .setState target i => target ≠ .stop ∧ (target ≠ .run → w.state = .run → ClockFits i.qpc w)
  | .getPosition qpc => ClockFits qpc w
  | .getPresentationPosition qpc => ClockFits qpc w
  | _ => True

instance (w : World) (a : Action) : Decidable (PlayGuard w a) :=
  match a with
  | .setState target i => inferInstanceAs (Decidable
      (target ≠ .stop ∧ (target ≠ .run → w.state = .run → ClockFits i.qpc w)))
  | .getPosition qpc => inferInstanceAs (Decidable (ClockFits qpc w))
  | .getPresentationPosition qpc => inferInstanceAs (Decidable (ClockFits qpc w))
  | .setWritePacket _ _ _ => isTrue trivial
  | .worker _ => isTrue trivial

/-- A switch that completes anchors the clock at a position that is not behind it. -/
def KeepsUp (w : World) : Action → Prop
  | .worker (.maybeSwitch qpc i) => SwitchDue qpc w →
      (switchRenderToFallback i (w.note (.counter qpc))).1 = .success →
      w.clockAt i.qpc ≤ (haltForFallback i (w.note (.counter qpc))).position.toNat
  | _ => True

private theorem report_clocked {w : World} (q : LONGLONG) (hw : Clocked w) (hfits : ClockFits q w)
    (hq : w.Ticking → Latest q w.history) (hread : w.Ticking → q ∈ counterReadings w.history) :
    Clocked (w.note (.reported (getRenderClockPosition q w))) := by
  have hvalue := getRenderClockPosition_toNat hfits (hw.start_le hq)
  have hbelow := hw.reports_le q hq
  refine ⟨?_, hw.anchored, ?_⟩
  · intro r hr q' hq'
    change r.toNat ≤ w.clockAt q'
    rcases List.mem_cons.mp hr with rfl | hr
    · rw [hvalue]
      by_cases hticking : w.Ticking
      · exact clockAt_mono (hq' q (hread hticking))
      · rw [clockAt_rest hticking, clockAt_rest hticking]
    · exact hw.behind r hr q' hq'
  · apply List.pairwise_cons.mpr
    refine ⟨?_, hw.ordered⟩
    intro r hr
    rw [BitVec.le_def, hvalue]
    exact hbelow r hr

private theorem queryClock_clocked {w : World} (q : LONGLONG) (hw : Clocked w)
    (hfits : ClockFits q w) (hsteady : Steady (queryClock q w).history) :
    Clocked (queryClock q w) := by
  have hread := Does.one (.reading q w)
  unfold queryClock at hsteady ⊢
  dsimp only at hsteady ⊢
  split
  · rename_i hrest
    have hnot := not_ticking_iff.mpr hrest
    exact report_clocked q hw hfits (fun h => absurd h hnot) (fun h => absurd h hnot)
  · rename_i hrunning
    rw [if_neg hrunning] at hsteady
    have hcounter : Steady (w.note (.counter q)).history := hsteady.of_suffix (List.suffix_cons _ _)
    have hclocked : Clocked (w.note (.counter q)) :=
      hread.clocked (by decide) (by decide) hcounter hw
    apply report_clocked q hclocked hfits
    · intro _ q' hq'
      rcases List.mem_cons.mp hq' with rfl | hq'
      · exact le_rfl
      · exact hcounter.latest q' hq'
    · intro _
      exact List.mem_cons_self

/-! ## The fallback switch -/

private theorem anchorClock_clocked {w : World} (qpc frequency : LONGLONG) (hw : Clocked w)
    (hbelow : ∀ r ∈ reportedPositions w.history, r.toNat ≤ w.position.toNat) :
    Clocked (anchorClock qpc frequency w) := by
  have hanchor := Does.one (.anchor qpc frequency w)
  exact hw.of_floor (hanchor.reports_eq (by decide)) hbelow ⟨le_rfl, fun _ => le_rfl⟩
    (hanchor.anchored hw.anchored)

private theorem startFallback_cases (i : SwitchInput) (w : World) :
    ∃ w₁, Does {.command, .tune, .fallback, .preroll, .refuse} w w₁ ∧
      ((startFallback i w).1 = .success ∧
        (startFallback i w).2 = { anchorClock i.qpc i.frequency w₁ with
          fallbackMonitorStartQpc := 0, fallbackMonitorStartPosition := 0 } ∨
      (startFallback i w).1 ≠ .success ∧
        (startFallback i w).2 = { w₁ with renderFallbackActive := false }) := by
  refine ⟨(whenOk (prepareFallback i w) (viosndStartPcm i.start)).2,
    whenOk_does (prepareFallback_does i w) ((viosndPcmCommand_does _ _ _).mono (by decide)), ?_⟩
  unfold startFallback
  dsimp only
  split
  · exact Or.inl ⟨rfl, rfl⟩
  · rename_i hfailed
    exact Or.inr ⟨fun h => hfailed ((NtStatus.isSuccess_iff _).mpr h), rfl⟩

private theorem startFallback_clocked {w : World} (i : SwitchInput) (hw : Clocked w)
    (hsteady : Steady (startFallback i w).2.history)
    (hbelow : (startFallback i w).1 = .success → Latest i.qpc w.history →
      ∀ r ∈ reportedPositions w.history, r.toNat ≤ w.position.toNat) :
    Clocked (startFallback i w).2 := by
  obtain ⟨w₁, hdoes, ⟨hok, heq⟩ | ⟨-, heq⟩⟩ := startFallback_cases i w
  · rw [heq] at hsteady ⊢
    have hanchored : Steady (anchorClock i.qpc i.frequency w₁).history := hsteady
    have hold : Steady w₁.history := hanchored.of_suffix (List.suffix_cons _ _)
    have hlatest : Latest i.qpc w.history := hanchored.latest.of_suffix hdoes.history_suffix
    have hclocked := hdoes.clocked (by decide) (by decide) hold hw
    have hposition := hdoes.position_le (by decide) hold
    have hreports := hdoes.reports_eq (by decide)
    have hreanchored : Clocked (anchorClock i.qpc i.frequency w₁) := by
      apply anchorClock_clocked i.qpc i.frequency hclocked
      intro r hr
      rw [hreports] at hr
      exact (hbelow hok hlatest r hr).trans hposition
    have htune := Effect.tune (anchorClock i.qpc i.frequency w₁) w₁.buffer
      w₁.renderPrerollPackets w₁.renderFallbackPhase w₁.renderFallbackBuffer 0 0
      w₁.renderFallbackAttempted w₁.targetOutstanding (Or.inl rfl)
    exact (Does.one htune).clocked (by decide) (by decide) hsteady hreanchored
  · rw [heq] at hsteady ⊢
    have hall : Does {.command, .tune, .fallback, .preroll, .refuse} w
        { w₁ with renderFallbackActive := false } :=
      hdoes.trans (Within.single (k := .fallback) (by decide) (.fallback false w₁))
    exact hall.clocked (by decide) (by decide) hsteady hw

private theorem switchRenderToFallback_clocked {w : World} (i : SwitchInput) (hw : Clocked w)
    (hsteady : Steady (switchRenderToFallback i w).2.history)
    (hkeeps : (switchRenderToFallback i w).1 = .success →
      w.clockAt i.qpc ≤ (haltForFallback i w).position.toNat) :
    Clocked (switchRenderToFallback i w).2 := by
  have hhalt := haltForFallback_does i w
  unfold switchRenderToFallback at hsteady hkeeps ⊢
  split at hsteady
  · rename_i hgranted
    rw [if_pos hgranted] at hkeeps ⊢
    have hhalted : Steady (haltForFallback i w).history :=
      hsteady.of_suffix (startFallback_does i _).history_suffix
    apply startFallback_clocked i (hhalt.clocked (by decide) (by decide) hhalted hw) hsteady
    intro hok hlatest r hr
    rw [hhalt.reports_eq (by decide)] at hr
    exact (hw.behind r hr i.qpc (hlatest.of_suffix hhalt.history_suffix)).trans (hkeeps hok)
  · rename_i hrefused
    rw [if_neg hrefused]
    exact hhalt.clocked (by decide) (by decide) hsteady hw

private theorem Effect.position_eq {k : Kind} {w w' : World} (h : Effect k w w')
    (hk : k ∉ ({.settle, .reset, .complete} : Finset Kind)) : w'.position = w.position := by
  cases h with
  | settle => exact absurd (by decide) hk
  | reset => exact absurd (by decide) hk
  | complete => exact absurd (by decide) hk
  | write => rw [setWritePacket_eq]
  | free => rw [freeRenderIo_eq]
  | detach => rw [detachEntry_eq]
  | _ => rfl

/-- After a switch the clock shows `m_Position`, so it steps back exactly when it was ahead. -/
theorem switchRenderToFallback_clockAt (i : SwitchInput) (w : World)
    (hok : (switchRenderToFallback i w).1 = .success) :
    (switchRenderToFallback i w).2.clockAt i.qpc = (haltForFallback i w).position.toNat := by
  unfold switchRenderToFallback at hok ⊢
  split at hok
  · rename_i hgranted
    rw [if_pos hgranted]
    obtain ⟨w₁, hdoes, ⟨-, heq⟩ | ⟨hfailed, -⟩⟩ := startFallback_cases i (haltForFallback i w)
    · have hkinds : Disjoint ({.command, .tune, .fallback, .preroll, .refuse} : Finset Kind)
          {.settle, .reset, .complete} := by decide
      have hposition : w₁.position = (haltForFallback i w).position :=
        hdoes.keeps World.position fun _ hk _ _ hR =>
          hR.position_eq (Finset.disjoint_left.mp hkinds hk)
      rw [heq, ← hposition]
      unfold World.clockAt World.clock Clock.read
      split_ifs
      · simp [anchorClock, elapsed]
      · rfl
    · exact absurd hok hfailed
  · rename_i hrefused
    dsimp only at hok
    split at hok
    · rename_i hstop
      exact absurd ⟨hstop, (NtStatus.isSuccess_iff _).mpr hok⟩ hrefused
    · rename_i hstop
      exact absurd ((NtStatus.isSuccess_iff _).mpr hok) hstop

private theorem maybeSwitchRenderFallback_clocked {w : World} (qpc : LONGLONG) (i : SwitchInput)
    (hw : Clocked w) (hsteady : Steady (maybeSwitchRenderFallback qpc i w).history)
    (hkeeps : KeepsUp w (.worker (.maybeSwitch qpc i))) :
    Clocked (maybeSwitchRenderFallback qpc i w) := by
  by_cases hdue : SwitchDue qpc w
  · rw [maybeSwitchRenderFallback_due qpc i w hdue] at hsteady ⊢
    have hread : Steady (w.note (.counter qpc)).history :=
      hsteady.of_suffix (switchRenderToFallback_does i _).history_suffix
    have hclocked := (Does.one (.reading qpc w)).clocked (by decide) (by decide) hread hw
    exact switchRenderToFallback_clocked i hclocked hsteady (hkeeps hdue)
  · exact (maybeSwitchRenderFallback_notDue qpc i w hdue).clocked (by decide) (by decide)
      hsteady hw

private theorem workerStep_clocked {w : World} (s : WorkerStep) (hw : Clocked w)
    (hsteady : Steady (workerStep w s).history) (hkeeps : KeepsUp w (.worker s)) :
    Clocked (workerStep w s) := by
  cases s with
  | reclaim o =>
      exact (reclaimRenderPacket_does o w).clocked (by decide) (by decide) hsteady hw
  | maybeSwitch qpc i => exact maybeSwitchRenderFallback_clocked qpc i hw hsteady hkeeps
  | chooseTarget => exact (chooseTarget_does w).clocked (by decide) (by decide) hsteady hw
  | submit o => exact (submitPass_does o w).clocked (by decide) (by decide) hsteady hw
  | submitLate o => exact (submitLate_does o w).clocked (by decide) (by decide) hsteady hw

/-- A worker enters no state, and moves the anchor in RUN only. -/
private theorem workerStep_idle {w : World} (s : WorkerStep) (hw : Idle w) :
    Idle (workerStep w s) := by
  by_cases hrun : w.state = .run
  · intro hstate
    rw [(workerStep_does w s).state_eq (by decide)] at hstate
    exact absurd hrun hstate
  · exact (workerStep_idle_does w s hrun).idle (by decide) hw

/-! ## SetState -/

/-- A start goes from a clock at rest to an anchor at the position, or back to rest. -/
private theorem startRender_clocked {w : World} (i : SetStateInput) (hstate : w.state ≠ .run)
    (hw : Clocked w) (hidle : Idle w) (hsteady : Steady (startRender i w).2.history) :
    Clocked (startRender i w).2 ∧ Idle (startRender i w).2 := by
  have hdoes := startRender_does i w
  have hrest := hidle hstate
  have hbelow : ∀ r ∈ reportedPositions w.history, r.toNat ≤ w.position.toNat := by
    have hall := hw.reports_le 0 fun h => absurd h hrest
    rw [clockAt_rest hrest] at hall
    exact hall
  have hfloor : Floor w.position.toNat (startRender i w).2 :=
    hdoes.floor (by decide) hsteady ⟨le_rfl, fun h => absurd h hrest⟩
  refine ⟨hw.of_floor (hdoes.reports_eq (by decide)) hbelow hfloor (hdoes.anchored hw.anchored), ?_⟩
  by_cases hok : (startRender i w).1 = .success
  · intro hother
    exact absurd (startRender_success_does i w hok).2 hother
  · intro _
    unfold startRender at hok ⊢
    dsimp only at hok ⊢
    split
    · rename_i hsuccess
      rw [if_pos hsuccess] at hok
      exact absurd ((NtStatus.isSuccess_iff _).mp hsuccess) hok
    · exact fun hticking => hticking.1 rfl

theorem ClockFits.congr {w w' : World} {q : LONGLONG} (h : ClockFits q w)
    (hanchor : w'.runStartPosition = w.runStartPosition ∧ w'.runStartQpc = w.runStartQpc ∧
      w'.qpcFrequency = w.qpcFrequency) : ClockFits q w' := by
  obtain ⟨hstart, hqpc, hfrequency⟩ := hanchor
  intro hticking'
  have hticking : w.Ticking := by
    unfold World.Ticking at hticking' ⊢
    rw [← hqpc, ← hfrequency]
    exact hticking'
  have hfits := h hticking
  rw [clockAt_ticking hticking] at hfits
  rw [clockAt_ticking hticking', hstart, hqpc, hfrequency]
  exact hfits

private theorem settlePosition_clocked {w : World} (q : LONGLONG) (hw : Clocked w)
    (hfits : ClockFits q w) (hsteady : Steady (settlePosition q w).history) :
    Clocked (settlePosition q w) := by
  have hdoes := Does.one (.settle q w)
  have hq : w.Ticking → Latest q w.history := by
    intro hticking
    unfold settlePosition at hsteady
    rw [if_neg fun h => not_ticking_iff.mpr h hticking] at hsteady
    exact hsteady.latest
  have hvalue := getRenderClockPosition_toNat hfits (hw.start_le hq)
  apply hw.of_floor (hdoes.reports_eq (by decide)) (hw.reports_le q hq) ?_
    (hdoes.anchored hw.anchored)
  refine ⟨?_, fun h => absurd h (clearAnchor_rest _)⟩
  rw [← hvalue]
  exact le_rfl

private theorem stopRender_clocked {w : World} (target : KsState) (i : SetStateInput)
    (hw : Clocked w) (htarget : target ≠ .run) (hstop : target ≠ .stop)
    (hfits : ClockFits i.qpc w) (hsteady : Steady (stopRender target i w).2.history) :
    Clocked (stopRender target i w).2 ∧ Idle (stopRender target i w).2 := by
  have hdoes : Does (insert .enter quiesceKinds) w (quiesceRender target i w).2 :=
    (Within.single (k := .enter) (by decide) (.enter target w)).trans
      ((quiesceRender_does target i w htarget).mono (by decide))
  have hclocked := fun hold => hdoes.clocked (by decide) (by decide) hold hw
  have hfits' := hfits.congr (hdoes.anchor_eq (by decide))
  unfold stopRender at hsteady ⊢
  dsimp only at hsteady ⊢
  rw [if_neg hstop] at hsteady ⊢
  split at hsteady
  · rename_i hquiet
    rw [if_pos hquiet]
    have hold : Steady (quiesceRender target i w).2.history :=
      hsteady.of_suffix (Does.one (.settle i.qpc _)).history_suffix
    exact ⟨settlePosition_clocked i.qpc (hclocked hold) hfits' hsteady,
      fun _ => clearAnchor_rest _⟩
  · rename_i hbusy
    rw [if_neg hbusy]
    have henter := Does.one (.enter .run (quiesceRender target i w).2)
    exact ⟨henter.clocked (by decide) (by decide) hsteady (hclocked hsteady),
      fun h => absurd rfl h⟩

private theorem setState_clocked {w : World} (target : KsState) (i : SetStateInput) (hw : Clocked w)
    (hidle : Idle w) (hg : PlayGuard w (.setState target i))
    (hsteady : Steady (setState target i w).2.history) :
    Clocked (setState target i w).2 ∧ Idle (setState target i w).2 := by
  obtain ⟨hstop, hfits⟩ := hg
  by_cases htarget : target = .run <;> by_cases hstate : w.state = .run
  · rw [setState_other target i w (iff_of_true htarget hstate)] at hsteady ⊢
    exact ⟨(Does.one (.enter target w)).clocked (by decide) (by decide) hsteady hw,
      fun h => absurd htarget h⟩
  · subst htarget
    rw [setState_start i w hstate] at hsteady ⊢
    exact startRender_clocked i hstate hw hidle hsteady
  · rw [setState_stop target i w htarget hstate] at hsteady ⊢
    exact stopRender_clocked target i hw htarget hstop (hfits htarget hstate) hsteady
  · rw [setState_other target i w (iff_of_false htarget hstate)] at hsteady ⊢
    exact ⟨(Does.one (.enter target w)).clocked (by decide) (by decide) hsteady hw,
      fun _ => hidle hstate⟩

/-! ## Runs -/

private theorem step_clocked (w : World) (a : Action) (hw : Clocked w ∧ Idle w)
    (hplay : PlayGuard w a) (hkeeps : KeepsUp w a) (hsteady : Steady (step w a).history) :
    Clocked (step w a) ∧ Idle (step w a) := by
  obtain ⟨hclocked, hidle⟩ := hw
  cases a with
  | setState target i => exact setState_clocked target i hclocked hidle hplay hsteady
  | setWritePacket packetNumber endOfStream length =>
      have hdoes := Does.one (.write packetNumber endOfStream length w)
      exact ⟨hdoes.clocked (by decide) (by decide) hsteady hclocked,
        hdoes.idle (by decide) hidle⟩
  | worker s => exact ⟨workerStep_clocked s hclocked hsteady hkeeps, workerStep_idle s hidle⟩
  | getPosition qpc =>
      refine ⟨?_, (getPosition_does qpc w).idle (by decide) hidle⟩
      change Steady (getPosition qpc w).2.history at hsteady
      change Clocked (getPosition qpc w).2
      unfold getPosition at hsteady ⊢
      split
      · exact hclocked
      · rename_i hbuffer
        rw [if_neg hbuffer] at hsteady
        exact queryClock_clocked qpc hclocked hplay hsteady
  | getPresentationPosition qpc =>
      exact ⟨queryClock_clocked qpc hclocked hplay hsteady,
        (queryClock_does qpc w).idle (by decide) hidle⟩

private theorem step_history_suffix (w : World) (a : Action) :
    w.history <:+ (step w a).history := by
  by_cases hwrite : a.IsWrite
  · cases a with
    | setWritePacket packetNumber endOfStream length =>
        exact (Does.one (.write packetNumber endOfStream length w)).history_suffix
    | _ => exact hwrite.elim
  · exact (step_does w a hwrite).history_suffix

/-- Positions never go back in a run whose completed switches keep up with the clock. -/
theorem run_reportedPositions_neverBack (buffer : Option Memory)
    (bufferSize notificationCount packetSize : ULONG) (actions : List Action)
    (hplay : Guarded step PlayGuard
      (World.fresh buffer bufferSize notificationCount packetSize) actions)
    (hkeeps : Guarded step KeepsUp
      (World.fresh buffer bufferSize notificationCount packetSize) actions)
    (hsteady : Steady (run step (World.fresh buffer bufferSize notificationCount packetSize)
      actions).history) :
    NeverBack (run step (World.fresh buffer bufferSize notificationCount packetSize)
      actions).history := by
  have hboth := (guarded_and _ _).mpr ⟨hplay, hkeeps⟩
  have hstep : ∀ w a, (Steady w.history → Clocked w ∧ Idle w) → PlayGuard w a ∧ KeepsUp w a →
      Steady (step w a).history → Clocked (step w a) ∧ Idle (step w a) := by
    intro w a hw hg hnext
    exact step_clocked w a (hw (hnext.of_suffix (step_history_suffix w a))) hg.1 hg.2 hnext
  have hfresh : Clocked (World.fresh buffer bufferSize notificationCount packetSize) ∧
      Idle (World.fresh buffer bufferSize notificationCount packetSize) := by
    have hrest : ¬ (World.fresh buffer bufferSize notificationCount packetSize).Ticking :=
      fun h => h.1 rfl
    exact ⟨⟨by simp [World.fresh, reportedPositions], fun h => absurd h hrest, List.Pairwise.nil⟩,
      fun _ => hrest⟩
  exact (hboth.invariant (P := fun w => Steady w.history → Clocked w ∧ Idle w) hstep
    (fun _ => hfresh) hsteady).1.ordered

/-- A switch that fails, a pause and a new start between the queries. -/
theorem run_reportedPositions_neverBack_resumed :
    NeverBack (run step (World.fresh (some fun _ => 0) 4096 2 2048)
      [.setState .run (.granted 1), .worker (.maybeSwitch 1 (.granted 1)),
        .getPosition 20000001,
        .worker (.maybeSwitch 30000001
          { SwitchInput.granted 30000002 with start := .ioDeviceError }),
        .getPresentationPosition 30000003, .setState .pause (.granted 30000004),
        .setState .run (.granted 40000000), .getPosition 40000001]).history := by
  apply run_reportedPositions_neverBack
  · decide +kernel
  · refine ⟨trivial, ?_, trivial, ?_, trivial, trivial, trivial, trivial, trivial⟩
    · intro hdue
      exact absurd rfl hdue.2.2.2.1
    · intro _ hok
      exact absurd hok (by decide +kernel)
  · decide +kernel

/-- Nothing completes for three seconds: the switch sends the clock back to zero. -/
theorem run_reportedPositions_back :
    let actions := [.setState .run (.granted 1), .worker (.maybeSwitch 1 (.granted 1)),
      .getPresentationPosition 20000001, .worker (.maybeSwitch 30000001 (.granted 30000002)),
      .getPresentationPosition 30000003]
    let w := run step (World.fresh (some fun _ => 0) 4096 2 2048) actions
    Guarded step PlayGuard (World.fresh (some fun _ => 0) 4096 2 2048) actions ∧
      Steady w.history ∧ reportedPositions w.history = [0, 384000] ∧ ¬ NeverBack w.history := by
  decide +kernel

end Viosnd.Render
