import Viosnd.Wdf.DmaTransaction

/-!
# Exactly one deletion of a DMA transaction

Until `WdfDmaTransactionExecute` is going to succeed the creating routine has the transaction for
itself. From then on it is shared by the program routine and the completion, which takes over the
reference of the creator.
-/

namespace Viosnd.Wdf

open SharedObject StepRun

/-! ## Who holds a reference -/

def ProgramAt.holds : ProgramAt → ℕ
  | .settingParameters | .callingBack | .inCallback | .dropping => 1
  | _ => 0

def ProgramAt.owes : ProgramAt → ℕ
  | .deleting => 1
  | _ => 0

/-- The client's callback has been called. -/
def ProgramAt.called : ProgramAt → Bool
  | .inCallback | .dropping | .deleting | .returned => true
  | _ => false

/-- The routine has stored the address of the transaction. -/
def ProgramAt.stored : ProgramAt → Bool
  | .callingBack => true
  | p => p.called

private theorem ProgramAt.stored_of_called {p : ProgramAt} (h : p.called = true) :
    p.stored = true := by
  cases p <;> simp_all [ProgramAt.stored, ProgramAt.called]

private theorem ProgramAt.after_drop (last : Prop) [Decidable last] :
    (if last then ProgramAt.deleting else .returned).holds = 0 ∧
      (if last then ProgramAt.deleting else .returned).owes = (if last then 1 else 0) ∧
      (if last then ProgramAt.deleting else .returned).called = true := by
  split_ifs <;> exact ⟨rfl, rfl, rfl⟩

/-- The completion has the creator's reference from the start. -/
def CompleteAt.holds : CompleteAt → ℕ
  | .waiting | .finalizing | .copyingBack | .dropping => 1
  | _ => 0

def CompleteAt.owes : CompleteAt → ℕ
  | .deleting => 1
  | _ => 0

private theorem CompleteAt.after_drop (last : Prop) [Decidable last] :
    (if last then CompleteAt.deleting else .returned).holds = 0 ∧
      (if last then CompleteAt.deleting else .returned).owes = if last then 1 else 0 := by
  split_ifs <;> exact ⟨rfl, rfl⟩

/-- The transaction exists and the creator has it for itself. -/
def AsyncAt.owns : AsyncAt → Bool
  | .creating | .inExecute true | .returned _ => false
  | _ => true

/-- The creator has set `ctx->refCount` and is going to share the transaction. -/
def AsyncAt.counted : AsyncAt → Bool
  | .fillingContext | .deletingFailed => false
  | a => a.owns

/-! ## The invariant -/

/-- Only `VirtIOWdfDeviceDmaAsync` knows the transaction. -/
structure Transaction.Private (s : Transaction) : Prop where
  program : s.program = .waiting
  complete : s.complete = .waiting
  callbacks : s.callbacks = 0
  created : s.async.owns = true → s.created = true
  uncreated : s.async = .creating → s.created = false
  deletions : s.deletions = if s.async = .returned false then s.created.toNat else 0
  refCount : s.async.counted = true → s.refCount = 1

/-- The program routine and the completion share the transaction. -/
structure Transaction.Shared (s : Transaction) : Prop where
  created : s.created = true
  counted : Counted s.refCount (s.program.holds + s.complete.holds)
    (s.program.owes + s.complete.owes) s.deletions
  callbacks : s.callbacks ≠ 0 ↔ s.program.called = true
  completing : s.complete ≠ .waiting → s.program.called = true
  transaction : s.program.stored = true → s.transaction = true

structure Transaction.Sound (s : Transaction) : Prop where
  unused : s.usedDeleted = false
  bufferFrees : s.bufferFrees = s.buffer.toNat * s.deletions
  mdlFrees : s.mdlFrees = s.mdl.toNat * s.deletions
  phase : if s.async.programs then s.Shared else s.Private

variable {s : Transaction}

private theorem start_sound (toDevice req : Bool) : (Transaction.start toDevice req).Sound where
  unused := rfl
  bufferFrees := rfl
  mdlFrees := rfl
  phase := by
    constructor <;> simp [Transaction.start, AsyncAt.counted, AsyncAt.owns]

private theorem touch_alive (halive : s.deletions = 0) : s.touch = s := by
  have hunused : decide (s.deletions ≠ 0) = false := by simp [halive]
  unfold Transaction.touch
  rw [hunused, Bool.or_false]

private theorem delete_alive (halive : s.deletions = 0) :
    s.delete = { s with
      deletions := 1
      bufferFrees := s.bufferFrees + s.buffer.toNat
      mdlFrees := s.mdlFrees + s.mdl.toNat } := by
  unfold Transaction.delete
  rw [touch_alive halive, halive]

/-! ## The creating routine -/

private theorem AsyncAt.owns_spec {a : AsyncAt} (h : a.owns = true) :
    a.programs = false ∧ a ≠ .creating ∧ a ≠ .returned false := by
  cases a with
  | inExecute succeeds => cases succeeds <;> simp_all [AsyncAt.owns, AsyncAt.programs]
  | _ => simp_all [AsyncAt.owns, AsyncAt.programs]

private theorem AsyncAt.owns_of_counted {a : AsyncAt} (h : a.counted = true) : a.owns = true := by
  cases a <;> simp_all [AsyncAt.owns, AsyncAt.counted]

theorem Transaction.Sound.private (h : s.Sound) (hnot : s.async.programs = false) : s.Private := by
  have hphase := h.phase
  rwa [hnot] at hphase

theorem Transaction.Sound.shared (h : s.Sound) (hprograms : s.async.programs = true) :
    s.Shared := by
  have hphase := h.phase
  rwa [hprograms] at hphase

private theorem Transaction.Sound.alive_of_owns (h : s.Sound) (howns : s.async.owns = true) :
    s.deletions = 0 := by
  obtain ⟨hnot, -, hreturned⟩ := AsyncAt.owns_spec howns
  rw [(h.private hnot).deletions, if_neg hreturned]

theorem Transaction.Sound.goOn (h : s.Sound) (howns : s.async.owns = true) {next : AsyncAt}
    (hnext : next.owns = true) {refCount : ℤ} (hcount : next.counted = true → refCount = 1)
    (buffer mdl transaction : Bool) :
    { s with
      async := next
      buffer := buffer
      mdl := mdl
      transaction := transaction
      refCount := refCount }.Sound where
  unused := h.unused
  bufferFrees := by
    simp [h.bufferFrees, h.alive_of_owns howns]
  mdlFrees := by
    simp [h.mdlFrees, h.alive_of_owns howns]
  phase := by
    have hown := h.private (AsyncAt.owns_spec howns).1
    obtain ⟨hnot, hbegun, hreturned⟩ := AsyncAt.owns_spec hnext
    rw [hnot]
    refine ⟨hown.program, hown.complete, hown.callbacks, ?_, ?_, ?_, hcount⟩
    · intro _
      exact hown.created howns
    · intro hcreating
      exact absurd hcreating hbegun
    · rw [if_neg hreturned]
      exact h.alive_of_owns howns

theorem Transaction.Sound.pass (h : s.Sound) (hcounted : s.async.counted = true)
    {next : AsyncAt} (hnext : next.owns = true) (buffer mdl : Bool) :
    { s with
      async := next
      buffer := buffer
      mdl := mdl }.Sound := by
  have howns := AsyncAt.owns_of_counted hcounted
  have hcount := (h.private (AsyncAt.owns_spec howns).1).refCount hcounted
  exact h.goOn howns hnext (fun _ => hcount) buffer mdl s.transaction

/-- The creator's own reference becomes that of the completion. -/
private theorem Transaction.Sound.share (h : s.Sound) (hcounted : s.async.counted = true) :
    { s with async := .inExecute true }.Sound where
  unused := h.unused
  bufferFrees := h.bufferFrees
  mdlFrees := h.mdlFrees
  phase := by
    have howns := AsyncAt.owns_of_counted hcounted
    have hown := h.private (AsyncAt.owns_spec howns).1
    refine ⟨hown.created howns, ?_, ?_, ?_, ?_⟩
    · simp only [hown.program, hown.complete, hown.refCount hcounted, h.alive_of_owns howns]
      exact counted_new
    · simp [hown.program, hown.callbacks, ProgramAt.called]
    · intro hcomplete
      exact absurd hown.complete hcomplete
    · simp [hown.program, ProgramAt.stored, ProgramAt.called]

theorem Transaction.Sound.create (h : s.Sound) (hasync : s.async = .creating) :
    { s with
      created := true
      async := .fillingContext }.Sound where
  unused := h.unused
  bufferFrees := h.bufferFrees
  mdlFrees := h.mdlFrees
  phase := by
    have hown := h.private (by rw [hasync]; rfl)
    refine ⟨hown.program, hown.complete, hown.callbacks, fun _ => rfl, ?_, ?_, ?_⟩
    · simp
    · simp [hown.deletions, hasync]
    · simp [AsyncAt.counted]

theorem Transaction.Sound.giveUp (h : s.Sound) (hasync : s.async = .creating) :
    { s with async := .returned false }.Sound where
  unused := h.unused
  bufferFrees := h.bufferFrees
  mdlFrees := h.mdlFrees
  phase := by
    have hown := h.private (by rw [hasync]; rfl)
    refine ⟨hown.program, hown.complete, hown.callbacks, ?_, ?_, ?_, ?_⟩
    · simp [AsyncAt.owns]
    · simp
    · simp [hown.deletions, hown.uncreated hasync, hasync]
    · simp [AsyncAt.counted, AsyncAt.owns]

private theorem Transaction.Sound.deleteFailed (h : s.Sound) (hasync : s.async = .deletingFailed) :
    { s.delete with async := .returned false }.Sound := by
  have howns : s.async.owns = true := by
    rw [hasync]
    rfl
  have halive := h.alive_of_owns howns
  have hown := h.private (by rw [hasync]; rfl)
  rw [delete_alive halive]
  refine ⟨h.unused, ?_, ?_, hown.program, hown.complete, hown.callbacks, ?_, ?_, ?_, ?_⟩
  · simp [h.bufferFrees, halive]
  · simp [h.mdlFrees, halive]
  · simp [AsyncAt.owns]
  · simp
  · simp [hown.created howns]
  · simp [AsyncAt.counted, AsyncAt.owns]

theorem Transaction.Sound.async (h : s.Sound) (ok : Bool) :
    (virtIOWdfDeviceDmaAsync ok s s.async).Sound := by
  have htouch : s.async.owns = true → s.touch = s :=
    fun howns => touch_alive (h.alive_of_owns howns)
  cases hasync : s.async with
  | creating =>
      cases ok with
      | true => exact h.create hasync
      | false => exact h.giveUp hasync
  | fillingContext =>
      rw [virtIOWdfDeviceDmaAsync, htouch (by rw [hasync]; rfl)]
      apply h.goOn (by rw [hasync]; rfl)
      · split <;> rfl
      · simp
  | allocatingBuffer =>
      rw [virtIOWdfDeviceDmaAsync, htouch (by rw [hasync]; rfl)]
      apply h.pass (by rw [hasync]; rfl)
      split_ifs <;> rfl
  | copyingData =>
      rw [virtIOWdfDeviceDmaAsync, htouch (by rw [hasync]; rfl)]
      exact h.pass (by rw [hasync]; rfl) rfl s.buffer s.mdl
  | allocatingMdl =>
      rw [virtIOWdfDeviceDmaAsync, htouch (by rw [hasync]; rfl)]
      apply h.pass (by rw [hasync]; rfl)
      split_ifs <;> rfl
  | buildingMdl =>
      rw [virtIOWdfDeviceDmaAsync, htouch (by rw [hasync]; rfl)]
      exact h.pass (by rw [hasync]; rfl) rfl s.buffer s.mdl
  | initializing =>
      rw [virtIOWdfDeviceDmaAsync, htouch (by rw [hasync]; rfl)]
      apply h.pass (by rw [hasync]; rfl)
      split_ifs <;> rfl
  | executing =>
      rw [virtIOWdfDeviceDmaAsync, htouch (by rw [hasync]; rfl)]
      cases ok with
      | true => exact h.share (by rw [hasync]; rfl)
      | false => exact h.pass (by rw [hasync]; rfl) rfl s.buffer s.mdl
  | inExecute succeeds =>
      cases succeeds with
      | true =>
          -- the transaction is already shared
          have hshared := h.shared (by rw [hasync]; rfl)
          exact ⟨h.unused, h.bufferFrees, h.mdlFrees, hshared.created, hshared.counted,
            hshared.callbacks, hshared.completing, hshared.transaction⟩
      | false => exact h.pass (by rw [hasync]; rfl) rfl s.buffer s.mdl
  | deletingFailed => exact h.deleteFailed hasync
  | returned result => exact h

/-! ## The shared transaction -/

/-- Who holds the transaction or owes its deletion finds it there. -/
theorem Transaction.Shared.alive (h : s.Shared)
    (hneeded : s.program.holds + s.complete.holds ≠ 0 ∨ s.program.owes + s.complete.owes ≠ 0) :
    s.deletions = 0 :=
  h.counted.alive hneeded

/-- The completion begins after the callback, and has its reference until then. -/
theorem Transaction.Shared.waits (h : s.Shared) (hnot : s.program.called = false) :
    s.complete = .waiting := by
  by_contra hbegun
  have hcalled := h.completing hbegun
  rw [hnot] at hcalled
  exact Bool.noConfusion hcalled

private theorem Transaction.Sound.programTo (h : s.Sound) (hprograms : s.async.programs = true)
    {next : ProgramAt} {refCount : ℤ} {transaction : Bool} {callbacks : ℕ}
    (hcounted : Counted refCount (next.holds + s.complete.holds) (next.owes + s.complete.owes)
      s.deletions)
    (hcallbacks : callbacks ≠ 0 ↔ next.called = true)
    (hkeeps : s.program.called = true → next.called = true)
    (hstored : next.stored = true → transaction = true) :
    { s with
      program := next
      refCount := refCount
      transaction := transaction
      callbacks := callbacks }.Sound where
  unused := h.unused
  bufferFrees := h.bufferFrees
  mdlFrees := h.mdlFrees
  phase := by
    have hshared := h.shared hprograms
    rw [if_pos hprograms]
    exact ⟨hshared.created, hcounted, hcallbacks,
      fun hbegun => hkeeps (hshared.completing hbegun), hstored⟩

private theorem Transaction.Sound.completeTo (h : s.Sound) (hprograms : s.async.programs = true)
    (hcalled : s.program.called = true) {next : CompleteAt} {refCount : ℤ}
    (hcounted : Counted refCount (s.program.holds + next.holds) (s.program.owes + next.owes)
      s.deletions) :
    { s with
      complete := next
      refCount := refCount }.Sound where
  unused := h.unused
  bufferFrees := h.bufferFrees
  mdlFrees := h.mdlFrees
  phase := by
    have hshared := h.shared hprograms
    rw [if_pos hprograms]
    exact ⟨hshared.created, hcounted, hshared.callbacks, fun _ => hcalled, hshared.transaction⟩

/-- After the callback the transaction is found by the address that was stored. -/
private theorem Transaction.Shared.deleteParameter_eq (h : s.Shared) (halive : s.deletions = 0)
    (hcalled : s.program.called = true) :
    s.deleteParameter = { s with
      deletions := 1
      bufferFrees := s.bufferFrees + s.buffer.toNat
      mdlFrees := s.mdlFrees + s.mdl.toNat } := by
  have hstored := h.transaction (ProgramAt.stored_of_called hcalled)
  rw [Transaction.deleteParameter, touch_alive halive, if_pos hstored, delete_alive halive]

private theorem Transaction.Sound.deletes (h : s.Sound) (hprograms : s.async.programs = true)
    (halive : s.deletions = 0) (hcalled : s.program.called = true) {program : ProgramAt}
    {complete : CompleteAt} (hkeeps : program.called = true)
    (hcounted : Counted s.refCount (program.holds + complete.holds)
      (program.owes + complete.owes) 1) :
    { s with
      deletions := 1
      bufferFrees := s.bufferFrees + s.buffer.toNat
      mdlFrees := s.mdlFrees + s.mdl.toNat
      program := program
      complete := complete }.Sound := by
  have hshared := h.shared hprograms
  have hstored := hshared.transaction (ProgramAt.stored_of_called hcalled)
  have hcallbacks := iff_of_true (hshared.callbacks.mpr hcalled) hkeeps
  refine ⟨h.unused, ?_, ?_, ?_⟩
  · simp [h.bufferFrees, halive]
  · simp [h.mdlFrees, halive]
  · rw [if_pos hprograms]
    exact ⟨hshared.created, hcounted, hcallbacks, fun _ => hkeeps, fun _ => hstored⟩

theorem Transaction.Sound.reference (h : s.Sound) (hprograms : s.async.programs = true)
    (hprogram : s.program = .referencing) :
    { s with
      refCount := s.refCount + 1
      program := .settingParameters }.Sound := by
  have hshared := h.shared hprograms
  have hnot : s.program.called = false := by
    rw [hprogram]
    rfl
  have hwaits := hshared.waits hnot
  have hcounted := hshared.counted
  have hcallbacks := hshared.callbacks
  rw [hprogram, hwaits] at hcounted
  rw [hprogram] at hcallbacks
  apply h.programTo hprograms
  · rw [hwaits]
    exact hcounted.take one_ne_zero
  · exact hcallbacks
  · simp [hnot]
  · simp [ProgramAt.stored, ProgramAt.called]

private theorem Transaction.Sound.programDrops (h : s.Sound) (hprograms : s.async.programs = true)
    (hprogram : s.program = .dropping) :
    { s with
      refCount := s.refCount - 1
      program := if s.refCount - 1 = 0 then .deleting else .returned }.Sound := by
  have hshared := h.shared hprograms
  have hcounted := hshared.counted
  have hcallbacks := hshared.callbacks
  have hstored : s.transaction = true := hshared.transaction (by rw [hprogram]; rfl)
  rw [hprogram] at hcounted hcallbacks
  rw [show ProgramAt.dropping.holds + s.complete.holds = s.complete.holds + 1 from
    Nat.add_comm 1 _] at hcounted
  have hdropped := hcounted.drop
  obtain ⟨hholds, howes, hcalled⟩ := ProgramAt.after_drop (s.refCount - 1 = 0)
  apply h.programTo hprograms
  · rw [hholds, howes, Nat.zero_add, Nat.add_comm]
    simpa [ProgramAt.owes] using hdropped
  · exact iff_of_true (hcallbacks.mpr rfl) hcalled
  · exact fun _ => hcalled
  · exact fun _ => hstored

private theorem Transaction.Sound.completeDrops (h : s.Sound) (hprograms : s.async.programs = true)
    (hcomplete : s.complete = .dropping) :
    { s with
      refCount := s.refCount - 1
      complete := if s.refCount - 1 = 0 then .deleting else .returned }.Sound := by
  have hshared := h.shared hprograms
  have hcalled : s.program.called = true := hshared.completing (by simp [hcomplete])
  have hcounted := hshared.counted
  rw [hcomplete] at hcounted
  have hdropped := hcounted.drop
  obtain ⟨hholds, howes⟩ := CompleteAt.after_drop (s.refCount - 1 = 0)
  apply h.completeTo hprograms hcalled
  rw [hholds, howes]
  exact hdropped

theorem Transaction.Sound.program (h : s.Sound) (ok : Bool) :
    (onDmaTransactionProgramDma ok s s.program).Sound := by
  by_cases hprograms : s.async.programs = true
  case neg =>
    have hown := h.private (Bool.not_eq_true _ ▸ hprograms)
    rw [hown.program, onDmaTransactionProgramDma, if_neg hprograms]
    exact h
  have hshared := h.shared hprograms
  have hcounted := hshared.counted
  have hcallbacks := hshared.callbacks
  have hstored := hshared.transaction
  have htouch : s.program.holds ≠ 0 → s.touch = s := by
    intro hholds
    apply touch_alive
    apply hshared.alive
    omega
  cases hprogram : s.program with
  | waiting =>
      rw [hprogram] at hcounted hcallbacks hstored
      rw [onDmaTransactionProgramDma, if_pos hprograms]
      exact h.programTo hprograms hcounted hcallbacks (by simp [hprogram, ProgramAt.called])
        hstored
  | referencing =>
      have hwaits := hshared.waits (by rw [hprogram]; rfl)
      have halive := hshared.alive (by simp [hwaits, CompleteAt.holds])
      rw [onDmaTransactionProgramDma, touch_alive halive]
      exact h.reference hprograms hprogram
  | settingParameters =>
      rw [onDmaTransactionProgramDma, htouch (by simp [hprogram, ProgramAt.holds])]
      rw [hprogram] at hcounted hcallbacks
      exact h.programTo hprograms hcounted hcallbacks (by simp [hprogram, ProgramAt.called])
        (fun _ => rfl)
  | callingBack =>
      rw [onDmaTransactionProgramDma, htouch (by simp [hprogram, ProgramAt.holds])]
      rw [hprogram] at hcounted hstored
      exact h.programTo hprograms hcounted (by simp [ProgramAt.called])
        (by simp [ProgramAt.called]) hstored
  | inCallback =>
      rw [onDmaTransactionProgramDma, htouch (by simp [hprogram, ProgramAt.holds])]
      rw [hprogram] at hcounted hcallbacks hstored
      cases ok with
      | true =>
          exact h.programTo hprograms hcounted hcallbacks (by simp [ProgramAt.called]) hstored
      | false => exact h
  | dropping =>
      rw [onDmaTransactionProgramDma, htouch (by simp [hprogram, ProgramAt.holds])]
      exact h.programDrops hprograms hprogram
  | deleting =>
      have halive := hshared.alive (by simp [hprogram, ProgramAt.owes])
      have hcalled : s.program.called = true := by
        rw [hprogram]
        rfl
      rw [hprogram, halive, Nat.add_comm ProgramAt.deleting.owes] at hcounted
      have hdeleted := hcounted.delete
      rw [onDmaTransactionProgramDma, hshared.deleteParameter_eq halive hcalled]
      exact h.deletes hprograms halive hcalled rfl
        (by simpa [ProgramAt.holds, ProgramAt.owes] using hdeleted)
  | returned => exact h

theorem Transaction.Sound.complete (h : s.Sound) (length : ℕ) :
    (virtIOWdfDeviceDmaComplete length s s.complete).Sound := by
  by_cases hprograms : s.async.programs = true
  case neg =>
    have hown := h.private (Bool.not_eq_true _ ▸ hprograms)
    rw [hown.complete, virtIOWdfDeviceDmaComplete, if_neg (not_not.mpr hown.callbacks)]
    exact h
  have hshared := h.shared hprograms
  have hcounted := hshared.counted
  have htouch : s.complete.holds ≠ 0 → s.touch = s := by
    intro hholds
    apply touch_alive
    apply hshared.alive
    omega
  cases hcomplete : s.complete with
  | waiting =>
      rw [virtIOWdfDeviceDmaComplete]
      split_ifs with hallowed
      · rw [hcomplete] at hcounted
        exact h.completeTo hprograms (hshared.callbacks.mp hallowed) hcounted
      · exact h
  | finalizing =>
      have hcalled := hshared.completing (by simp [hcomplete])
      rw [virtIOWdfDeviceDmaComplete, htouch (by simp [hcomplete, CompleteAt.holds])]
      rw [hcomplete] at hcounted
      apply h.completeTo hprograms hcalled
      split_ifs <;> exact hcounted
  | copyingBack =>
      have hcalled := hshared.completing (by simp [hcomplete])
      rw [virtIOWdfDeviceDmaComplete, htouch (by simp [hcomplete, CompleteAt.holds]), ite_self]
      rw [hcomplete] at hcounted
      exact h.completeTo hprograms hcalled hcounted
  | dropping =>
      rw [virtIOWdfDeviceDmaComplete, htouch (by simp [hcomplete, CompleteAt.holds])]
      exact h.completeDrops hprograms hcomplete
  | deleting =>
      have halive := hshared.alive (by simp [hcomplete, CompleteAt.owes])
      have hcalled := hshared.completing (by simp [hcomplete])
      rw [hcomplete, halive] at hcounted
      have hdeleted := hcounted.delete
      rw [virtIOWdfDeviceDmaComplete, hshared.deleteParameter_eq halive hcalled]
      exact h.deletes hprograms halive hcalled hcalled hdeleted
  | returned => exact h

/-! ## The lifetime -/

theorem Transaction.Sound.step (h : s.Sound) (i : TransactionInput) : (s.step i).Sound := by
  cases i with
  | async ok => exact h.async ok
  | program ok => exact h.program ok
  | complete length => exact h.complete length

theorem Transaction.Sound.once (h : s.Sound) : s.deletions ≤ 1 := by
  by_cases hprograms : s.async.programs = true
  · exact (h.shared hprograms).counted.once
  · rw [(h.private (Bool.not_eq_true _ ▸ hprograms)).deletions]
    split
    · exact Bool.toNat_le s.created
    · exact Nat.zero_le 1

theorem Transaction.Sound.deleted (h : s.Sound) (hover : s.Over) :
    s.deletions = s.created.toNat := by
  rcases hover with hfalse | ⟨htrue, hprogram, hcomplete⟩
  · have hown := h.private (by rw [hfalse]; rfl)
    rw [hown.deletions, if_pos hfalse]
  · have hshared := h.shared (by rw [htrue]; rfl)
    have hcounted := hshared.counted
    rw [hprogram, hcomplete] at hcounted
    rw [hshared.created]
    exact hcounted.over

private theorem Transaction.Sound.lifetime (h : s.Sound) : LifetimeRight s where
  once := h.once
  deleted := h.deleted
  memory := ⟨h.bufferFrees, h.mdlFrees⟩
  unused := h.unused
  silent hfalse := by
    have hown := h.private (by rw [hfalse]; rfl)
    exact hown.callbacks

/-- The lifetime of a transaction is right in every order of the steps of the three routines. -/
theorem transaction_lifetime (toDevice req : Bool) (inputs : List TransactionInput) :
    LifetimeRight (run Transaction.step (Transaction.start toDevice req) inputs) := by
  have hsound : (run Transaction.step (Transaction.start toDevice req) inputs).Sound := by
    apply run_invariant
    · intro s i h
      exact h.step i
    · exact start_sound toDevice req
  exact hsound.lifetime

/-! ## No routine is stuck -/

private theorem async_returns (hstuck : s.step (.async true) = s) :
    ∃ result, s.async = .returned result := by
  have hasync := congrArg Transaction.async hstuck
  change (virtIOWdfDeviceDmaAsync true s s.async).async = s.async at hasync
  cases hat : s.async with
  | returned result => exact ⟨result, rfl⟩
  | fillingContext =>
      rw [hat, virtIOWdfDeviceDmaAsync] at hasync
      split_ifs at hasync
  | allocatingBuffer =>
      rw [hat, virtIOWdfDeviceDmaAsync] at hasync
      split_ifs at hasync
  | inExecute succeeds =>
      rw [hat, virtIOWdfDeviceDmaAsync] at hasync
      split_ifs at hasync
  | _ =>
      rw [hat] at hasync
      cases hasync

private theorem program_returns (hprograms : s.async.programs = true)
    (hstuck : s.step (.program true) = s) : s.program = .returned := by
  have hprogram := congrArg Transaction.program hstuck
  change (onDmaTransactionProgramDma true s s.program).program = s.program at hprogram
  cases hat : s.program with
  | returned => rfl
  | waiting =>
      rw [hat, onDmaTransactionProgramDma, if_pos hprograms] at hprogram
      cases hprogram
  | dropping =>
      rw [hat, onDmaTransactionProgramDma] at hprogram
      split at hprogram <;> cases hprogram
  | _ =>
      rw [hat] at hprogram
      cases hprogram

private theorem complete_returns (hcallbacks : s.callbacks ≠ 0)
    (hstuck : s.step (.complete 0) = s) :
    s.complete = .returned := by
  have hcomplete := congrArg Transaction.complete hstuck
  change (virtIOWdfDeviceDmaComplete 0 s s.complete).complete = s.complete at hcomplete
  cases hat : s.complete with
  | returned => rfl
  | waiting =>
      rw [hat, virtIOWdfDeviceDmaComplete, if_pos hcallbacks] at hcomplete
      cases hcomplete
  | finalizing =>
      rw [hat, virtIOWdfDeviceDmaComplete] at hcomplete
      split at hcomplete <;> cases hcomplete
  | dropping =>
      rw [hat, virtIOWdfDeviceDmaComplete] at hcomplete
      split at hcomplete <;> cases hcomplete
  | _ =>
      rw [hat] at hcomplete
      cases hcomplete

theorem Transaction.Sound.over_of_stuck (h : s.Sound) (hstuck : ∀ i, s.step i = s) : s.Over := by
  obtain ⟨result, hasync⟩ := async_returns (hstuck (.async true))
  cases result with
  | false => exact Or.inl hasync
  | true =>
      have hprograms : s.async.programs = true := by
        rw [hasync]
        rfl
      have hprogram := program_returns hprograms (hstuck (.program true))
      have hcallbacks : s.callbacks ≠ 0 :=
        (h.shared hprograms).callbacks.mpr (by rw [hprogram]; rfl)
      exact Or.inr ⟨hasync, hprogram, complete_returns hcallbacks (hstuck (.complete 0))⟩

end Viosnd.Wdf
