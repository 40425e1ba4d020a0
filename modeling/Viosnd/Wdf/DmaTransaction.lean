import Viosnd.Lib.Runs
import Viosnd.Lib.SharedObject

/-!
# The lifetime of a DMA transaction

`VirtIOWdfDeviceDmaAsync`, `OnDmaTransactionProgramDma` and `VirtIOWdfDeviceDmaTxComplete` or
`VirtIOWdfDeviceDmaRxComplete` share a transaction object. The three run beside each other and take
turns between any two accesses to the object; a completion from inside the client's callback is one
that runs while the callback does.
-/

namespace Viosnd.Wdf

open SharedObject StepRun

/-- Where `VirtIOWdfDeviceDmaAsync` is: what it does next. -/
inductive AsyncAt where
  /-- `WdfDmaTransactionCreate`. -/
  | creating
  | fillingContext
  | allocatingBuffer
  | copyingData
  | allocatingMdl
  | buildingMdl
  /-- `WdfDmaTransactionInitialize`, or the same using a request. -/
  | initializing
  /-- It calls `WdfDmaTransactionExecute`. -/
  | executing
  /-- `WdfDmaTransactionExecute` is going to succeed, or to fail. -/
  | inExecute (succeeds : Bool)
  /-- `WdfObjectDelete` on an error. -/
  | deletingFailed
  | returned (result : Bool)
  deriving DecidableEq

/-- Where `OnDmaTransactionProgramDma` is. -/
inductive ProgramAt where
  | waiting
  /-- `RefTransaction`. -/
  | referencing
  | settingParameters
  | callingBack
  | inCallback
  /-- `DerefTransaction`. -/
  | dropping
  /-- `WdfObjectDelete` in `DerefTransaction`. -/
  | deleting
  | returned
  deriving DecidableEq

inductive CompleteAt where
  | waiting
  /-- `WdfDmaTransactionDmaCompletedFinal`. -/
  | finalizing
  | copyingBack
  | dropping
  | deleting
  | returned
  deriving DecidableEq

/-- The transaction object with its context, and the three routines. -/
structure Transaction where
  /-- `WdfDmaDirectionWriteToDevice`. -/
  toDevice : Bool
  /-- `params->req` is not `NULL`. -/
  req : Bool
  async : AsyncAt
  program : ProgramAt
  complete : CompleteAt
  created : Bool
  refCount : ℤ
  /-- `ctx->buffer` and `ctx->mdl` are not `NULL`. -/
  buffer : Bool
  mdl : Bool
  /-- `ctx->parameters.transaction` is the object. -/
  transaction : Bool
  /-- How often the client's callback was called. -/
  callbacks : ℕ
  deletions : ℕ
  bufferFrees : ℕ
  mdlFrees : ℕ
  /-- The object, its context, the buffer or the MDL was used when it was deleted. -/
  usedDeleted : Bool
  deriving DecidableEq

/-- A call of `VirtIOWdfDeviceDmaTxAsync` or `VirtIOWdfDeviceDmaRxAsync`. -/
def Transaction.start (toDevice req : Bool) : Transaction where
  toDevice := toDevice
  req := req
  async := .creating
  program := .waiting
  complete := .waiting
  created := false
  refCount := 0
  buffer := false
  mdl := false
  transaction := false
  callbacks := 0
  deletions := 0
  bufferFrees := 0
  mdlFrees := 0
  usedDeleted := false

def Transaction.touch (s : Transaction) : Transaction :=
  { s with usedDeleted := s.usedDeleted || decide (s.deletions ≠ 0) }

/-- `WdfObjectDelete`, with `OnDmaTransactionDestroy`. -/
def Transaction.delete (s : Transaction) : Transaction :=
  { s.touch with
    deletions := s.deletions + 1
    bufferFrees := s.bufferFrees + s.buffer.toNat
    mdlFrees := s.mdlFrees + s.mdl.toNat }

/-- `WdfObjectDelete(ctx->parameters.transaction)`. -/
def Transaction.deleteParameter (s : Transaction) : Transaction :=
  if s.touch.transaction then s.delete else s.touch

/-! ## The routines -/

/-- `VirtIOWdfDeviceDmaAsync`; `ok` is the outcome of what it asks for. -/
def virtIOWdfDeviceDmaAsync (ok : Bool) (s : Transaction) : AsyncAt → Transaction
  | .creating =>
      if ok then
        { s with
          created := true
          async := .fillingContext }
      else { s with async := .returned false }
  | .fillingContext =>
      { s.touch with
        refCount := 1
        buffer := false
        mdl := false
        transaction := false
        async := if s.req then .initializing else .allocatingBuffer }
  | .allocatingBuffer =>
      { s.touch with
        buffer := ok
        async :=
          if ok then if s.toDevice then .copyingData else .allocatingMdl else .deletingFailed }
  | .copyingData => { s.touch with async := .allocatingMdl }
  | .allocatingMdl =>
      { s.touch with
        mdl := ok
        async := if ok then .buildingMdl else .deletingFailed }
  | .buildingMdl => { s.touch with async := .initializing }
  | .initializing => { s.touch with async := if ok then .executing else .deletingFailed }
  | .executing => { s.touch with async := .inExecute ok }
  | .inExecute succeeds =>
      { s with async := if succeeds then .returned true else .deletingFailed }
  | .deletingFailed => { s.delete with async := .returned false }
  | .returned _ => s

/-- `WdfDmaTransactionExecute` calls the routine if it succeeds, before or after it returns. -/
def AsyncAt.programs : AsyncAt → Bool
  | .inExecute true | .returned true => true
  | _ => false

/-- `OnDmaTransactionProgramDma`; `ok` says that the callback returns now. Until then it uses its
parameters. -/
def onDmaTransactionProgramDma (ok : Bool) (s : Transaction) : ProgramAt → Transaction
  | .waiting => if s.async.programs then { s with program := .referencing } else s
  | .referencing =>
      { s.touch with
        refCount := s.refCount + 1
        program := .settingParameters }
  | .settingParameters =>
      { s.touch with
        transaction := true
        program := .callingBack }
  | .callingBack =>
      { s.touch with
        callbacks := s.callbacks + 1
        program := .inCallback }
  | .inCallback => if ok then { s with program := .dropping } else s.touch
  | .dropping =>
      { s.touch with
        refCount := s.refCount - 1
        program := if s.refCount - 1 = 0 then .deleting else .returned }
  | .deleting => { s.deleteParameter with program := .returned }
  | .returned => s

/-- `VirtIOWdfDeviceDmaTxComplete` or `VirtIOWdfDeviceDmaRxComplete`, which the client calls once,
when its callback has got the transaction. -/
def virtIOWdfDeviceDmaComplete (length : ℕ) (s : Transaction) : CompleteAt → Transaction
  | .waiting => if s.callbacks ≠ 0 then { s with complete := .finalizing } else s
  | .finalizing =>
      { s.touch with complete := if s.toDevice then .dropping else .copyingBack }
  | .copyingBack => { (if length ≠ 0 then s.touch else s) with complete := .dropping }
  | .dropping =>
      { s.touch with
        refCount := s.refCount - 1
        complete := if s.refCount - 1 = 0 then .deleting else .returned }
  | .deleting => { s.deleteParameter with complete := .returned }
  | .returned => s

inductive TransactionInput where
  | async (ok : Bool)
  | program (ok : Bool)
  | complete (length : ℕ)

def Transaction.step (s : Transaction) : TransactionInput → Transaction
  | .async ok => virtIOWdfDeviceDmaAsync ok s s.async
  | .program ok => onDmaTransactionProgramDma ok s s.program
  | .complete length => virtIOWdfDeviceDmaComplete length s s.complete

/-! ## The lifetime -/

/-- Everything that happens to the transaction has happened. -/
def Transaction.Over (s : Transaction) : Prop :=
  s.async = .returned false ∨
    s.async = .returned true ∧ s.program = .returned ∧ s.complete = .returned

/-- A transaction that was created is deleted once, with the buffer and the MDL that were allocated
for it, and never used afterwards; a call that returns `FALSE` never calls back. -/
structure LifetimeRight (s : Transaction) : Prop where
  once : s.deletions ≤ 1
  deleted : s.Over → s.deletions = s.created.toNat
  memory : s.bufferFrees = s.buffer.toNat * s.deletions ∧ s.mdlFrees = s.mdl.toNat * s.deletions
  unused : s.usedDeleted = false
  silent : s.async = .returned false → s.callbacks = 0

end Viosnd.Wdf
