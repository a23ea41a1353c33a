import Mathlib
import Etl.Event
import Etl.Replication.LoopState
import Etl.TableCopy.Planning

/-!
# Copying a table

The workers share a queue of ranges, read them in batches and write one batch at a time. A
`CopyAction` is one step of one task; shutdown, errors and panics may come wherever the code can
observe them.
-/

namespace Etl

/-! ## Progress -/

structure TableCopyProgress where
  totalRows : Nat
  barrierRequired : Bool
deriving DecidableEq

namespace TableCopyProgress

def default : TableCopyProgress := ⟨0, false⟩

def recordBatch (progress : TableCopyProgress) (rowCount : Nat) (status : DestinationWriteStatus) :
    TableCopyProgress :=
  ⟨progress.totalRows + rowCount, progress.barrierRequired || status = .accepted⟩

def merge (progress other : TableCopyProgress) : TableCopyProgress :=
  ⟨progress.totalRows + other.totalRows, progress.barrierRequired || other.barrierRequired⟩

end TableCopyProgress

structure TableCopyBatchId where
  attemptId : Nat
  sequence : Nat
deriving DecidableEq

inductive TableCopyResult where
  | completed (totalRows : Nat) (barrierRequired : Bool)
  | shutdown
deriving DecidableEq

/-! ## Workers -/

inductive CopyWorker where
  | unspawned
  | connecting
  | looking (progress : TableCopyProgress)
  | claimed (partition : TableCopyPartition) (progress : TableCopyProgress)
  | streaming (partition : TableCopyPartition) (remaining : List TableRow)
      (streamed progress : TableCopyProgress)
  /-- Waits for the acknowledgement of a batch. -/
  | writing (partition : TableCopyPartition) (batchId : TableCopyBatchId) (rows : List TableRow)
      (remaining : List TableRow) (streamed progress : TableCopyProgress)
  | committing (progress : TableCopyProgress)
  | completed (progress : TableCopyProgress)
  | shutdown
  | failed (error : EtlError)
  | joined
deriving DecidableEq

inductive WorkerAction where
  | beginTransaction
  | claim
  | openStream
  | takeBatch (size : Nat)
  | acknowledge (status : DestinationWriteStatus)
  | endOfStream
  | commit
  | observeShutdown
  | fail (error : EtlError)
deriving DecidableEq

inductive CopyAction (n : Nat) where
  | spawn (w : Fin n)
  | spawnFails (error : EtlError)
  | worker (w : Fin n) (action : WorkerAction)
  | join (w : Fin n)
  | finish
  | slotInvalidated
deriving DecidableEq

/-- The last three fields are a record of what happened. -/
structure TableCopy (n : Nat) where
  queue : List TableCopyPartition
  nextSequence : Nat
  workers : Fin n → CopyWorker
  progress : TableCopyProgress
  result : Option (Except EtlError TableCopyResult)
  sent : List (TableCopyBatchId × List TableRow)
  acknowledged : List (TableCopyBatchId × DestinationWriteStatus)
  streamed : List (Fin n × TableCopyPartition)

namespace TableCopy

variable {n : Nat}

def setWorker (copy : TableCopy n) (w : Fin n) (worker : CopyWorker) : TableCopy n :=
  { copy with workers := Function.update copy.workers w worker }

def start (n : Nat) (plan : List TableCopyPartition) : TableCopy n where
  queue := plan
  nextSequence := 0
  workers := fun _ => .unspawned
  progress := .default
  result := if plan.isEmpty then some (.ok (.completed 0 false)) else none
  sent := []
  acknowledged := []
  streamed := []

def sendBatch (attemptId : Nat) (copy : TableCopy n) (w : Fin n) (partition : TableCopyPartition)
    (rows remaining : List TableRow) (streamed progress : TableCopyProgress) : TableCopy n :=
  if copy.nextSequence + 1 < 2 ^ 64 then
    let batchId : TableCopyBatchId := ⟨attemptId, copy.nextSequence⟩
    { copy.setWorker w (.writing partition batchId rows remaining streamed progress) with
      nextSequence := copy.nextSequence + 1
      sent := copy.sent ++ [(batchId, rows)] }
  else copy.setWorker w (.failed ⟨.invalidState, "Table copy batch sequence overflowed"⟩)

def workerStep (rowsOf : TableCopyPartition → List TableRow) (attemptId : Nat) (copy : TableCopy n)
    (w : Fin n) : WorkerAction → Option (TableCopy n)
  | .beginTransaction =>
    match copy.workers w with
    | .connecting => some (copy.setWorker w (.looking .default))
    | _ => none
  | .claim =>
    match copy.workers w, copy.queue with
    | .looking progress, partition :: queue =>
      some { copy.setWorker w (.claimed partition progress) with queue := queue }
    | .looking progress, [] => some (copy.setWorker w (.committing progress))
    | _, _ => none
  | .openStream =>
    match copy.workers w with
    | .claimed partition progress =>
      some (copy.setWorker w (.streaming partition (rowsOf partition) .default progress))
    | _ => none
  | .takeBatch size =>
    match copy.workers w with
    | .streaming partition remaining streamed progress =>
      -- a batch is never empty
      if 0 < size ∧ size ≤ remaining.length then
        some (copy.sendBatch attemptId w partition (remaining.take size) (remaining.drop size)
          streamed progress)
      else none
    | _ => none
  | .acknowledge status =>
    match copy.workers w with
    | .writing partition batchId rows remaining streamed progress =>
      some
        { copy.setWorker w (.streaming partition remaining
            (streamed.recordBatch rows.length status) progress) with
          acknowledged := copy.acknowledged ++ [(batchId, status)] }
    | _ => none
  | .endOfStream =>
    match copy.workers w with
    | .streaming partition [] streamed progress =>
      some
        { copy.setWorker w (.looking (progress.merge streamed)) with
          streamed := copy.streamed ++ [(w, partition)] }
    | _ => none
  | .commit =>
    match copy.workers w with
    | .committing progress => some (copy.setWorker w (.completed progress))
    | _ => none
  | .observeShutdown =>
    match copy.workers w with
    | .looking _ | .claimed .. | .streaming .. | .writing .. => some (copy.setWorker w .shutdown)
    | _ => none
  | .fail error =>
    match copy.workers w with
    | .connecting | .looking _ | .claimed .. | .streaming .. | .writing .. | .committing _ =>
      some (copy.setWorker w (.failed error))
    | _ => none

def step (rowsOf : TableCopyPartition → List TableRow) (attemptId : Nat) (copy : TableCopy n)
    (action : CopyAction n) : Option (TableCopy n) :=
  if copy.result.isSome then none
  else
    match action with
    | .spawn w =>
      -- the workers are started in order
      if copy.workers w = .unspawned ∧ ∀ v < w, copy.workers v ≠ .unspawned then
        some (copy.setWorker w .connecting)
      else none
    | .spawnFails error =>
      if ∃ w, copy.workers w = .unspawned then some { copy with result := some (.error error) }
      else none
    | .worker w action => copy.workerStep rowsOf attemptId w action
    | .join w =>
      if ∀ v, copy.workers v ≠ .unspawned then
        match copy.workers w with
        | .completed progress =>
          some { copy.setWorker w .joined with progress := copy.progress.merge progress }
        | .shutdown => some { copy with result := some (.ok .shutdown) }
        | .failed error => some { copy with result := some (.error error) }
        | _ => none
      else none
    | .finish =>
      if ∀ v, copy.workers v = .joined then
        some
          { copy with
            result := some (.ok (.completed copy.progress.totalRows copy.progress.barrierRequired)) }
      else none
    | .slotInvalidated =>
      if ∀ v, copy.workers v ≠ .unspawned then
        some
          { copy with
            result := some (.error
              ⟨.replicationSlotInvalidated, "Replication slot has been invalidated"⟩) }
      else none

inductive Reachable (rowsOf : TableCopyPartition → List TableRow) (attemptId : Nat)
    (plan : List TableCopyPartition) : TableCopy n → Prop
  | start : Reachable rowsOf attemptId plan (start n plan)
  | step {copy copy' : TableCopy n} {action : CopyAction n} :
      Reachable rowsOf attemptId plan copy → copy.step rowsOf attemptId action = some copy' →
        Reachable rowsOf attemptId plan copy'

def run (rowsOf : TableCopyPartition → List TableRow) (attemptId : Nat) (copy : TableCopy n)
    (actions : List (CopyAction n)) : Option (TableCopy n) :=
  actions.foldlM (step rowsOf attemptId) copy

lemma Reachable.run {rowsOf : TableCopyPartition → List TableRow} {attemptId : Nat}
    {plan : List TableCopyPartition} {copy copy' : TableCopy n} {actions : List (CopyAction n)}
    (h : Reachable rowsOf attemptId plan copy)
    (hrun : copy.run rowsOf attemptId actions = some copy') :
    Reachable rowsOf attemptId plan copy' := by
  induction actions generalizing copy with
  | nil =>
    cases hrun
    exact h
  | cons action actions ih =>
    obtain ⟨next, hstep, hrest⟩ := Option.bind_eq_some_iff.1 hrun
    exact ih (h.step hstep) hrest

end TableCopy

def copyWorkerCount (maxCopyConnections : UInt16) (plan : List TableCopyPartition) : Nat :=
  min maxCopyConnections.toNat plan.length

end Etl
