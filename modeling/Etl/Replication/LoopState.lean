import Etl.Replication.TableState

/-!
# The state of an apply loop

Clock readings are left out: a deadline is armed or not, and an armed one may expire at any moment.
-/

namespace Etl

inductive ApplyLoopResult where
  | paused
  | completed
deriving DecidableEq

inductive ExitIntent where
  | pause
  | complete
deriving DecidableEq

namespace ExitIntent

def merge : ExitIntent → ExitIntent → ExitIntent
  | .complete, _ => .complete
  | _, .complete => .complete
  | .pause, .pause => .pause

def toResult : ExitIntent → ApplyLoopResult
  | .pause => .paused
  | .complete => .completed

end ExitIntent

inductive WriteEventsDurability where
  | mayDefer
  | requireDurable
deriving DecidableEq

inductive DestinationWriteStatus where
  | accepted
  | durable
deriving DecidableEq

structure WriteMetadata where
  commitEndLsn : Option PgLsn
  durability : WriteEventsDurability
  eventCount : Nat
  relationTableIds : List TableId
deriving DecidableEq

structure ReplicationProgress where
  lastReceivedLsn : PgLsn
  lastFlushLsn : PgLsn
deriving DecidableEq

structure EventBatch where
  events : List Event
  relationTableIds : List TableId
deriving DecidableEq

namespace EventBatch

def empty : EventBatch := ⟨[], []⟩

def push (batch : EventBatch) (event : Event) : EventBatch where
  events := batch.events ++ [event]
  relationTableIds :=
    match event with
    | .relation relation => relation.replicatedTableSchema.id :: batch.relationTableIds
    | _ => batch.relationTableIds

@[simp] lemma events_push (batch : EventBatch) (event : Event) :
    (batch.push event).events = batch.events ++ [event] := rfl

@[simp] lemma events_empty : empty.events = [] := rfl

end EventBatch

structure ApplyLoopState where
  /-- The latest commit that is not dispatched, or accepted only. -/
  lastCommitEndLsn : Option PgLsn
  /-- Whether an accepted write still waits for a durable result. -/
  pendingDurabilityInterval : Bool
  pendingRelationTableIds : List TableId
  remoteFinalLsn : Option PgLsn
  progress : ReplicationProgress
  eventBatch : EventBatch
  txOrdinal : Nat
  drainingForShutdown : Bool
  flushDeadline : Bool
  pendingFlushResult : Option WriteMetadata
  exitIntent : Option ExitIntent
  processingPaused : Bool
  bootstrapSnapshotId : SnapshotId
deriving DecidableEq

namespace ApplyLoopState

def new (startLsn : PgLsn) : ApplyLoopState where
  lastCommitEndLsn := none
  pendingDurabilityInterval := false
  pendingRelationTableIds := []
  remoteFinalLsn := none
  progress := ⟨startLsn, startLsn⟩
  eventBatch := .empty
  txOrdinal := 0
  drainingForShutdown := false
  flushDeadline := false
  pendingFlushResult := none
  exitIntent := none
  processingPaused := false
  bootstrapSnapshotId := SnapshotId.atLsn startLsn

variable (st : ApplyLoopState)

def setFlushDeadlineIfNeeded : ApplyLoopState := { st with flushDeadline := true }

def resetFlushDeadline : ApplyLoopState := { st with flushDeadline := false }

def laterCommitEnd : Option PgLsn → Option PgLsn → Option PgLsn
  | none, some endLsn => some endLsn
  | some old, some endLsn => if old < endLsn then some endLsn else some old
  | old, none => old

def updateLastCommitEndLsn (endLsn : Option PgLsn) : ApplyLoopState :=
  { st with lastCommitEndLsn := laterCommitEnd st.lastCommitEndLsn endLsn }

def updateLastReceivedLsn (lsn : PgLsn) : ApplyLoopState :=
  { st with progress := { st.progress with lastReceivedLsn := max st.progress.lastReceivedLsn lsn } }

def updateLastFlushLsn (lsn : PgLsn) : ApplyLoopState :=
  { st with progress := { st.progress with lastFlushLsn := max st.progress.lastFlushLsn lsn } }

def handlingTransaction : Bool := st.remoteFinalLsn.isSome

def hasPendingBatch : Bool := !st.eventBatch.events.isEmpty

def hasPendingFlushResult : Bool := st.pendingFlushResult.isSome

def hasUnresolvedBatchWork : Bool := st.hasPendingBatch || st.hasPendingFlushResult

def isQuiescent : Bool :=
  !st.handlingTransaction && !st.hasUnresolvedBatchWork && st.lastCommitEndLsn.isNone

def checkpointLsn : PgLsn :=
  if st.isQuiescent then st.progress.lastReceivedLsn else st.progress.lastFlushLsn

def resetTxOrdinal : ApplyLoopState := { st with txOrdinal := 0 }

/-- The ordinal stops growing at the largest 64-bit value. -/
def nextTxOrdinal : Nat × ApplyLoopState :=
  (st.txOrdinal,
    { st with txOrdinal := if st.txOrdinal + 1 < 2 ^ 64 then st.txOrdinal + 1 else st.txOrdinal })

def recordExitIntent (exitIntent : Option ExitIntent) : ApplyLoopState :=
  match exitIntent with
  | none => st
  | some intent =>
    { st with exitIntent :=
        match st.exitIntent with
        | some current => some (current.merge intent)
        | none => some intent }

def canProcessMessages : Bool := st.exitIntent.isNone && !st.processingPaused

def canWaitForDeadline : Bool :=
  !st.processingPaused &&
    (st.hasPendingBatch || (st.pendingDurabilityInterval && !st.hasPendingFlushResult))

def pauseProcessing : ApplyLoopState := { st with processingPaused := true }

/-- Whether processing was paused, and the state without the write in flight. -/
def resumeProcessing : Bool × ApplyLoopState :=
  (st.processingPaused, { st with processingPaused := false, pendingFlushResult := none })

def exitResult : Option ApplyLoopResult := st.exitIntent.map ExitIntent.toResult

def finishShutdown : ApplyLoopResult := st.exitResult.getD .paused

def tryFinishActiveIteration : Option ApplyLoopResult :=
  if st.drainingForShutdown || st.hasUnresolvedBatchWork then none else st.exitResult

def writeMetadata (batch : EventBatch) : WriteMetadata where
  commitEndLsn := st.lastCommitEndLsn
  durability :=
    if batch.events.length = 0 ∨ st.exitIntent = some .complete then .requireDurable else .mayDefer
  eventCount := batch.events.length
  relationTableIds := batch.relationTableIds

/-- A queued batch waits for the write in flight, a batch has a deadline, and so has an accepted
write that no write in flight will settle. -/
structure Tended : Prop where
  paused : st.processingPaused → st.hasPendingFlushResult ∧ st.hasPendingBatch
  batch : st.hasPendingBatch → st.flushDeadline
  interval : st.pendingDurabilityInterval → st.hasPendingFlushResult = false → st.flushDeadline

variable {st}

lemma isQuiescent_iff : st.isQuiescent ↔ st.remoteFinalLsn = none ∧ st.eventBatch.events = [] ∧
    st.pendingFlushResult = none ∧ st.lastCommitEndLsn = none := by
  simp [isQuiescent, handlingTransaction, hasUnresolvedBatchWork, hasPendingBatch,
    hasPendingFlushResult]
  tauto

lemma not_hasUnresolvedBatchWork_iff : st.hasUnresolvedBatchWork = false ↔
    st.eventBatch.events = [] ∧ st.pendingFlushResult = none := by
  simp [hasUnresolvedBatchWork, hasPendingBatch, hasPendingFlushResult]

lemma canProcessMessages_iff :
    st.canProcessMessages ↔ st.exitIntent = none ∧ st.processingPaused = false := by
  simp [canProcessMessages]

lemma tended_of_inFlight (hpaused : st.processingPaused = false)
    (hbatch : st.eventBatch.events = []) (hpending : st.pendingFlushResult ≠ none) : st.Tended where
  paused h := by simp [hpaused] at h
  batch h := by simp [hasPendingBatch, hbatch] at h
  interval _ h := by
    simp only [hasPendingFlushResult, Option.isSome_eq_false_iff, Option.isNone_iff_eq_none] at h
    exact absurd h hpending

lemma Tended.congr {st' : ApplyLoopState} (h : st.Tended)
    (hpaused : st'.processingPaused = st.processingPaused)
    (hdeadline : st'.flushDeadline = st.flushDeadline)
    (hbatch : st'.eventBatch = st.eventBatch)
    (hpending : st'.pendingFlushResult = st.pendingFlushResult)
    (hinterval : st'.pendingDurabilityInterval = st.pendingDurabilityInterval) : st'.Tended where
  paused := by
    simp only [hpaused, hasPendingFlushResult, hasPendingBatch, hpending, hbatch]
    exact h.paused
  batch := by
    simp only [hdeadline, hasPendingBatch, hbatch]
    exact h.batch
  interval := by
    simp only [hdeadline, hinterval, hasPendingFlushResult, hpending]
    exact h.interval

lemma laterCommitEnd_eq_none_iff {a b : Option PgLsn} :
    laterCommitEnd a b = none ↔ a = none ∧ b = none := by
  rcases a with _ | a <;> rcases b with _ | b <;> simp [laterCommitEnd]
  split <;> simp

lemma laterCommitEnd_eq_some {a b : Option PgLsn} {lsn : PgLsn}
    (h : laterCommitEnd a b = some lsn) :
    (a = some lsn ∨ b = some lsn) ∧ (∀ x ∈ a, x ≤ lsn) ∧ ∀ x ∈ b, x ≤ lsn := by
  rcases a with _ | a <;> rcases b with _ | b <;> simp only [laterCommitEnd] at h
  · cases h
  · cases h
    simp
  · cases h
    simp
  · split at h <;> cases h <;> simp_all [le_of_lt]

lemma recordExitIntent_eq_none {intent : Option ExitIntent} :
    (st.recordExitIntent intent).exitIntent = none ↔ st.exitIntent = none ∧ intent = none := by
  rcases intent with _ | intent <;> rcases h : st.exitIntent with _ | current <;>
    simp [recordExitIntent, h]

lemma recordExitIntent_eq_complete {intent : Option ExitIntent} :
    (st.recordExitIntent intent).exitIntent = some .complete ↔
      st.exitIntent = some .complete ∨ intent = some .complete := by
  rcases intent with _ | intent <;> rcases h : st.exitIntent with _ | current <;>
    simp [recordExitIntent, h]
  rcases current <;> rcases intent <;> simp [ExitIntent.merge]

end ApplyLoopState

end Etl
