import Etl.Event

/-!
# Table states and decoding states

The lifecycle state of a table, and what one connection keeps to decode its rows.
-/

namespace Etl

inductive WorkerType where
  | apply
  | tableSync (tableId : TableId)
deriving DecidableEq

lemma WorkerType.ne_apply {worker : WorkerType} {tableId : TableId}
    (h : worker = .tableSync tableId) : worker ≠ .apply := by
  rw [h]
  exact nofun

lemma WorkerType.ne_tableSync {worker : WorkerType} (h : worker = .apply) (tableId : TableId) :
    worker ≠ .tableSync tableId := by
  rw [h]
  exact nofun

/-! ## Lifecycle -/

/-- The compact decoder stored with `SyncDone`. -/
structure StoredTableDecodingState where
  snapshotId : SnapshotId
  replicationMask : List UInt8
  identityMask : List UInt8
deriving DecidableEq

namespace StoredTableDecodingState

def fromReplicatedTableSchema (schema : ReplicatedTableSchema) : StoredTableDecodingState :=
  ⟨schema.tableSchema.snapshotId, schema.replicationMask.bytes, schema.identityMask.bytes⟩

/-- Rebuild the decoder, after checking all the stored form could have wrong. -/
def materialize (stored : StoredTableDecodingState) (tableSchema : TableSchema)
    (syncDoneLsn : PgLsn) : Except EtlError ReplicatedTableSchema :=
  if SnapshotId.atLsn syncDoneLsn < stored.snapshotId then
    .error ⟨.invalidState, "Table-schema decoding snapshot is ahead of SyncDone"⟩
  else if stored.replicationMask.length ≠ tableSchema.columnSchemas.length ∨
      stored.identityMask.length ≠ tableSchema.columnSchemas.length then
    .error ⟨.invalidState, "Table-schema decoding mask width does not match its schema"⟩
  else if (stored.replicationMask ++ stored.identityMask).any (1 < ·) then
    .error ⟨.invalidState, "Table-schema decoding state contains a non-binary mask"⟩
  else if (stored.replicationMask.zip stored.identityMask).any fun p => p.2 = 1 ∧ p.1 = 0 then
    .error ⟨.invalidState,
      "Table-schema decoding identity mask is not a subset of its replication mask"⟩
  else
    .ok (.fromMasks tableSchema ⟨stored.replicationMask⟩ ⟨stored.identityMask⟩)

end StoredTableDecodingState

inductive TableRetryPolicy where
  | noRetry
  | manualRetry
  | timedRetry
deriving DecidableEq

inductive TableState where
  | init
  | dataSync
  | finishedCopy
  | syncWait (lsn : PgLsn)
  | catchup (lsn : PgLsn)
  | syncDone (lsn : PgLsn) (tableDecodingState : Option StoredTableDecodingState)
  | ready
  | errored (sourceErr : EtlError) (retryPolicy : TableRetryPolicy)
deriving DecidableEq

inductive TableStateType where
  | init
  | dataSync
  | finishedCopy
  | syncWait
  | catchup
  | syncDone
  | ready
  | errored
deriving DecidableEq

namespace TableState

def asType : TableState → TableStateType
  | .init => .init
  | .dataSync => .dataSync
  | .finishedCopy => .finishedCopy
  | .syncWait _ => .syncWait
  | .catchup _ => .catchup
  | .syncDone _ _ => .syncDone
  | .ready => .ready
  | .errored _ _ => .errored

def ofSyncDone (lsn : PgLsn) (schema : ReplicatedTableSchema) : TableState :=
  .syncDone lsn (some (.fromReplicatedTableSchema schema))

end TableState

namespace TableStateType

def shouldStore : TableStateType → Bool
  | .syncWait | .catchup => false
  | _ => true

def isSyncing : TableStateType → Bool
  | .ready | .errored => false
  | _ => true

end TableStateType

/-! ## Connection-local decoding state -/

structure PreviousRelationMasks where
  replicationMask : ReplicationMask
  identityMask : IdentityMask
deriving DecidableEq

namespace PreviousRelationMasks

def fromSchema (schema : ReplicatedTableSchema) : PreviousRelationMasks :=
  ⟨schema.replicationMask, schema.identityMask⟩

/-- Nothing checks that the old masks fit the new version. -/
def materialize (masks : PreviousRelationMasks) (tableSchema : TableSchema) :
    ReplicatedTableSchema :=
  .fromMasks tableSchema masks.replicationMask masks.identityMask

end PreviousRelationMasks

inductive TableDecodingState where
  /-- A DDL message was seen, its RELATION message was not. -/
  | pendingRelation (snapshotId : SnapshotId) (previous : Option PreviousRelationMasks)
  | withSchema (schema : ReplicatedTableSchema)
deriving DecidableEq

namespace TableDecodingState

def ofDdl (snapshotId : SnapshotId) : Option TableDecodingState → TableDecodingState
  | some (.pendingRelation _ previous) => .pendingRelation snapshotId previous
  | some (.withSchema schema) => .pendingRelation snapshotId (some (.fromSchema schema))
  | none => .pendingRelation snapshotId none

def snapshotId : TableDecodingState → SnapshotId
  | .pendingRelation snapshotId _ => snapshotId
  | .withSchema schema => schema.tableSchema.snapshotId

@[simp] lemma snapshotId_ofDdl (snapshotId : SnapshotId) (previous : Option TableDecodingState) :
    (ofDdl snapshotId previous).snapshotId = snapshotId := by
  rcases previous with _ | (_ | _) <;> rfl

end TableDecodingState

def hasMaterializedDecodingState : Option TableDecodingState → Bool
  | some (.withSchema _) => true
  | _ => false

end Etl
