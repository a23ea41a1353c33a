import Etl.Store.StateStore

/-!
# Choosing the schema to decode with

Which schema version a RELATION message is read against, and the decoder made of it.
-/

namespace Etl

inductive RelationSchemaSelection where
  | exact (snapshotId : SnapshotId)
  | atOrBefore (snapshotId : SnapshotId)
deriving DecidableEq

def selectRelationSchema (bootstrapSnapshotId : SnapshotId)
    (decodingState : Option TableDecodingState) (syncDoneLsn : Option PgLsn) :
    RelationSchemaSelection :=
  match decodingState with
  | some state => .exact state.snapshotId
  | none =>
    .atOrBefore (match syncDoneLsn with
      | some lsn => max bootstrapSnapshotId (SnapshotId.atLsn lsn)
      | none => bootstrapSnapshotId)

/-- The boundary of a `SyncDone` that the transaction has reached. -/
def applicableSyncDone (state : Option TableState) (remoteFinalLsn : PgLsn) : Option PgLsn :=
  match state with
  | some (.syncDone lsn _) => if lsn ≤ remoteFinalLsn then some lsn else none
  | _ => none

def checkTableSchemaForRelation (selection : RelationSchemaSelection) :
    Option TableSchema → Except EtlError TableSchema
  | none => .error ⟨.missingTableSchema, "Table schema not found"⟩
  | some tableSchema =>
    match selection with
    | .exact snapshotId =>
      if tableSchema.snapshotId ≠ snapshotId then
        .error ⟨.invalidState, "Table schema snapshot mismatch"⟩
      else .ok tableSchema
    | .atOrBefore upperBound =>
      if upperBound < tableSchema.snapshotId then
        .error ⟨.invalidState, "Bounded table schema lookup exceeded its upper bound"⟩
      else .ok tableSchema

def RelationSchemaSelection.requested : RelationSchemaSelection → SnapshotId
  | .exact snapshotId => snapshotId
  | .atOrBefore snapshotId => snapshotId

def getTableSchemaForRelation (store : Store) (tableId : TableId)
    (selection : RelationSchemaSelection) : Except EtlError TableSchema :=
  checkTableSchemaForRelation selection (store.getTableSchema tableId selection.requested)

def relationDecoder (tableSchema : TableSchema) (replicatedColumns identityColumns : List String) :
    Except EtlError ReplicatedTableSchema :=
  match ReplicationMask.tryBuild tableSchema replicatedColumns,
      IdentityMask.tryBuild tableSchema identityColumns with
  | some replicationMask, some identityMask =>
    .ok (.fromMasks tableSchema replicationMask identityMask)
  | _, _ =>
    .error ⟨.corruptedTableSchema,
      "Replication stream contains columns missing from the stored table schema"⟩

def RelationBody.decoder (relation : RelationBody) (store : Store)
    (selection : RelationSchemaSelection) : Except EtlError ReplicatedTableSchema := do
  let tableSchema ← getTableSchemaForRelation store relation.relId selection
  relationDecoder tableSchema (parseReplicatedColumnNames relation)
    (parseReplicaIdentityColumnNames relation)

def syncDoneDecoder (store : Store) (tableId : TableId) (state : Option TableState)
    (currentLsn : PgLsn) : Except EtlError (Option ReplicatedTableSchema) :=
  match state with
  | some (.syncDone syncDoneLsn (some stored)) =>
    if currentLsn < syncDoneLsn then .ok none
    else do
      let tableSchema ← getTableSchemaForRelation store tableId (.exact stored.snapshotId)
      return some (← stored.materialize tableSchema syncDoneLsn)
  | _ => .ok none

def pendingDecoder (store : Store) (tableId : TableId) (snapshotId : SnapshotId)
    (masks : PreviousRelationMasks) : Except EtlError ReplicatedTableSchema := do
  let tableSchema ← getTableSchemaForRelation store tableId (.exact snapshotId)
  return masks.materialize tableSchema

end Etl
