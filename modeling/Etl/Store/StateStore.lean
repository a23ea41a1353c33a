import Etl.Replication.TableState
import Etl.Store.SchemaSnapshots

/-!
# The pipeline store

The behaviour of the in-memory store. A call takes effect as a whole or fails and changes nothing.
-/

namespace Etl

inductive DestinationTableSchema where
  | creating (snapshotId : SnapshotId) (replicationMask : ReplicationMask)
  | applying (snapshotId : SnapshotId) (replicationMask : ReplicationMask)
      (previousSnapshotId : SnapshotId) (previousReplicationMask : ReplicationMask)
  | applied (snapshotId : SnapshotId) (replicationMask : ReplicationMask)
deriving DecidableEq

structure DestinationTableMetadata where
  tableId : String
  tableSchema : DestinationTableSchema
deriving DecidableEq

namespace DestinationTableMetadata

def snapshotId (metadata : DestinationTableMetadata) : SnapshotId :=
  match metadata.tableSchema with
  | .creating snapshotId _ => snapshotId
  | .applying snapshotId _ _ _ => snapshotId
  | .applied snapshotId _ => snapshotId

/-- While a change is being applied, both ends of it may be needed. -/
def retentionSnapshotId (metadata : DestinationTableMetadata) : SnapshotId :=
  match metadata.tableSchema with
  | .applying snapshotId _ previousSnapshotId _ => min previousSnapshotId snapshotId
  | _ => metadata.snapshotId

end DestinationTableMetadata

structure Store where
  tableStates : OrderedMap TableId TableState
  /-- The latest first. -/
  tableStateHistory : TableId → List TableState
  tableSchemas : TableSchemaSnapshots
  destinationTablesMetadata : TableId → Option DestinationTableMetadata
  replicationCheckpoints : WorkerType → Option PgLsn

namespace Store

variable (store : Store)

def getTableState (tableId : TableId) : Option TableState := store.tableStates.get? tableId

def updateTableState (tableId : TableId) (state : TableState) : Store :=
  { store with
    tableStates := store.tableStates.insert tableId state
    tableStateHistory :=
      match store.tableStates.get? tableId with
      | some current =>
        Function.update store.tableStateHistory tableId (current :: store.tableStateHistory tableId)
      | none => store.tableStateHistory }

def rollbackTableState (tableId : TableId) : Except EtlError (TableState × Store) :=
  match store.tableStateHistory tableId with
  | [] => .error ⟨.stateRollbackError, "No previous state available to roll back to"⟩
  | previous :: rest =>
    .ok (previous,
      { store with
        tableStates := store.tableStates.insert tableId previous
        tableStateHistory := Function.update store.tableStateHistory tableId rest })

/-- A checkpoint never moves back. -/
def upsertReplicationCheckpoint (worker : WorkerType) (lsn : PgLsn) : Store :=
  { store with
    replicationCheckpoints := Function.update store.replicationCheckpoints worker
      (match store.replicationCheckpoints worker with
      | some persisted => some (if persisted < lsn then lsn else persisted)
      | none => some lsn) }

def deleteReplicationCheckpoint (worker : WorkerType) : Store :=
  { store with
    replicationCheckpoints := Function.update store.replicationCheckpoints worker none }

def storeTableSchema (tableSchema : TableSchema) : Store :=
  { store with tableSchemas := store.tableSchemas.insert tableSchema }

def getTableSchema (tableId : TableId) (snapshotId : SnapshotId) : Option TableSchema :=
  store.tableSchemas.getAtOrBefore tableId snapshotId

def pruneTableSchemas (retentionSnapshotIds : OrderedMap TableId SnapshotId) : Store :=
  { store with tableSchemas := store.tableSchemas.prune retentionSnapshotIds }

def prepareForCopy (tableId : TableId) : Store :=
  { store with
    tableSchemas := store.tableSchemas.removeTable tableId
    destinationTablesMetadata := Function.update store.destinationTablesMetadata tableId none
    replicationCheckpoints :=
      Function.update store.replicationCheckpoints (.tableSync tableId) none }

def resetForResync : Store :=
  { store with
    tableStates := store.tableStates.mapValues fun _ _ => .init
    tableStateHistory := fun tableId =>
      match store.tableStates.get? tableId with
      | some current => current :: store.tableStateHistory tableId
      | none => store.tableStateHistory tableId
    replicationCheckpoints := Function.update store.replicationCheckpoints .apply none }

def getSyncingTables : List (TableId × TableState) :=
  store.tableStates.entries.filter fun entry => entry.2.asType.isSyncing

/-! ## What the operations change -/

variable {store}

@[simp] lemma getTableState_updateTableState (tableId t : TableId) (state : TableState) :
    (store.updateTableState tableId state).getTableState t =
      if t = tableId then some state else store.getTableState t := by
  simp [getTableState, updateTableState, OrderedMap.get?_insert]

lemma replicationCheckpoints_upsert (worker w : WorkerType) (lsn : PgLsn) :
    (store.upsertReplicationCheckpoint worker lsn).replicationCheckpoints w =
      if w = worker then
        match store.replicationCheckpoints worker with
        | some persisted => some (max persisted lsn)
        | none => some lsn
      else store.replicationCheckpoints w := by
  by_cases h : w = worker
  · subst h
    cases hp : store.replicationCheckpoints w with
    | none => simp [upsertReplicationCheckpoint, hp]
    | some persisted =>
      simp only [upsertReplicationCheckpoint, hp, Function.update_self, if_true, Option.some.injEq]
      split <;> order
  · simp [upsertReplicationCheckpoint, h]

lemma replicationCheckpoints_rollback {tableId : TableId} {previous : TableState} {store' : Store}
    (h : store.rollbackTableState tableId = .ok (previous, store')) :
    store'.replicationCheckpoints = store.replicationCheckpoints := by
  unfold rollbackTableState at h
  split at h <;> cases h
  rfl

lemma getTableState_of_mem_getSyncingTables {tableId : TableId} {state : TableState}
    (h : (tableId, state) ∈ store.getSyncingTables) :
    store.getTableState tableId = some state ∧ state.asType.isSyncing := by
  simp only [getSyncingTables, List.mem_filter] at h
  exact ⟨(store.tableStates.mem_entries_iff tableId state).1 h.1, h.2⟩

end Store

end Etl
