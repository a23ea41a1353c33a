import Etl.Lib.Prog
import Etl.Postgres.Walsender
import Etl.Replication.LoopState
import Etl.Store.StateStore

/-!
# What the workers share and what each keeps

`World` is shared: the store, the pool of table-sync workers, the slots on the server and the
cleanup queues. `ApplyLoop` is what one worker keeps, with the server's side of its connection. Both
carry *history variables*, which no function of the program reads.
-/

namespace Etl

/-! ## Shared state -/

/-- A server that crashes may fall back to an earlier confirmed position, but never behind the
consistent point. -/
structure Slot where
  consistentPoint : PgLsn
  confirmed : PgLsn
  invalidated : Bool
deriving DecidableEq

structure PoolEntry where
  tableState : TableState
  running : Bool
  retryAttempts : Nat
deriving DecidableEq

structure World where
  store : Store
  pool : TableId → Option PoolEntry
  slots : WorkerType → Option Slot
  cleanup : WorkerType → List (TableId × SnapshotId)
  shutdown : Bool
  -- History variables from here on.
  /-- Commits that were begun to be buffered and not made durable, since the slot was created. -/
  owed : WorkerType → List PgLsn
  /-- What was owed on earlier slots. -/
  forgotten : WorkerType → List PgLsn
  /-- Commits with a change of the table that the apply worker received and did not apply, unless it
  will receive them again. -/
  passed : TableId → List PgLsn
  /-- Commits with a change that the apply worker made an event of, since the last copy. -/
  applied : TableId → List PgLsn
  /-- Where the slot of the last copy starts. -/
  copyPoint : TableId → PgLsn
  /-- Changes made durable by the table-sync worker since the last copy, with their commit. -/
  synced : TableId → List (PgLsn × LogicalReplicationMessage)
  copySchema : TableId → Option TableSchema
  /-- The last `SyncDone` since the last copy. -/
  handover : TableId → Option PgLsn
  /-- Made `Ready` since the last copy. -/
  promoted : TableId → Bool
  /-- The largest position of any `SyncDone`. -/
  horizon : PgLsn

namespace World

variable (w : World)

def confirmFlush (worker : WorkerType) (lsn : PgLsn) (delivered : Bool) : World :=
  { w with
    slots := Function.update w.slots worker
      ((w.slots worker).map fun slot =>
        if delivered then { slot with confirmed := max slot.confirmed lsn } else slot) }

def poolState (tableId : TableId) : Option TableState :=
  (w.pool tableId).map (·.tableState)

def isActive (tableId : TableId) : Bool :=
  match w.pool tableId with
  | some entry => entry.running
  | none => false

def setPoolState (tableId : TableId) (state : TableState) : World :=
  { w with
    pool := Function.update w.pool tableId
      ((w.pool tableId).map fun entry => { entry with tableState := state }) }

def setRetryAttempts (tableId : TableId) (attempts : Nat) : World :=
  { w with
    pool := Function.update w.pool tableId
      ((w.pool tableId).map fun entry => { entry with retryAttempts := attempts }) }

def finishWorker (tableId : TableId) : World :=
  { w with
    pool := Function.update w.pool tableId
      ((w.pool tableId).map fun entry => { entry with running := false }) }

/-- The lock of the state is held throughout, so the two writes are one step for others. -/
def setAndStore (tableId : TableId) (state : TableState) : World :=
  { w.setPoolState tableId state with
    store := if state.asType.shouldStore then w.store.updateTableState tableId state else w.store }

end World

/-! ## The state of a worker -/

inductive Phase where
  | idle
  | engaged
  /-- The apply worker's slot does not exist. -/
  | slotless
  | sighted
  /-- The apply worker's slot is valid. -/
  | probed
  /-- The apply worker's slot is invalidated. -/
  | invalid
  | cleared
  /-- The start of the apply loop is determined. -/
  | resolved
  /-- The table needs a copy. -/
  | starting
  /-- What an earlier copy left in the store has been removed. -/
  | prepared
  | copying
  | slotted
  | copied
  /-- The worker waits for its catchup target. -/
  | waiting
  /-- The worker has noted the error. -/
  | failed
deriving DecidableEq

def Phase.isCleared : Phase → Bool
  | .cleared | .prepared | .copying | .slotted | .copied | .waiting => true
  | _ => false

def Phase.isPlaced : Phase → Bool
  | .sighted | .probed | .resolved | .slotted | .copied | .waiting => true
  | _ => false

structure StatusStream where
  lastWriteLsn : Option PgLsn
  lastFlushLsn : Option PgLsn
deriving DecidableEq

def clampLsn (last : Option PgLsn) (lsn : PgLsn) : PgLsn :=
  match last with
  | some last => if lsn < last then last else lsn
  | none => lsn

structure Produced where
  /-- The commit position. -/
  tx : Option PgLsn
  source : LogicalReplicationMessage
  event : Event
  relation : Option RelationEvent
  /-- The changes of the transaction before the message. -/
  index : Nat
deriving DecidableEq

def Produced.events (p : Produced) : List Event :=
  (p.relation.map Event.relation).toList ++ [p.event]

structure ApplyLoop where
  workerType : WorkerType
  /-- History: what the worker does without a loop. -/
  phase : Phase
  state : ApplyLoopState
  tableDecodingStates : TableId → Option TableDecodingState
  stream : StatusStream
  retryAttempts : Nat
  /-- The loop has been started and has not returned. -/
  live : Bool
  /-- `none` if nothing is assumed about the server. -/
  session : Option Session
  startLsn : PgLsn
  -- History variables from here on.
  /-- The transaction being received, until its COMMIT is buffered. -/
  tx : Option PgLsn
  handling : Option LogicalReplicationMessage
  handled : List LogicalReplicationMessage
  /-- Those of the current transaction. -/
  txMessages : List LogicalReplicationMessage
  produced : List Produced
  /-- The event lists passed to the destination. -/
  writes : List (List Event × WriteEventsDurability)
  /-- How many writes have been answered. -/
  resolved : Nat
  /-- How many events have been passed on. -/
  dispatched : Nat
  /-- How many are covered by a durable result. -/
  covered : Nat
  /-- The commit end of the last durable result. -/
  settled : Option PgLsn
  sent : List PgLsn
  /-- The status updates of this connection, the latest first. -/
  reported : List (PgLsn × PgLsn)
  /-- The syncing tables last read. -/
  listed : List (TableId × TableState)
  /-- The table whose worker was last looked for, and whether it was running, until this is used. -/
  observed : Option (TableId × Bool)
  checkpointSeen : Option PgLsn
  /-- The state last read to find a decoder. -/
  decodingSeen : Option TableState
  /-- The table and the transaction last found to be owned. -/
  owned : Option (TableId × PgLsn)
  /-- The table and the checkpoint for which schemas may be cleaned up. -/
  retaining : Option (TableId × PgLsn)
  /-- The boundaries computed since the checkpoint was read. -/
  retained : List (TableId × SnapshotId)
  copySchema : Option TableSchema
  target : PgLsn
  /-- The table was found or made `SyncDone`. -/
  done : Bool
  /-- The table whose worker is waited for. -/
  waiting : Option TableId
  /-- A wait was given up because of a shutdown. -/
  stopping : Bool

namespace ApplyLoop

def unstarted (workerType : WorkerType) : ApplyLoop where
  workerType := workerType
  phase := .idle
  state := .new 0
  tableDecodingStates := fun _ => none
  stream := ⟨none, none⟩
  retryAttempts := 0
  live := false
  session := none
  startLsn := 0
  tx := none
  handling := none
  handled := []
  txMessages := []
  produced := []
  writes := []
  resolved := 0
  dispatched := 0
  covered := 0
  settled := none
  sent := []
  reported := []
  listed := []
  observed := none
  checkpointSeen := none
  decodingSeen := none
  owned := none
  retaining := none
  retained := []
  copySchema := none
  target := 0
  done := false
  waiting := none
  stopping := false

def accepts (l : ApplyLoop) (m : ReplicationMessage) : Bool :=
  match l.session with
  | some session => (session.deliver m).isSome
  | none => true

def sessionAfter (l : ApplyLoop) (m : ReplicationMessage) : Option Session :=
  l.session.bind fun session => session.deliver m

def uncovered (l : ApplyLoop) : List Produced := l.produced.drop l.covered

end ApplyLoop

/-! ## Scheduling -/

inductive ConnectionUpdate where
  | running
  | terminated
  | errored
  | ended
deriving DecidableEq

inductive Branch where
  | shutdown
  | connectionUpdate (update : ConnectionUpdate)
  | flushResult (result : Except EtlError DestinationWriteStatus)
  | memoryUpdate (active : Option Bool)
  | batchDeadline
  | streamMessage (message : Except EtlError ReplicationMessage)
  | streamEnded (isClosed : Bool)
  | keepAliveDeadline

structure CatalogTable where
  name : TableName
  columnSchemas : List ColumnSchema
  replicatedColumnNames : List String
  identity : IdentityMessage

structure Input where
  fault : Option EtlError := none
  branch : Branch := .keepAliveDeadline
  /-- How many keepalive deadlines expire during a destination call. -/
  ticks : Nat := 0
  /-- The last status update is younger than the debounce interval. -/
  recent : Bool := false
  delivered : Bool := true
  batchFull : Bool := false
  /-- How many cleanup requests the queue still takes. -/
  capacity : Nat := 0
  lsn : PgLsn := 0
  catalog : CatalogTable := ⟨⟨"", ""⟩, [], [], ⟨[], "n", []⟩⟩
  /-- A wait ends because of the shutdown. -/
  shutdownFirst : Bool := false

abbrev Task (α : Type) := Prog EtlError Input ApplyLoop World α

inductive InvalidatedSlotBehavior where
  | error
  | recreate
deriving DecidableEq

structure Config where
  publicationName : String
  codec : RowCodec
  invalidatedSlotBehavior : InvalidatedSlotBehavior
  failover : Bool
  tableErrorRetryMaxAttempts : Nat
  /-- `none` if nothing is assumed about the server. -/
  wal : Option Wal

end Etl
