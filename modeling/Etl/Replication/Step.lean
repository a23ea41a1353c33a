import Etl.Replication.Decoding
import Etl.Runtime.World

/-!
# The steps of an apply loop

`LoopStep` lists what an atom of the loop can do, with what the code has established then. Every
invariant of the system is derived from this list.
-/

namespace Etl

/-! ## Parts of the loop state -/

/-- Fields on which no position, batch or exit decision depends. -/
structure Inert where
  pendingRelationTableIds : List TableId
  drainingForShutdown : Bool
  flushDeadline : Bool
  processingPaused : Bool

namespace ApplyLoopState

def inert (st : ApplyLoopState) : Inert :=
  ⟨st.pendingRelationTableIds, st.drainingForShutdown, st.flushDeadline, st.processingPaused⟩

def touch (st : ApplyLoopState) (x : Inert) : ApplyLoopState :=
  { st with
    pendingRelationTableIds := x.pendingRelationTableIds
    drainingForShutdown := x.drainingForShutdown
    flushDeadline := x.flushDeadline
    processingPaused := x.processingPaused }

def received (st : ApplyLoopState) : ReplicationMessage → ApplyLoopState
  | .xLogData walStart walEnd _ =>
    (st.updateLastReceivedLsn walStart).updateLastReceivedLsn walEnd
  | .primaryKeepAlive walEnd _ => st.updateLastReceivedLsn walEnd

def buffer (st : ApplyLoopState) (event : Event) (relation : Option RelationEvent)
    (endLsn : Option PgLsn) : ApplyLoopState :=
  let batch :=
    match relation with
    | some relation => st.eventBatch.push (.relation relation)
    | none => st.eventBatch
  { st with
    eventBatch := batch.push event
    lastCommitEndLsn := laterCommitEnd st.lastCommitEndLsn endLsn }

def handOver (st : ApplyLoopState) (metadata : WriteMetadata) : ApplyLoopState :=
  { st with
    eventBatch := .empty
    lastCommitEndLsn := none
    pendingFlushResult := some metadata }

def accept (st : ApplyLoopState) (metadata : WriteMetadata) : ApplyLoopState :=
  { st with
    pendingFlushResult := none
    pendingDurabilityInterval := st.pendingDurabilityInterval || decide (0 < metadata.eventCount)
    lastCommitEndLsn := laterCommitEnd st.lastCommitEndLsn metadata.commitEndLsn }

def settle (st : ApplyLoopState) : ApplyLoopState :=
  { st with pendingFlushResult := none, pendingDurabilityInterval := false }

end ApplyLoopState

def Event.commitEnd? : Event → Option PgLsn
  | .commit _ _ _ endLsn _ => some endLsn
  | _ => none

def Event.begun? : Event → Option PgLsn
  | .begin commitLsn _ _ _ => some commitLsn
  | _ => none

def committedOf (produced : List Produced) : List PgLsn :=
  produced.filterMap (·.event.committed?)

def isStateReadyForChanges (state : TableState) (remoteFinalLsn : PgLsn) : Bool :=
  match state with
  | .ready => true
  | .syncDone lsn _ => lsn ≤ remoteFinalLsn
  | _ => false

def canTransitionToReady (currentLsn : PgLsn) (persistedCheckpointLsn : Option PgLsn)
    (syncDoneLsn : PgLsn) (hasMaterializedDecodingState : Bool) : Bool :=
  hasMaterializedDecodingState && decide (syncDoneLsn ≤ currentLsn) &&
    persistedCheckpointLsn.any fun lsn => syncDoneLsn ≤ lsn

def schemaCleanupRetentionSnapshotId (persistedCheckpointLsn : PgLsn)
    (destinationRetentionSnapshotId : SnapshotId) : SnapshotId :=
  min (SnapshotId.atLsn persistedCheckpointLsn) destinationRetentionSnapshotId

def LogicalReplicationMessage.isKeyed : LogicalReplicationMessage → Bool
  | .begin .. | .commit .. | .insert .. | .update .. | .delete .. | .truncate .. => true
  | _ => false

def LogicalReplicationMessage.isBoundary : LogicalReplicationMessage → Bool
  | .begin .. | .commit .. => true
  | _ => false

def ordinalAfter (messages : List LogicalReplicationMessage) : Nat :=
  min (messages.countP (·.isKeyed)) (2 ^ 64 - 1)

def LogicalReplicationMessage.touches (tableId : TableId) : LogicalReplicationMessage → Bool
  | .insert relId _ => relId = tableId
  | .update body => body.relId = tableId
  | .delete body => body.relId = tableId
  | .truncate _ relIds => tableId ∈ relIds
  | _ => false

/-! ## History updates -/

namespace World

variable (w : World)

def owe (worker : WorkerType) (begun : Option PgLsn) : World :=
  { w with owed := Function.update w.owed worker (begun.toList ++ w.owed worker) }

def discharge (worker : WorkerType) (committed : List PgLsn) : World :=
  { w with
    owed := Function.update w.owed worker ((w.owed worker).filter fun lsn => lsn ∉ committed)
    forgotten :=
      Function.update w.forgotten worker ((w.forgotten worker).filter fun lsn => lsn ∉ committed) }

def recordSynced (worker : WorkerType) (covered : List Produced) : World :=
  { w with
    synced := match worker with
      | .tableSync tableId =>
        Function.update w.synced tableId
          (covered.filterMap fun p => p.tx.map fun lsn => (lsn, p.source))
      | .apply => w.synced }

def recordDecision (tableId : TableId) (lsn : PgLsn) (apply : Bool) : World :=
  { w with
    applied :=
      if apply then Function.update w.applied tableId (lsn :: w.applied tableId) else w.applied
    passed :=
      if apply then w.passed else Function.update w.passed tableId (lsn :: w.passed tableId) }

def recordHandover (tableId : TableId) (lsn : PgLsn) : World :=
  { w with
    handover := Function.update w.handover tableId (some lsn)
    horizon := max w.horizon lsn }

/-- In the store and, if its worker is running, in memory. -/
def promote (tableId : TableId) (active : Bool) : World :=
  { w with
    pool := if active then (w.setPoolState tableId .ready).pool else w.pool
    store := w.store.updateTableState tableId .ready
    promoted := Function.update w.promoted tableId true }

end World

namespace ApplyLoop

variable (l : ApplyLoop)

def receive (m : ReplicationMessage) : ApplyLoop :=
  { l with
    session := l.sessionAfter m
    state := l.state.received m
    tx := match m with
      | .xLogData _ _ (.begin finalLsn _ _) => some finalLsn
      | _ => l.tx
    handling := match m with
      | .xLogData _ _ data => some data
      | .primaryKeepAlive _ _ => none
    txMessages := match m with
      | .xLogData _ _ (.begin _ _ _) => []
      | _ => l.txMessages }

def handle (data : LogicalReplicationMessage) : ApplyLoop :=
  { l with
    handling := none
    handled := l.handled ++ [data]
    txMessages := l.txMessages ++ [data] }

def push (p : Produced) (x : Inert) : ApplyLoop :=
  { l.handle p.source with
    state := (l.state.buffer p.event p.relation p.event.commitEnd?).touch x
    produced := l.produced ++ [p]
    tx := if p.event.committed?.isSome then none else l.tx }

def dispatch (metadata : WriteMetadata) : ApplyLoop :=
  { l with
    state := l.state.handOver metadata
    writes := l.writes ++ [(l.state.eventBatch.events, metadata.durability)]
    dispatched := l.produced.length }

def accept (metadata : WriteMetadata) (x : Inert) : ApplyLoop :=
  { l with
    state := (l.state.accept metadata).touch x
    resolved := l.resolved + 1 }

def settle (metadata : WriteMetadata) (x : Inert) : ApplyLoop :=
  { l with
    state := l.state.settle.touch x
    resolved := l.resolved + 1
    covered := l.dispatched
    settled := metadata.commitEndLsn }

def flushLsn : PgLsn := clampLsn l.stream.lastFlushLsn l.state.checkpointLsn

def writeLsn : PgLsn := clampLsn l.stream.lastWriteLsn l.state.progress.lastReceivedLsn

def setDecoder (tableId : TableId) (state : Option TableDecodingState) : ApplyLoop :=
  { l with tableDecodingStates := Function.update l.tableDecodingStates tableId state }

/-- The loop has found that it owns the table in the transaction. -/
def Owns (tableId : TableId) (lsn : PgLsn) : Prop :=
  match l.workerType with
  | .apply => l.owned = some (tableId, lsn)
  | .tableSync t => t = tableId

def Retains (tableId : TableId) (checkpoint : PgLsn) : Prop :=
  match l.workerType with
  | .apply => l.retaining = some (tableId, checkpoint)
  | .tableSync t => t = tableId

/-- The end of the transaction being committed, or everything received while quiescent. -/
def StandsAt (lsn : PgLsn) : Prop :=
  (∃ flags commitLsn timestamp, l.handling = some (.commit flags commitLsn lsn timestamp) ∧
    l.tx = some commitLsn ∧ l.state.remoteFinalLsn = none) ∨
  l.handling = none ∧ l.tx = none ∧ l.state.remoteFinalLsn = none ∧
    l.state.progress.lastReceivedLsn = lsn

/-- With the transaction being committed, or while only accepted writes are left. -/
def ReachesTarget : Prop :=
  (∃ flags commitLsn endLsn timestamp,
    l.handling = some (.commit flags commitLsn endLsn timestamp) ∧
      l.state.remoteFinalLsn = none ∧ l.target ≤ endLsn) ∨
  l.handling = none ∧ l.tx = none ∧ l.state.remoteFinalLsn = none ∧
    l.state.eventBatch.events = [] ∧ l.state.pendingFlushResult = none ∧
    l.state.lastCommitEndLsn.isSome ∧ l.target ≤ l.state.progress.lastReceivedLsn

/-- No message is being handled, and the loop knows its transaction. -/
structure AtRest : Prop where
  handling : l.handling = none
  tx : l.tx = l.state.remoteFinalLsn
  waiting : l.waiting = none
  ordinal : l.tx.isSome → l.state.txOrdinal = ordinalAfter l.txMessages

end ApplyLoop

/-! ## Steps -/

inductive LoopStep : ApplyLoop → World → ApplyLoop → World → Prop
  | idle (l : ApplyLoop) (w : World) : LoopStep l w l w
  | touch (l : ApplyLoop) (w : World) (x : Inert)
      (tended : l.state.Tended → (l.state.touch x).Tended) :
      LoopStep l w { l with state := l.state.touch x } w
  -- the stream
  | receive (l : ApplyLoop) (w : World) (m : ReplicationMessage) (live : l.live)
      (intake : l.state.exitIntent = none) (rest : l.AtRest) (accepted : l.accepts m)
      (undone : ∀ tableId, l.workerType = .tableSync tableId → l.done = false) :
      LoopStep l w (l.receive m) w
  | begin (l : ApplyLoop) (w : World) (lsn : PgLsn) (ordinal : Nat) (tx : l.tx = some lsn) :
      LoopStep l w
        { l with state := { l.state with remoteFinalLsn := some lsn, txOrdinal := ordinal } } w
  | count (l : ApplyLoop) (w : World) (ordinal : Nat) :
      LoopStep l w { l with state := { l.state with txOrdinal := ordinal } } w
  | takeFinal (l : ApplyLoop) (w : World) (flags timestamp : Int) (commitLsn endLsn : PgLsn)
      (handling : l.handling = some (.commit flags commitLsn endLsn timestamp))
      (rest : l.tx = l.state.remoteFinalLsn) :
      LoopStep l w { l with state := { l.state with remoteFinalLsn := none } } w
  | skip (l : ApplyLoop) (w : World) (data : LogicalReplicationMessage)
      (handling : l.handling = some data) (rest : l.tx = l.state.remoteFinalLsn)
      (inner : data.isBoundary = false)
      (skipped : ∀ tableId, l.workerType = .tableSync tableId → data.touches tableId = false) :
      LoopStep l w (l.handle data) w
  | push (l : ApplyLoop) (w : World) (p : Produced) (x : Inert) (live : l.live)
      (source : l.handling = some p.source) (tx : p.tx = l.tx) (inside : l.tx.isSome)
      (index : p.index = l.txMessages.countP (·.isChange))
      (keyed : p.event.eventSequenceKey?.isSome = p.source.isKeyed)
      (key : ∀ key, p.event.eventSequenceKey? = some key →
        l.tx = some key.commitLsn ∧ key.txOrdinal = ordinalAfter l.txMessages)
      (decoder : ∀ schema, p.event.schema? = some schema →
        ∃ tableId, p.source.relId? = some tableId ∧
          l.tableDecodingStates tableId = some (.withSchema schema))
      (begins : p.source.isBoundary = true → p.event.begun?.isSome ∨ p.event.committed?.isSome)
      (begun : ∀ lsn, p.event.begun? = some lsn →
        l.tx = some lsn ∧ ∃ timestamp xid, p.source = .begin lsn timestamp xid)
      (committed : ∀ lsn, p.event.committed? = some lsn → l.tx = some lsn ∧
        l.state.remoteFinalLsn = none ∧
        ∃ flags endLsn timestamp, p.source = .commit flags lsn endLsn timestamp ∧
          p.event.commitEnd? = some endLsn)
      (open_ : p.event.committed? = none → l.tx = l.state.remoteFinalLsn)
      (catchup : ∀ tableId, l.workerType = .tableSync tableId → ∀ endLsn,
        p.event.commitEnd? = some endLsn →
          endLsn < l.target ∨ l.state.exitIntent = some .complete ∧ l.target ≤ endLsn)
      (tended : l.state.Tended → (l.push p x).state.Tended) :
      LoopStep l w (l.push p x) (w.owe l.workerType p.event.begun?)
  -- writes
  | dispatch (l : ApplyLoop) (w : World) (batch : EventBatch)
      (whole : batch.events = l.state.eventBatch.events)
      (free : l.state.pendingFlushResult = none) (settledTx : l.tx = l.state.remoteFinalLsn)
      (handling : l.handling = none) :
      LoopStep l w (l.dispatch (l.state.writeMetadata batch)) w
  | resolveError (l : ApplyLoop) (w : World) (metadata : WriteMetadata) (x : Inert)
      (pending : l.state.pendingFlushResult = some metadata) (waiting : l.waiting = none) :
      LoopStep l w
        { l with
          state := ({ l.state with pendingFlushResult := none } : ApplyLoopState).touch x
          resolved := l.resolved + 1
          live := false } w
  | resolveAccepted (l : ApplyLoop) (w : World) (metadata : WriteMetadata) (x : Inert)
      (pending : l.state.pendingFlushResult = some metadata)
      (deferred : metadata.durability = .mayDefer)
      (tended : l.state.Tended → (l.accept metadata x).state.Tended) :
      LoopStep l w (l.accept metadata x) w
  | resolveDurable (l : ApplyLoop) (w : World) (metadata : WriteMetadata) (x : Inert)
      (live : l.live) (pending : l.state.pendingFlushResult = some metadata)
      (tended : l.state.Tended → (l.settle metadata x).state.Tended) :
      LoopStep l w (l.settle metadata x)
        ((w.discharge l.workerType (committedOf (l.produced.take l.dispatched))).recordSynced
          l.workerType (l.produced.take l.dispatched))
  -- positions
  | flushed (l : ApplyLoop) (w : World) (lsn : PgLsn) (live : l.live) (settled : l.settled = some lsn) :
      LoopStep l w { l with state := l.state.updateLastFlushLsn lsn } w
  | persist (l : ApplyLoop) (w : World) (lsn : PgLsn) (live : l.live) (settled : l.settled = some lsn) :
      LoopStep l w l { w with store := w.store.upsertReplicationCheckpoint l.workerType lsn }
  | status (l : ApplyLoop) (w : World) (stream : StatusStream) (delivered : Bool) (live : l.live)
      (settledTx : l.tx = l.state.remoteFinalLsn) (handling : l.handling = none)
      (reported : stream.lastFlushLsn = l.stream.lastFlushLsn ∨
        stream.lastFlushLsn = some l.flushLsn)
      (reports : List (PgLsn × PgLsn))
      (outcome : stream = l.stream ∧ reports = l.reported ∨
        stream = ⟨some l.writeLsn, some l.flushLsn⟩ ∧
          reports = (l.writeLsn, l.flushLsn) :: l.reported) :
      LoopStep l w { l with stream := stream, sent := l.flushLsn :: l.sent, reported := reports }
        (w.confirmFlush l.workerType l.flushLsn delivered)
  -- reasons to stop
  | recordPause (l : ApplyLoop) (w : World) :
      LoopStep l w { l with state := l.state.recordExitIntent (some .pause) } w
  | recordComplete (l : ApplyLoop) (w : World) (tableId : TableId)
      (worker : l.workerType = .tableSync tableId) (reason : l.done ∨ l.ReachesTarget) :
      LoopStep l w { l with state := l.state.recordExitIntent (some .complete) } w
  -- table-sync coordination
  | syncDone (l : ApplyLoop) (w : World) (tableId : TableId) (lsn : PgLsn)
      (schema : ReplicatedTableSchema) (worker : l.workerType = .tableSync tableId)
      (live : l.live) (state : w.poolState tableId = some (.catchup l.target))
      (reached : l.target ≤ lsn)
      (decoder : l.tableDecodingStates tableId = some (.withSchema schema))
      (handling : l.handling = none) (tx : l.tx = none) (quiescent : l.state.isQuiescent)
      (position : l.settled = some lsn ∨ l.state.progress.lastReceivedLsn = lsn) :
      LoopStep l w { l with done := true }
        ((w.setAndStore tableId (.ofSyncDone lsn schema)).recordHandover tableId lsn)
  -- apply-side coordination
  | list (l : ApplyLoop) (w : World) :
      LoopStep l w { l with listed := w.store.getSyncingTables } w
  | readCheckpoint (l : ApplyLoop) (w : World) :
      LoopStep l w { l with checkpointSeen := w.store.replicationCheckpoints l.workerType } w
  | observe (l : ApplyLoop) (w : World) (observed : Option (TableId × Bool))
      (found : ∀ o ∈ observed, o.2 = w.isActive o.1) :
      LoopStep l w { l with observed := observed } w
  | decide (l : ApplyLoop) (w : World) (tableId : TableId) (lsn : PgLsn)
      (state : Option TableState) (worker : l.workerType = .apply) (live : l.live)
      (tx : l.tx = some lsn) (final : l.state.remoteFinalLsn = some lsn)
      (intake : l.state.exitIntent = none) (going : l.stopping = false) (waiting : l.waiting = none)
      (read : w.poolState tableId = state ∧ state.isSome ∧ l.observed = some (tableId, true) ∨
        w.store.getTableState tableId = state ∧ l.observed = some (tableId, false)) :
      LoopStep l w
        { l with
          owned := if state.any fun s => isStateReadyForChanges s lsn then some (tableId, lsn)
            else none
          observed := none }
        (w.recordDecision tableId lsn (state.any fun s => isStateReadyForChanges s lsn))
  | setCatchup (l : ApplyLoop) (w : World) (tableId : TableId) (snapshotLsn currentLsn : PgLsn)
      (worker : l.workerType = .apply) (live : l.live) (position : l.StandsAt currentLsn)
      (going : l.stopping = false) (waiting : l.waiting = none)
      (state : w.poolState tableId = some (.syncWait snapshotLsn)) :
      LoopStep l w { l with waiting := some tableId }
        (w.setPoolState tableId (.catchup (max snapshotLsn currentLsn)))
  | awaitCatchup (l : ApplyLoop) (w : World) (tableId : TableId) (live : l.live)
      (waiting : l.waiting = none) :
      LoopStep l w { l with waiting := some tableId } w
  | caughtUp (l : ApplyLoop) (w : World) (tableId : TableId) (waiting : l.waiting = some tableId)
      (state : ∀ lsn, w.poolState tableId ≠ some (.catchup lsn)) :
      LoopStep l w { l with waiting := none } w
  | giveUp (l : ApplyLoop) (w : World) (tableId : TableId) (waiting : l.waiting = some tableId)
      (shutdown : w.shutdown) :
      LoopStep l w { l with waiting := none, stopping := true } w
  | ready (l : ApplyLoop) (w : World) (tableId : TableId) (syncDoneLsn currentLsn : PgLsn)
      (payload : Option StoredTableDecodingState) (active : Bool) (worker : l.workerType = .apply)
      (live : l.live)
      (position : l.settled = some currentLsn ∨ l.state.progress.lastReceivedLsn = currentLsn)
      (handling : l.handling = none)
      (can : canTransitionToReady currentLsn l.checkpointSeen syncDoneLsn
        (hasMaterializedDecodingState (l.tableDecodingStates tableId)))
      (observed : l.observed = some (tableId, active))
      (state : if active then w.poolState tableId = some (.syncDone syncDoneLsn payload)
        else (tableId, .syncDone syncDoneLsn payload) ∈ l.listed) :
      LoopStep l w l
        (w.promote tableId active)
  | resetDecoder (l : ApplyLoop) (w : World) (tableId : TableId) (worker : l.workerType = .apply) :
      LoopStep l w (l.setDecoder tableId none) w
  | spawn (l : ApplyLoop) (w : World) (tableId : TableId) (state : TableState)
      (worker : l.workerType = .apply) (live : l.live) (inactive : w.isActive tableId = false)
      (stored : w.store.getTableState tableId = some state) :
      LoopStep l w { l with observed := none }
        { w with pool := Function.update w.pool tableId (some ⟨state, true, 0⟩) }
  -- decoders
  | readDecodingState (l : ApplyLoop) (w : World) (tableId : TableId) (state : Option TableState)
      (read : w.poolState tableId = state ∨ w.store.getTableState tableId = state ∨ state = none) :
      LoopStep l w { l with decodingSeen := state } w
  | ddl (l : ApplyLoop) (w : World) (body : MessageBody) (change : SchemaChangeMessage)
      (lsn : PgLsn) (handling : l.handling = some (.message body))
      (content : body.content = some change) (tag : body.tag = ddlMessageTag)
      (final : l.state.remoteFinalLsn = some lsn) (tx : l.tx = some lsn)
      (owner : l.Owns change.oid lsn) :
      LoopStep l w
        (l.setDecoder change.oid
          (some (.ofDdl ⟨lsn, body.messageLsn⟩ (l.tableDecodingStates change.oid)))) w
  | storeDdl (l : ApplyLoop) (w : World) (body : MessageBody) (change : SchemaChangeMessage)
      (lsn : PgLsn) (handling : l.handling = some (.message body))
      (content : body.content = some change) (tag : body.tag = ddlMessageTag)
      (final : l.state.remoteFinalLsn = some lsn) (tx : l.tx = some lsn)
      (owner : l.Owns change.oid lsn)
      (decoder : (l.tableDecodingStates change.oid).map (·.snapshotId) =
        some ⟨lsn, body.messageLsn⟩) :
      LoopStep l w l
        { w with
          store := w.store.storeTableSchema (change.intoTableSchema ⟨lsn, body.messageLsn⟩) }
  | relation (l : ApplyLoop) (w : World) (body : RelationBody) (lsn : PgLsn)
      (schema : ReplicatedTableSchema) (handling : l.handling = some (.relation body))
      (final : l.state.remoteFinalLsn = some lsn) (tx : l.tx = some lsn)
      (owner : l.Owns body.relId lsn)
      (decoder : body.decoder w.store (selectRelationSchema l.state.bootstrapSnapshotId
        (l.tableDecodingStates body.relId)
        (match l.tableDecodingStates body.relId with
        | none => applicableSyncDone l.decodingSeen lsn
        | some _ => none)) = .ok schema) :
      LoopStep l w (l.setDecoder body.relId (some (.withSchema schema))) w
  | pendingRow (l : ApplyLoop) (w : World) (tableId : TableId) (lsn : PgLsn)
      (snapshotId : SnapshotId) (previous : Option PreviousRelationMasks)
      (masks : PreviousRelationMasks) (schema : ReplicatedTableSchema)
      (pending : l.tableDecodingStates tableId = some (.pendingRelation snapshotId previous))
      (final : l.state.remoteFinalLsn = some lsn) (tx : l.tx = some lsn)
      (owner : l.Owns tableId lsn) (fallback : ∀ m, previous = some m → masks = m)
      (decoder : pendingDecoder w.store tableId snapshotId masks = .ok schema) :
      LoopStep l w (l.setDecoder tableId (some (.withSchema schema))) w
  | syncDoneRow (l : ApplyLoop) (w : World) (tableId : TableId) (lsn : PgLsn)
      (schema : ReplicatedTableSchema) (missing : l.tableDecodingStates tableId = none)
      (final : l.state.remoteFinalLsn = some lsn) (tx : l.tx = some lsn)
      (owner : l.Owns tableId lsn)
      (decoder : syncDoneDecoder w.store tableId l.decodingSeen lsn = .ok (some schema)) :
      LoopStep l w (l.setDecoder tableId (some (.withSchema schema))) w
  -- schema cleanup
  | beginCleanup (l : ApplyLoop) (w : World) :
      LoopStep l w
        { l with checkpointSeen := w.store.replicationCheckpoints l.workerType, retained := [] } w
  | retain (l : ApplyLoop) (w : World) (tableId : TableId) (checkpoint : PgLsn)
      (state : Option TableState) (worker : l.workerType = .apply)
      (seen : l.checkpointSeen = some checkpoint)
      (read : w.poolState tableId = state ∧ state.isSome ∨ w.store.getTableState tableId = state) :
      LoopStep l w
        { l with
          retaining := if state.any fun s => isStateReadyForChanges s checkpoint then
              some (tableId, checkpoint)
            else none } w
  | bound (l : ApplyLoop) (w : World) (tableId : TableId) (checkpoint : PgLsn)
      (metadata : DestinationTableMetadata) (seen : l.checkpointSeen = some checkpoint)
      (owner : l.Retains tableId checkpoint)
      (stored : w.store.destinationTablesMetadata tableId = some metadata) :
      LoopStep l w
        { l with
          retained := (tableId, schemaCleanupRetentionSnapshotId checkpoint
            metadata.retentionSnapshotId) :: l.retained } w
  | queue (l : ApplyLoop) (w : World) (requests : List (TableId × SnapshotId)) (x : Inert)
      (retained : ∀ r ∈ requests, r ∈ l.retained)
      (tended : l.state.Tended → (l.state.touch x).Tended) :
      LoopStep l w { l with state := l.state.touch x }
        { w with
          cleanup := Function.update w.cleanup l.workerType (w.cleanup l.workerType ++ requests) }

end Etl
