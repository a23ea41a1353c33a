import Etl.Replication.FlushResult

/-!
# Handling the messages of the stream

A message becomes at most one event, with at most one relation event before it.
-/

namespace Etl

structure HandleMessageResult where
  event : Option (Event × Option RelationEvent) := none
  endLsn : Option PgLsn := none
  endBatch : Bool := false

namespace HandleMessageResult

def noEvent : HandleMessageResult := {}

def returnEvent (event : Event) : HandleMessageResult := { event := some (event, none) }

def returnRowEvent (relation : Option RelationEvent) (event : Event) : HandleMessageResult :=
  { event := some (event, relation) }

end HandleMessageResult

def invalidTransactionState : EtlError := ⟨.invalidState, "Invalid transaction state"⟩

def nextTxOrdinal : Task Nat :=
  Prog.act fun l => (l.state.nextTxOrdinal.1, { l with state := l.state.nextTxOrdinal.2 })

/-! ## Decoders -/

def getTableStateForDecoding (tableId : TableId) : Task (Option TableState) := do
  match ← readLoop (·.workerType) with
  | .tableSync _ => Prog.act fun l => (none, { l with decodingSeen := none })
  | .apply =>
    if ← inspect (·.isActive tableId) then
      Prog.atom (fun _ l w =>
        match w.poolState tableId with
        | some state => some (some state, { l with decodingSeen := some state }, w)
        | none => none) .done
    else
      request fun l w =>
        let state := w.store.getTableState tableId
        (.ok state, { l with decodingSeen := state }, w)

def resolveRelationSchemaSelection (tableId : TableId) (remoteFinalLsn : PgLsn) :
    Task RelationSchemaSelection := do
  let l ← readLoop fun l => (l.state.bootstrapSnapshotId, l.tableDecodingStates tableId)
  match l.2 with
  | some state => pure (selectRelationSchema l.1 (some state) none)
  | none => do
    let tableState ← getTableStateForDecoding tableId
    pure (selectRelationSchema l.1 none (applicableSyncDone tableState remoteFinalLsn))

def materializeRelationSchema (relation : RelationBody) (selection : RelationSchemaSelection) :
    Task ReplicatedTableSchema :=
  request fun l w =>
    match relation.decoder w.store selection with
    | .error e => (.error e, l, w)
    | .ok schema => (.ok schema, l.setDecoder relation.relId (some (.withSchema schema)), w)

def resolveSyncDoneReplicatedTableSchema (tableId : TableId) (currentLsn : PgLsn) :
    Task (Option ReplicatedTableSchema) := do
  let state ← getTableStateForDecoding tableId
  request fun l w => (syncDoneDecoder w.store tableId state currentLsn, l, w)

def materializePendingReplicatedTableSchema (tableId : TableId) (snapshotId : SnapshotId)
    (masks : PreviousRelationMasks) : Task (ReplicatedTableSchema × Option RelationEvent) :=
  request fun l w =>
    match pendingDecoder w.store tableId snapshotId masks with
    | .error e => (.error e, l, w)
    | .ok schema => (.ok (schema, some ⟨schema⟩), l.setDecoder tableId (some (.withSchema schema)), w)

def restoreSyncDoneDecoder (tableId : TableId) (currentLsn : PgLsn) :
    Task (ReplicatedTableSchema × Option RelationEvent) := do
  let state ← getTableStateForDecoding tableId
  request fun l w =>
    match syncDoneDecoder w.store tableId state currentLsn with
    | .error e => (.error e, l, w)
    | .ok none => (.error ⟨.invalidState, "Relation state missing for row event"⟩, l, w)
    | .ok (some schema) =>
      (.ok (schema, none), l.setDecoder tableId (some (.withSchema schema)), w)

def getReplicatedTableSchema (tableId : TableId) (remoteFinalLsn : PgLsn) :
    Task (ReplicatedTableSchema × Option RelationEvent) := do
  match ← readLoop (·.tableDecodingStates tableId) with
  | some (.withSchema schema) => pure (schema, none)
  | some (.pendingRelation snapshotId (some masks)) =>
    materializePendingReplicatedTableSchema tableId snapshotId masks
  | some (.pendingRelation snapshotId none) => do
    match ← resolveSyncDoneReplicatedTableSchema tableId remoteFinalLsn with
    | none => .fail ⟨.invalidState, "Relation message missing after schema change"⟩
    | some previous =>
      materializePendingReplicatedTableSchema tableId snapshotId (.fromSchema previous)
  | none => restoreSyncDoneDecoder tableId remoteFinalLsn

def replicatedTableSchemaForTruncate : Option TableDecodingState → Except EtlError ReplicatedTableSchema
  | some (.withSchema schema) => .ok schema
  | some (.pendingRelation _ _) =>
    .error ⟨.invalidState, "Relation message missing before truncate"⟩
  | none => .error ⟨.invalidState, "Relation state missing for truncate event"⟩

/-! ## Handlers -/

def handleMessage (config : Config) (body : MessageBody) : Task HandleMessageResult := do
  if body.tag ≠ ddlMessageTag then pure .noEvent
  else
    match ← readLoop (·.state.remoteFinalLsn), body.content with
    | none, _ => .fail invalidTransactionState
    | some _, none => .fail ⟨.conversionError, "Failed to parse schema change message"⟩
    | some remoteFinalLsn, some change =>
      if !change.appliesToPublication config.publicationName then pure .noEvent
      else
        if ← shouldApplyChanges true change.oid remoteFinalLsn then
          let snapshotId : SnapshotId := ⟨remoteFinalLsn, body.messageLsn⟩
          modifyLoop fun l =>
            l.setDecoder change.oid (some (.ofDdl snapshotId (l.tableDecodingStates change.oid)))
          request fun l w =>
            (.ok (), l, { w with store := w.store.storeTableSchema (change.intoTableSchema snapshotId) })
          pure .noEvent
        else pure .noEvent

def handleBeginMessage (finalLsn : PgLsn) (timestamp : Int) (xid : Nat) :
    Task HandleMessageResult := do
  let txOrdinal ← Prog.act fun l =>
    let st := ({ l.state with remoteFinalLsn := some finalLsn } : ApplyLoopState).resetTxOrdinal
    (st.nextTxOrdinal.1, { l with state := st.nextTxOrdinal.2 })
  pure (.returnEvent (.begin finalLsn txOrdinal timestamp xid))

/-- The worker's part of `process_syncing_tables_after_commit_event`. -/
def workerAfterCommitEvent (lsn : PgLsn) : Task (Option ExitIntent) := do
  match ← readLoop (·.workerType) with
  | .apply => ApplyWorker.processSyncingTablesAfterCommitEvent lsn
  | .tableSync tableId => TableSyncWorker.processSyncingTablesAfterCommitEvent tableId lsn

def processSyncingTablesAfterCommitEvent (lsn : PgLsn) : Task Bool := do
  let exitIntent ← workerAfterCommitEvent lsn
  recordExitIntent exitIntent
  pure exitIntent.isSome

def handleCommitMessage (flags : Int) (commitLsn endLsn : PgLsn) (timestamp : Int) :
    Task HandleMessageResult := do
  match ← Prog.act fun l =>
      (l.state.remoteFinalLsn, { l with state := { l.state with remoteFinalLsn := none } }) with
  | none => .fail invalidTransactionState
  | some remoteFinalLsn =>
    if commitLsn ≠ remoteFinalLsn then .fail ⟨.validationError, "Invalid commit LSN"⟩
    else
      let endBatch ← processSyncingTablesAfterCommitEvent endLsn
      let txOrdinal ← nextTxOrdinal
      pure { event := some (.commit commitLsn txOrdinal flags endLsn timestamp, none),
             endLsn := some endLsn, endBatch := endBatch }

def handleRelationMessage (body : RelationBody) : Task HandleMessageResult := do
  match ← readLoop (·.state.remoteFinalLsn) with
  | none => .fail invalidTransactionState
  | some remoteFinalLsn =>
    if ← shouldApplyChanges true body.relId remoteFinalLsn then
      let selection ← resolveRelationSchemaSelection body.relId remoteFinalLsn
      let schema ← materializeRelationSchema body selection
      pure (.returnEvent (.relation ⟨schema⟩))
    else pure .noEvent

def handleRowMessage (tableId : TableId)
    (parse : ReplicatedTableSchema → PgLsn → Nat → Except EtlError Event) :
    Task HandleMessageResult := do
  match ← readLoop (·.state.remoteFinalLsn) with
  | none => .fail invalidTransactionState
  | some remoteFinalLsn =>
    let txOrdinal ← nextTxOrdinal
    if ← shouldApplyChanges true tableId remoteFinalLsn then
      let (schema, relation) ← getReplicatedTableSchema tableId remoteFinalLsn
      let event ← Prog.ofExcept (parse schema remoteFinalLsn txOrdinal)
      pure (.returnRowEvent relation event)
    else pure .noEvent

def handleInsertMessage (codec : RowCodec) (relId : TableId) (tuple : Tuple) :
    Task HandleMessageResult :=
  handleRowMessage relId fun schema lsn txOrdinal => codec.parseInsert schema lsn txOrdinal tuple

def handleUpdateMessage (codec : RowCodec) (body : UpdateBody) : Task HandleMessageResult :=
  handleRowMessage body.relId fun schema lsn txOrdinal => codec.parseUpdate schema lsn txOrdinal body

def handleDeleteMessage (codec : RowCodec) (body : DeleteBody) : Task HandleMessageResult :=
  handleRowMessage body.relId fun schema lsn txOrdinal => codec.parseDelete schema lsn txOrdinal body

def truncatedTables (remoteFinalLsn : PgLsn) : List TableId → Task (List ReplicatedTableSchema)
  | [] => pure []
  | tableId :: rest => do
    if ← shouldApplyChanges true tableId remoteFinalLsn then
      let state ← readLoop (·.tableDecodingStates tableId)
      let schema ← Prog.ofExcept (replicatedTableSchemaForTruncate state)
      let schemas ← truncatedTables remoteFinalLsn rest
      pure (schema :: schemas)
    else truncatedTables remoteFinalLsn rest

def handleTruncateMessage (options : Int) (relIds : List TableId) : Task HandleMessageResult := do
  match ← readLoop (·.state.remoteFinalLsn) with
  | none => .fail invalidTransactionState
  | some remoteFinalLsn =>
    let txOrdinal ← nextTxOrdinal
    let tables ← truncatedTables remoteFinalLsn relIds
    if tables.isEmpty then pure .noEvent
    else pure (.returnEvent (.truncate remoteFinalLsn txOrdinal options tables))

def handleLogicalReplicationMessage (config : Config) :
    LogicalReplicationMessage → Task HandleMessageResult
  | .begin finalLsn timestamp xid => handleBeginMessage finalLsn timestamp xid
  | .commit flags commitLsn endLsn timestamp => handleCommitMessage flags commitLsn endLsn timestamp
  | .relation body => handleRelationMessage body
  | .insert relId tuple => handleInsertMessage config.codec relId tuple
  | .update body => handleUpdateMessage config.codec body
  | .delete body => handleDeleteMessage config.codec body
  | .truncate options relIds => handleTruncateMessage options relIds
  | .message body => handleMessage config body
  | .origin => pure .noEvent
  | .typeInfo => pure .noEvent

def ApplyLoop.produce (l : ApplyLoop) (data : LogicalReplicationMessage) (event : Event)
    (relation : Option RelationEvent) : Produced :=
  ⟨l.tx, data, event, relation, l.txMessages.countP (·.isChange)⟩

def bufferEvent (data : LogicalReplicationMessage) (result : HandleMessageResult) : Task Unit :=
  Prog.atom
    (fun _ l w =>
      match result.event with
      | some (event, relation) =>
        some ((),
          { l.handle data with
            state := (l.state.buffer event relation result.endLsn).setFlushDeadlineIfNeeded
            produced := l.produced ++ [l.produce data event relation]
            tx := if event.committed?.isSome then none else l.tx },
          w.owe l.workerType event.begun?)
      | none => some ((), l.handle data, w))
    .done

def flushIfNeeded (endBatch : Bool) : Task Unit := do
  if ← Prog.atom (fun i l w => some (i.batchFull || endBatch, l, w)) .done then flushBatch
  else pure ()

/-- The positions were noted when the message was taken from the stream. -/
def handleReplicationMessageAndFlush (config : Config) : ReplicationMessage → Task Unit
  | .xLogData _ _ data => do
    let result ← handleLogicalReplicationMessage config data
    bufferEvent data result
    flushIfNeeded result.endBatch
  | .primaryKeepAlive _ reply => do
    sendStatusUpdate reply
    flushIfNeeded false

/-! ## Assertions while a message is handled -/

namespace ApplyLoop

structure Handles (l : ApplyLoop) (data : LogicalReplicationMessage) : Prop where
  handling : l.handling = some data
  waiting : l.waiting = none
  live : l.live = true
  intake : l.state.exitIntent = none
  going : l.stopping = false
  accounted : l.Accounted
  below : ∀ tableId, l.workerType = .tableSync tableId → l.Below ∧ l.done = false

structure Fresh (l : ApplyLoop) (data : LogicalReplicationMessage) : Prop extends Handles l data where
  tx : l.tx = l.state.remoteFinalLsn
  ordinal : l.tx.isSome → l.state.txOrdinal = ordinalAfter l.txMessages

structure Entering (data : LogicalReplicationMessage) (lsn : PgLsn)
    (before : List LogicalReplicationMessage) (l : ApplyLoop) : Prop extends Handles l data where
  tx : l.tx = some lsn
  remoteFinal : l.state.remoteFinalLsn = some lsn
  messages : l.txMessages = before
  ordinal : l.state.txOrdinal = ordinalAfter before

structure InTransaction (data : LogicalReplicationMessage) (lsn : PgLsn)
    (before : List LogicalReplicationMessage) (l : ApplyLoop) : Prop extends Handles l data where
  tx : l.tx = some lsn
  remoteFinal : l.state.remoteFinalLsn = some lsn
  messages : l.txMessages = before
  ordinal : l.state.txOrdinal = ordinalAfter (before ++ [data])

structure Decoding (data : LogicalReplicationMessage) (lsn : PgLsn)
    (before : List LogicalReplicationMessage) (tableId : TableId) (l : ApplyLoop) : Prop extends InTransaction data lsn before l where
  owner : l.Owns tableId lsn

variable {l l' : ApplyLoop} {data : LogicalReplicationMessage} {lsn : PgLsn} {tableId : TableId}
  {before : List LogicalReplicationMessage}

lemma SameCore.handles (h : SameCore l l') (hl : l.Handles data) : l'.Handles data where
  handling := h.handling.trans hl.handling
  waiting := h.waiting.trans hl.waiting
  live := h.live.trans hl.live
  intake := h.exit.trans hl.intake
  going := h.stopping.trans hl.going
  accounted := h.accounted hl.accounted
  below tableId hworker := by
    have hb := hl.below tableId (h.workerType ▸ hworker)
    exact ⟨hb.1.congr h.commitEnd h.pending h.target, h.done.trans hb.2⟩

lemma SameCore.inTransaction (h : SameCore l l') (hl : InTransaction data lsn before l) :
    InTransaction data lsn before l' where
  toHandles := h.handles hl.toHandles
  tx := h.tx.trans hl.tx
  remoteFinal := h.remoteFinal.trans hl.remoteFinal
  messages := h.txMessages.trans hl.messages
  ordinal := h.txOrdinal.trans hl.ordinal

lemma Fresh.entering (hl : l.Fresh data) (hfinal : l.state.remoteFinalLsn = some lsn) :
    Entering data lsn l.txMessages l where
  toHandles := hl.toHandles
  tx := hl.tx.trans hfinal
  remoteFinal := hfinal
  messages := rfl
  ordinal := hl.ordinal (by rw [hl.tx, hfinal]; rfl)

lemma ordinalAfter_append (messages : List LogicalReplicationMessage)
    (data : LogicalReplicationMessage) :
    ordinalAfter (messages ++ [data]) =
      if data.isKeyed then
        if ordinalAfter messages + 1 < 2 ^ 64 then ordinalAfter messages + 1
        else ordinalAfter messages
      else ordinalAfter messages := by
  have hbefore : ordinalAfter messages = min (messages.countP (·.isKeyed)) (2 ^ 64 - 1) := rfl
  have hafter : ordinalAfter (messages ++ [data]) =
      min (messages.countP (·.isKeyed) + if data.isKeyed then 1 else 0) (2 ^ 64 - 1) := by
    simp only [ordinalAfter, List.countP_append, List.countP_singleton]
  rw [hafter]
  split
  · split <;> omega
  · omega

lemma Entering.inTransaction (hl : Entering data lsn before l) (hkeyed : data.isKeyed = false) :
    InTransaction data lsn before l where
  toHandles := hl.toHandles
  tx := hl.tx
  remoteFinal := hl.remoteFinal
  messages := hl.messages
  ordinal := by
    rw [ordinalAfter_append, hkeyed]
    exact hl.ordinal

lemma SameCore.decoding (h : SameCore l l') (hl : Decoding data lsn before tableId l)
    (howned : l'.owned = l.owned) : Decoding data lsn before tableId l' where
  toInTransaction := h.inTransaction hl.toInTransaction
  owner := by
    have := hl.owner
    unfold Owns at *
    rwa [h.workerType, howned]

lemma sameCore_setDecoder (l : ApplyLoop) (tableId : TableId) (state : Option TableDecodingState) :
    SameCore l (l.setDecoder tableId state) := by
  constructor <;> rfl

end ApplyLoop

open ApplyLoop

/-! ## What the decoder lookups do -/

section Decoders

variable {worker : WorkerType} {l : ApplyLoop} {data : LogicalReplicationMessage} {lsn : PgLsn}
  {tableId : TableId} {before : List LogicalReplicationMessage}

lemma meets_nextTxOrdinal (hl : Entering data lsn before l) (hkeyed : data.isKeyed = true) :
    Meets worker nextTxOrdinal (fun txOrdinal l' => InTransaction data lsn before l' ∧
      txOrdinal = ordinalAfter before) l := by
  refine Prog.sat_act (fun w _ => .count l w _)
    ⟨⟨?_, hl.tx, hl.remoteFinal, hl.messages, ?_⟩, hl.ordinal⟩
  · exact ⟨hl.handling, hl.waiting, hl.live, hl.intake, hl.going,
      ⟨hl.accounted.batch, hl.accounted.write, hl.accounted.interval⟩, hl.below⟩
  · rw [ordinalAfter_append, hkeyed, ← hl.ordinal]
    rfl

lemma meets_shouldApplyChanges (hl : InTransaction data lsn before l) :
    Meets worker (shouldApplyChanges true tableId lsn) (fun ready l' =>
      (ready = true → Decoding data lsn before tableId l') ∧
      (ready = false → InTransaction data lsn before l' ∧ worker ≠ .tableSync tableId)) l := by
  refine meets_readWorkerType.bind ?_
  rintro kind l' ⟨rfl, hworker, rfl⟩
  cases kind with
  | apply =>
    refine (ApplyWorker.meets_shouldApplyChanges hl.live hl.tx hl.remoteFinal hl.intake hl.going
      hl.waiting).mono ?_ fun _ _ h => h
    rintro ready l' rfl
    have hcore : SameCore l { l with
        owned := if ready then some (tableId, lsn) else none
        observed := none } := by
      constructor <;> rfl
    have hl' := hcore.inTransaction hl
    refine ⟨?_, fun _ => ⟨hl', nofun⟩⟩
    rintro rfl
    exact ⟨hl', by simp [Owns, hworker]⟩
  | tableSync t =>
    refine ⟨fun h => ⟨hl, ?_⟩, fun h => ⟨hl, ?_⟩⟩
    · simpa [Owns, hworker] using h
    · simpa using h

lemma meets_getTableStateForDecoding (hl : Decoding data lsn before tableId l) :
    Meets worker (getTableStateForDecoding tableId) (fun state l' =>
      Decoding data lsn before tableId l' ∧ l'.decodingSeen = state ∧
        l'.tableDecodingStates = l.tableDecodingStates ∧
        l'.state.bootstrapSnapshotId = l.state.bootstrapSnapshotId) l := by
  have hseen : ∀ state, Decoding data lsn before tableId { l with decodingSeen := state } :=
    fun state => SameCore.decoding (by constructor <;> rfl) hl rfl
  refine meets_readWorkerType.bind ?_
  rintro kind l' ⟨rfl, hworker, rfl⟩
  cases kind with
  | tableSync t =>
    exact Prog.sat_act (fun w _ => .readDecodingState l w tableId none (.inr (.inr rfl)))
      ⟨hseen none, rfl, rfl, rfl⟩
  | apply =>
    refine (meets_inspect (Q := fun _ => Eq l) fun _ _ => rfl).bind ?_
    rintro active l' rfl
    refine Prog.sat_ite (fun _ => Prog.sat_atom ?_) fun _ =>
      meets_request hl.waiting nofun fun w hI => ⟨?_, ?_⟩
    · intro i w state l' w' hI hf
      split at hf <;> cases hf
      rename_i state hstate
      exact ⟨.readDecodingState l w tableId (some state) (.inl hstate), hseen _, rfl, rfl, rfl⟩
    · exact .readDecodingState l w tableId _ (.inr (.inl rfl))
    · rintro state ⟨⟩
      exact ⟨hseen _, rfl, rfl, rfl⟩

lemma meets_resolveRelationSchemaSelection (hl : Decoding data lsn before tableId l) :
    Meets worker (resolveRelationSchemaSelection tableId lsn) (fun selection l' =>
      Decoding data lsn before tableId l' ∧ selection = selectRelationSchema l'.state.bootstrapSnapshotId
        (l'.tableDecodingStates tableId)
        (match l'.tableDecodingStates tableId with
        | none => applicableSyncDone l'.decodingSeen lsn
        | some _ => none)) l := by
  refine (meets_readLoop (Q := fun r l' => r = (l.state.bootstrapSnapshotId,
    l.tableDecodingStates tableId) ∧ l = l') fun _ => ⟨rfl, rfl⟩).bind ?_
  rintro r l' ⟨rfl, rfl⟩
  cases hdecoder : l.tableDecodingStates tableId with
  | some state => exact ⟨hl, by rw [hdecoder]⟩
  | none =>
    refine (meets_getTableStateForDecoding hl).bind ?_
    rintro state l' ⟨hl', rfl, hdecoders, hbootstrap⟩
    exact ⟨hl', by rw [hdecoders, hdecoder, hbootstrap]⟩

lemma meets_materializeRelationSchema {body : RelationBody} {selection : RelationSchemaSelection}
    (hl : Decoding (.relation body) lsn before body.relId l)
    (hselection : selection = selectRelationSchema l.state.bootstrapSnapshotId
      (l.tableDecodingStates body.relId)
      (match l.tableDecodingStates body.relId with
      | none => applicableSyncDone l.decodingSeen lsn
      | some _ => none)) :
    Meets worker (materializeRelationSchema body selection) (fun schema l' =>
      InTransaction (.relation body) lsn before l' ∧
        l'.tableDecodingStates body.relId = some (.withSchema schema)) l := by
  refine meets_request hl.waiting (fun w _ _ => ?_) fun w hI => ?_
  · split <;> exact hl.waiting
  cases hdecoder : body.decoder w.store selection with
  | error e => exact ⟨.idle l w, by rintro schema ⟨⟩⟩
  | ok schema =>
    rw [hselection] at hdecoder
    refine ⟨.relation l w body lsn schema hl.handling hl.remoteFinal hl.tx hl.owner hdecoder, ?_⟩
    rintro _ ⟨⟩
    exact ⟨(l.sameCore_setDecoder _ _).inTransaction hl.toInTransaction, by simp [setDecoder]⟩

def Decoded (data : LogicalReplicationMessage) (lsn : PgLsn)
    (before : List LogicalReplicationMessage) (tableId : TableId)
    (r : ReplicatedTableSchema × Option RelationEvent) (l : ApplyLoop) : Prop :=
  InTransaction data lsn before l ∧ l.tableDecodingStates tableId = some (.withSchema r.1)

lemma meets_materializePending {snapshotId : SnapshotId} {previous : Option PreviousRelationMasks}
    {masks : PreviousRelationMasks} (hl : Decoding data lsn before tableId l)
    (hpending : l.tableDecodingStates tableId = some (.pendingRelation snapshotId previous))
    (hmasks : ∀ m, previous = some m → masks = m) :
    Meets worker (materializePendingReplicatedTableSchema tableId snapshotId masks)
      (Decoded data lsn before tableId) l := by
  refine meets_request hl.waiting (fun w _ _ => ?_) fun w hI => ?_
  · split <;> exact hl.waiting
  cases hdecoder : pendingDecoder w.store tableId snapshotId masks with
  | error e => exact ⟨.idle l w, by rintro schema ⟨⟩⟩
  | ok schema =>
    refine ⟨.pendingRow l w tableId lsn snapshotId previous masks schema hpending hl.remoteFinal
      hl.tx hl.owner hmasks hdecoder, ?_⟩
    rintro _ ⟨⟩
    exact ⟨(l.sameCore_setDecoder _ _).inTransaction hl.toInTransaction, by simp [setDecoder]⟩

lemma meets_restoreSyncDoneDecoder (hl : Decoding data lsn before tableId l)
    (hmissing : l.tableDecodingStates tableId = none) :
    Meets worker (restoreSyncDoneDecoder tableId lsn) (Decoded data lsn before tableId) l := by
  refine (meets_getTableStateForDecoding hl).bind ?_
  rintro state l' ⟨hl', rfl, hdecoders, -⟩
  refine meets_request hl'.waiting (fun w _ _ => ?_) fun w hI => ?_
  · split <;> exact hl'.waiting
  cases hdecoder : syncDoneDecoder w.store tableId l'.decodingSeen lsn with
  | error e => exact ⟨.idle l' w, by rintro schema ⟨⟩⟩
  | ok decoder =>
    cases decoder with
    | none => exact ⟨.idle l' w, by rintro schema ⟨⟩⟩
    | some schema =>
      refine ⟨.syncDoneRow l' w tableId lsn schema (by rw [hdecoders, hmissing]) hl'.remoteFinal
        hl'.tx hl'.owner hdecoder, ?_⟩
      rintro _ ⟨⟩
      exact ⟨(l'.sameCore_setDecoder _ _).inTransaction hl'.toInTransaction, by simp [setDecoder]⟩

lemma meets_getReplicatedTableSchema (hl : Decoding data lsn before tableId l) :
    Meets worker (getReplicatedTableSchema tableId lsn) (Decoded data lsn before tableId) l := by
  refine (meets_readLoop (Q := fun state l' => state = l.tableDecodingStates tableId ∧ l = l')
    fun _ => ⟨rfl, rfl⟩).bind ?_
  rintro state l' ⟨hstate, rfl⟩
  split
  · exact ⟨hl.toInTransaction, hstate.symm⟩
  · exact meets_materializePending hl hstate.symm (by rintro m ⟨⟩; rfl)
  · rename_i snapshotId
    refine Prog.Sat.bind (R := fun _ l' => Decoding data lsn before tableId l' ∧
      l'.tableDecodingStates = l.tableDecodingStates) ?_ ?_
    · refine (meets_getTableStateForDecoding hl).bind ?_
      rintro seen l' ⟨hl', -, hdecoders, -⟩
      exact meets_request_read hl'.waiting fun w _ _ _ => ⟨hl', hdecoders⟩
    · rintro previous l' ⟨hl', hdecoders⟩
      cases previous with
      | none => exact hl'.waiting
      | some previous =>
        have hpending : l'.tableDecodingStates tableId = some (.pendingRelation snapshotId none) := by
          rw [hdecoders, ← hstate]
        exact meets_materializePending hl' hpending (by rintro m ⟨⟩)
  · exact meets_restoreSyncDoneDecoder hl hstate.symm

end Decoders

/-! ## What the handlers do -/

namespace ApplyLoop

structure Committing (flags : Int) (commitLsn endLsn : PgLsn) (timestamp : Int) (l : ApplyLoop) :
    Prop where
  handling : l.handling = some (.commit flags commitLsn endLsn timestamp)
  waiting : l.waiting = none
  live : l.live = true
  tx : l.tx = some commitLsn
  remoteFinal : l.state.remoteFinalLsn = none
  stopping : l.stopping = true → l.state.exitIntent ≠ none
  incomplete : l.workerType = .apply → l.state.exitIntent ≠ some .complete
  below : ∀ tableId, l.workerType = .tableSync tableId → l.Below ∧ l.done = false
  reached : ∀ tableId, l.workerType = .tableSync tableId →
    l.state.exitIntent ≠ some .complete ∧ endLsn < l.target ∨
      l.state.exitIntent = some .complete ∧ l.target ≤ endLsn

structure AtCommit (flags : Int) (commitLsn endLsn : PgLsn) (timestamp : Int) (l : ApplyLoop) :
    Prop where
  handling : l.handling = some (.commit flags commitLsn endLsn timestamp)
  waiting : l.waiting = none
  live : l.live = true
  tx : l.tx = some commitLsn
  remoteFinal : l.state.remoteFinalLsn = none
  ordinal : l.state.txOrdinal = ordinalAfter l.txMessages
  intake : l.state.exitIntent = none
  going : l.stopping = false
  below : ∀ tableId, l.workerType = .tableSync tableId → l.Below ∧ l.done = false

lemma SameCore.atCommit {l l' : ApplyLoop} {flags : Int} {commitLsn endLsn : PgLsn}
    {timestamp : Int} (h : SameCore l l') (hl : AtCommit flags commitLsn endLsn timestamp l) :
    AtCommit flags commitLsn endLsn timestamp l' where
  handling := h.handling.trans hl.handling
  waiting := h.waiting.trans hl.waiting
  live := h.live.trans hl.live
  tx := h.tx.trans hl.tx
  remoteFinal := h.remoteFinal.trans hl.remoteFinal
  ordinal := by
    rw [h.txOrdinal, h.txMessages]
    exact hl.ordinal
  intake := h.exit.trans hl.intake
  going := h.stopping.trans hl.going
  below tableId hworker := by
    have hb := hl.below tableId (h.workerType ▸ hworker)
    exact ⟨hb.1.congr h.commitEnd h.pending h.target, h.done.trans hb.2⟩

structure IsInner (data : LogicalReplicationMessage) (lsn : PgLsn) (event : Event) (l : ApplyLoop) :
    Prop where
  committed : event.committed? = none
  commitEnd : event.commitEnd? = none
  begins : data.isBoundary = true → event.begun?.isSome
  begun : ∀ begun, event.begun? = some begun →
    begun = lsn ∧ ∃ timestamp xid, data = .begin lsn timestamp xid
  keyed : event.eventSequenceKey?.isSome = data.isKeyed
  key : ∀ key, event.eventSequenceKey? = some key → key = ⟨lsn, ordinalAfter l.txMessages⟩
  decoder : ∀ schema, event.schema? = some schema → ∃ tableId, data.relId? = some tableId ∧
    l.tableDecodingStates tableId = some (.withSchema schema)

def Outcome (worker : WorkerType) (data : LogicalReplicationMessage) (result : HandleMessageResult)
    (l : ApplyLoop) : Prop :=
  match result.event with
  | none => l.Handles data ∧ l.tx = l.state.remoteFinalLsn ∧
      (l.tx.isSome → l.state.txOrdinal = ordinalAfter (l.txMessages ++ [data])) ∧
      data.isBoundary = false ∧ ∀ tableId, worker = .tableSync tableId → data.touches tableId = false
  | some (event, _) =>
    (∃ lsn, InTransaction data lsn l.txMessages l ∧ IsInner data lsn event l ∧ result.endLsn = none) ∨
    ∃ flags commitLsn endLsn timestamp,
      data = .commit flags commitLsn endLsn timestamp ∧
      event = .commit commitLsn (ordinalAfter l.txMessages) flags endLsn timestamp ∧
      result.endLsn = some endLsn ∧ Committing flags commitLsn endLsn timestamp l

lemma Outcome.noEvent {worker : WorkerType} {l : ApplyLoop} {data : LogicalReplicationMessage}
    {lsn : PgLsn} {before : List LogicalReplicationMessage} (hl : InTransaction data lsn before l)
    (hinner : data.isBoundary = false) (htouches : ∀ tableId, worker = .tableSync tableId → data.touches tableId = false) :
    Outcome worker data .noEvent l :=
  ⟨hl.toHandles, hl.tx.trans hl.remoteFinal.symm, fun _ => hl.messages ▸ hl.ordinal,
    hinner, htouches⟩

lemma Fresh.noEvent {worker : WorkerType} {l : ApplyLoop} {data : LogicalReplicationMessage}
    (hl : l.Fresh data) (hkeyed : data.isKeyed = false) (hinner : data.isBoundary = false)
    (htouches : ∀ tableId, data.touches tableId = false) : Outcome worker data .noEvent l := by
  refine ⟨hl.toHandles, hl.tx, fun h => ?_, hinner, fun tableId _ => htouches tableId⟩
  rw [ordinalAfter_append, hkeyed]
  exact hl.ordinal h

end ApplyLoop

section Handlers

variable {worker : WorkerType} {l : ApplyLoop} {data : LogicalReplicationMessage}

lemma meets_remoteFinalLsn {k : PgLsn → Task HandleMessageResult} (hl : l.Fresh data)
    (hk : ∀ lsn, Entering data lsn l.txMessages l → Meets worker (k lsn) (Outcome worker data) l) :
    Meets worker (do
      match ← readLoop (·.state.remoteFinalLsn) with
      | none => .fail invalidTransactionState
      | some lsn => k lsn) (Outcome worker data) l := by
  refine (meets_readLoop (Q := fun r l' => r = l.state.remoteFinalLsn ∧ l = l')
    fun _ => ⟨rfl, rfl⟩).bind ?_
  rintro r l' ⟨rfl, rfl⟩
  cases hfinal : l.state.remoteFinalLsn with
  | none => exact hl.waiting
  | some lsn => exact hk lsn (hl.entering hfinal)

lemma meets_handleMessage (config : Config) {body : MessageBody} (hl : l.Fresh (.message body)) :
    Meets worker (handleMessage config body) (Outcome worker (.message body)) l := by
  refine Prog.sat_ite (fun _ => hl.noEvent rfl rfl fun _ => rfl) fun htag => ?_
  refine (meets_readLoop (Q := fun r l' => r = l.state.remoteFinalLsn ∧ l = l')
    fun _ => ⟨rfl, rfl⟩).bind ?_
  rintro r l' ⟨hr, rfl⟩
  split
  · exact hl.waiting
  · exact hl.waiting
  · rename_i lsn change hcontent
    have hin : InTransaction (.message body) lsn l.txMessages l := (hl.entering hr.symm).inTransaction rfl
    refine Prog.sat_ite (fun _ => .noEvent hin rfl fun _ _ => rfl) fun _ => ?_
    refine (meets_shouldApplyChanges hin).bind ?_
    rintro ready l₁ ⟨hready, hnot⟩
    refine Prog.sat_ite (fun h => ?_) fun h => ?_
    · have hl₁ := hready h
      have htag' : body.tag = ddlMessageTag := not_not.1 htag
      refine (meets_modifyLoop (Q := fun _ l₂ => Decoding (.message body) lsn l.txMessages change.oid l₂ ∧
        (l₂.tableDecodingStates change.oid).map (·.snapshotId) = some ⟨lsn, body.messageLsn⟩)
        (fun w _ => .ddl l₁ w body change lsn hl₁.handling hcontent htag' hl₁.remoteFinal hl₁.tx
          hl₁.owner) fun _ => ⟨(l₁.sameCore_setDecoder _ _).decoding hl₁ rfl, ?_⟩).bind ?_
      · simp [setDecoder]
      · rintro - l₂ ⟨hl₂, hdecoder⟩
        refine (meets_request (Q := fun _ => Decoding (.message body) lsn l.txMessages change.oid)
          hl₂.waiting (fun _ _ _ => hl₂.waiting) fun w _ => ⟨.storeDdl l₂ w body change lsn hl₂.handling hcontent htag' hl₂.remoteFinal hl₂.tx
            hl₂.owner hdecoder, fun _ _ => hl₂⟩).bind ?_
        intro _ l₃ hl₃
        exact .noEvent hl₃.toInTransaction rfl fun _ _ => rfl
    · exact .noEvent (hnot (by simpa using h)).1 rfl fun _ _ => rfl

lemma meets_handleBeginMessage {finalLsn : PgLsn} {timestamp : Int} {xid : Nat}
    (hl : l.Handles (.begin finalLsn timestamp xid)) (htx : l.tx = some finalLsn)
    (hmessages : l.txMessages = []) :
    Meets worker (handleBeginMessage finalLsn timestamp xid)
      (Outcome worker (.begin finalLsn timestamp xid)) l := by
  refine Prog.Sat.bind (R := fun txOrdinal l' =>
    InTransaction (.begin finalLsn timestamp xid) finalLsn [] l' ∧ txOrdinal = 0) ?_ ?_
  · refine Prog.sat_act (fun w _ => .begin l w finalLsn _ htx) ⟨⟨⟨hl.handling, hl.waiting, hl.live,
      hl.intake, hl.going, ?_, hl.below⟩, htx, rfl, hmessages, rfl⟩, rfl⟩
    exact ⟨by rintro ⟨⟩, by rintro ⟨⟩, by rintro ⟨⟩⟩
  · rintro txOrdinal l' ⟨hl', rfl⟩
    refine .inl ⟨finalLsn, hl'.messages ▸ hl', ⟨rfl, rfl, fun _ => rfl, ?_, rfl, ?_, nofun⟩, rfl⟩
    · rintro begun ⟨⟩
      exact ⟨rfl, timestamp, xid, rfl⟩
    · rintro key ⟨⟩
      rw [hl'.messages]
      rfl

lemma meets_handleRelationMessage {body : RelationBody} (hl : l.Fresh (.relation body)) :
    Meets worker (handleRelationMessage body) (Outcome worker (.relation body)) l := by
  refine meets_remoteFinalLsn hl fun lsn hin =>
    (meets_shouldApplyChanges (hin.inTransaction rfl)).bind ?_
  rintro ready l₁ ⟨hready, hnot⟩
  refine Prog.sat_ite (fun h => ?_) fun h => .noEvent (hnot (by simpa using h)).1 rfl fun _ _ => rfl
  refine (meets_resolveRelationSchemaSelection (hready h)).bind ?_
  rintro selection l₂ ⟨hl₂, hselection⟩
  refine (meets_materializeRelationSchema hl₂ hselection).bind ?_
  rintro schema l₃ ⟨hl₃, hdecoder⟩
  refine .inl ⟨lsn, hl₃.messages ▸ hl₃, ⟨rfl, rfl, nofun, nofun, rfl, nofun, ?_⟩, rfl⟩
  rintro _ ⟨⟩
  exact ⟨body.relId, rfl, hdecoder⟩

structure IsRowEvent (schema : ReplicatedTableSchema) (lsn : PgLsn) (txOrdinal : Nat)
    (event : Event) : Prop where
  committed : event.committed? = none
  commitEnd : event.commitEnd? = none
  begun : event.begun? = none
  key : event.eventSequenceKey? = some ⟨lsn, txOrdinal⟩
  schema : event.schema? = some schema

lemma meets_handleRowMessage {tableId : TableId}
    {parse : ReplicatedTableSchema → PgLsn → Nat → Except EtlError Event} (hl : l.Fresh data)
    (hkeyed : data.isKeyed = true) (hinner : data.isBoundary = false)
    (hrelId : data.relId? = some tableId)
    (htouches : ∀ t, t ≠ tableId → data.touches t = false)
    (hparse : ∀ schema lsn txOrdinal event, parse schema lsn txOrdinal = .ok event →
      IsRowEvent schema lsn txOrdinal event) :
    Meets worker (handleRowMessage tableId parse) (Outcome worker data) l := by
  refine meets_remoteFinalLsn hl fun lsn hin => (meets_nextTxOrdinal hin hkeyed).bind ?_
  rintro txOrdinal l₁ ⟨hl₁, rfl⟩
  refine (meets_shouldApplyChanges hl₁).bind ?_
  rintro ready l₂ ⟨hready, hnot⟩
  refine Prog.sat_ite (fun h => ?_) fun h => ?_
  · refine (meets_getReplicatedTableSchema (hready h)).bind ?_
    rintro ⟨schema, relation⟩ l₃ ⟨hl₃, hdecoder⟩
    refine Prog.Sat.bind (R := fun event l' => l₃ = l' ∧
      IsRowEvent schema lsn (ordinalAfter l.txMessages) event)
      (Prog.sat_ofExcept (fun event hevent => ⟨rfl, hparse _ _ _ _ hevent⟩) fun _ _ => hl₃.waiting) ?_
    rintro event l₄ ⟨rfl, hevent⟩
    refine .inl ⟨lsn, hl₃.messages ▸ hl₃, ⟨hevent.committed, hevent.commitEnd, ?_, ?_, ?_, ?_, ?_⟩,
      rfl⟩
    · rw [hinner]
      nofun
    · rw [hevent.begun]
      nofun
    · rw [hevent.key, hkeyed]
      rfl
    · rw [hevent.key]
      rintro key ⟨⟩
      rw [hl₃.messages]
    · rw [hevent.schema]
      rintro _ ⟨⟩
      exact ⟨tableId, hrelId, hdecoder⟩
  · obtain ⟨hl₂, hworker⟩ := hnot (by simpa using h)
    refine .noEvent hl₂ hinner fun t ht => htouches t ?_
    rintro rfl
    exact hworker ht

section Parse

variable {codec : RowCodec} {schema : ReplicatedTableSchema} {lsn : PgLsn} {txOrdinal : Nat}
  {event : Event}

lemma isRowEvent_parseInsert {tuple : Tuple}
    (h : codec.parseInsert schema lsn txOrdinal tuple = .ok event) :
    IsRowEvent schema lsn txOrdinal event := by
  unfold RowCodec.parseInsert at h
  cases hrow : codec.convertTupleToRow schema tuple <;> rw [hrow] at h <;> cases h
  exact ⟨rfl, rfl, rfl, rfl, rfl⟩

lemma isRowEvent_parseUpdate {body : UpdateBody}
    (h : codec.parseUpdate schema lsn txOrdinal body = .ok event) :
    IsRowEvent schema lsn txOrdinal event := by
  unfold RowCodec.parseUpdate at h
  cases hold : codec.parseOldRow schema body.oldTuple body.keyTuple with
  | error e =>
    rw [hold] at h
    cases h
  | ok oldRow =>
    rw [hold] at h
    cases hrow : codec.convertUpdateTuple schema body.newTuple oldRow <;>
      simp only [bind, Except.bind, hrow] at h <;> cases h
    exact ⟨rfl, rfl, rfl, rfl, rfl⟩

lemma isRowEvent_parseDelete {body : DeleteBody}
    (h : codec.parseDelete schema lsn txOrdinal body = .ok event) :
    IsRowEvent schema lsn txOrdinal event := by
  unfold RowCodec.parseDelete at h
  cases hold : codec.parseOldRow schema body.oldTuple body.keyTuple <;> rw [hold] at h <;> cases h
  exact ⟨rfl, rfl, rfl, rfl, rfl⟩

end Parse

lemma meets_truncatedTables {lsn : PgLsn} {before : List LogicalReplicationMessage} (relIds : List TableId) (hl : InTransaction data lsn before l) :
    Meets worker (truncatedTables lsn relIds) (fun tables l' => InTransaction data lsn before l' ∧
      (tables = [] → ∀ tableId ∈ relIds, worker ≠ .tableSync tableId)) l := by
  induction relIds generalizing l with
  | nil => exact ⟨hl, by simp⟩
  | cons tableId rest ih =>
    refine (meets_shouldApplyChanges hl).bind ?_
    rintro ready l₁ ⟨hready, hnot⟩
    refine Prog.sat_ite (fun h => ?_) fun h => ?_
    · refine (meets_readLoop (Q := fun _ => InTransaction data lsn before)
        fun _ => (hready h).toInTransaction).bind ?_
      intro state l₂ hl₂
      refine Prog.Sat.bind (R := fun _ => InTransaction data lsn before)
        (Prog.sat_ofExcept (fun _ _ => hl₂) fun _ _ => hl₂.waiting) ?_
      intro schema l₃ hl₃
      refine (ih hl₃).bind ?_
      rintro schemas l₄ ⟨hl₄, -⟩
      exact ⟨hl₄, by simp⟩
    · obtain ⟨hl₁, hworker⟩ := hnot (by simpa using h)
      refine (ih hl₁).mono ?_ fun _ _ h => h
      rintro tables l₂ ⟨hl₂, htables⟩
      refine ⟨hl₂, fun hnil t ht => ?_⟩
      rcases List.mem_cons.1 ht with rfl | ht
      · exact hworker
      · exact htables hnil t ht

lemma meets_handleTruncateMessage {options : Int} {relIds : List TableId}
    (hl : l.Fresh (.truncate options relIds)) :
    Meets worker (handleTruncateMessage options relIds)
      (Outcome worker (.truncate options relIds)) l := by
  refine meets_remoteFinalLsn hl fun lsn hin => (meets_nextTxOrdinal hin rfl).bind ?_
  rintro txOrdinal l₁ ⟨hl₁, rfl⟩
  refine (meets_truncatedTables relIds hl₁).bind ?_
  rintro tables l₂ ⟨hl₂, htables⟩
  refine Prog.sat_ite (fun h => .noEvent hl₂ rfl fun t ht => ?_) fun _ => ?_
  · simp only [LogicalReplicationMessage.touches, decide_eq_false_iff_not]
    exact fun hmem => htables (by simpa using h) t hmem ht
  · refine .inl ⟨lsn, hl₂.messages ▸ hl₂, ⟨rfl, rfl, nofun, nofun, rfl, ?_, nofun⟩, rfl⟩
    rintro key ⟨⟩
    rw [hl₂.messages]

section Commit

variable {flags : Int} {commitLsn endLsn : PgLsn} {timestamp : Int}

lemma meets_workerAfterCommitEvent (hl : AtCommit flags commitLsn endLsn timestamp l) :
    Meets worker (workerAfterCommitEvent endLsn) (fun exitIntent l' =>
      exitIntent = none ∧ SameCore l l' ∧ (∀ tableId, worker = .tableSync tableId →
        endLsn < l.target) ∨
      exitIntent = some .pause ∧ worker = .apply ∧ (∃ l₁, SameCore l l₁ ∧
        l' = { l₁ with stopping := true }) ∨
      exitIntent = some .complete ∧ (∃ tableId, worker = .tableSync tableId) ∧
        l.target ≤ endLsn ∧ l = l') l := by
  refine meets_readWorkerType.bind ?_
  rintro kind l' ⟨rfl, hworker, rfl⟩
  cases kind with
  | apply =>
    refine (ApplyWorker.meets_processSyncingTablesAfterCommitEvent ⟨hl.live, hl.waiting, hl.going,
      .inl ⟨flags, commitLsn, timestamp, hl.handling, hl.tx, hl.remoteFinal⟩⟩).mono ?_ fun _ _ h => h
    rintro exitIntent l' ⟨listed, decoders, observed, ⟨rfl, rfl⟩ | ⟨rfl, rfl⟩⟩
    · exact .inl ⟨rfl, by constructor <;> rfl, fun _ h => nomatch h⟩
    · exact .inr (.inl ⟨rfl, rfl, _, by constructor <;> rfl, rfl⟩)
  | tableSync tableId =>
    refine (TableSyncWorker.meets_processSyncingTablesAfterCommitEvent_sync hl.live
      (hl.below tableId hworker).2).mono ?_ fun _ _ h => h
    rintro exitIntent l' ⟨rfl, ⟨rfl, hle⟩ | ⟨rfl, hlt⟩⟩
    · exact .inr (.inr ⟨rfl, ⟨tableId, rfl⟩, hle, rfl⟩)
    · exact .inl ⟨rfl, .refl l, fun _ _ => hlt⟩

lemma meets_processSyncingTablesAfterCommitEvent
    (hl : AtCommit flags commitLsn endLsn timestamp l) (hworker : l.workerType = worker) :
    Meets worker (processSyncingTablesAfterCommitEvent endLsn) (fun _ l' =>
      Committing flags commitLsn endLsn timestamp l' ∧
        l'.state.txOrdinal = ordinalAfter l'.txMessages) l := by
  refine (meets_workerAfterCommitEvent hl).bind ?_
  rintro exitIntent l' (⟨rfl, hcore, hlt⟩ | ⟨rfl, rfl, l₁, hcore, rfl⟩ | ⟨rfl, hsync, hle, rfl⟩)
  · refine (meets_recordExitIntent (by simp)).bind ?_
    rintro - l₂ rfl
    have hl' := hcore.atCommit hl
    have hnone : l'.state.exitIntent ≠ some .complete := by simp [hl'.intake]
    refine ⟨⟨hl'.handling, hl'.waiting, hl'.live, hl'.tx, hl'.remoteFinal, ?_, fun _ => hnone,
      hl'.below, fun tableId hw => .inl ⟨hnone, ?_⟩⟩, hl'.ordinal⟩
    · intro hstop
      rw [hl'.going] at hstop
      cases hstop
    · rw [hcore.target]
      exact hlt tableId ((hcore.workerType.trans hworker).symm.trans hw)
  · refine (meets_recordExitIntent (by simp)).bind ?_
    rintro - l₂ rfl
    have hl₁ := hcore.atCommit hl
    have hpause : (l₁.state.recordExitIntent (some .pause)).exitIntent = some .pause := by
      simp [ApplyLoopState.recordExitIntent, hl₁.intake]
    have hworker₁ : l₁.workerType = .apply := hcore.workerType.trans hworker
    refine ⟨⟨hl₁.handling, hl₁.waiting, hl₁.live, hl₁.tx, hl₁.remoteFinal, fun _ => ?_, fun _ => ?_,
      fun tableId hw => ?_, fun tableId hw => ?_⟩, hl₁.ordinal⟩
    · exact fun h => by cases hpause.symm.trans h
    · exact fun h => by cases hpause.symm.trans h
    · cases hworker₁.symm.trans hw
    · cases hworker₁.symm.trans hw
  · refine (meets_recordExitIntent fun _ => ⟨hsync, .inr (.inl ⟨flags, commitLsn, endLsn, timestamp,
      hl.handling, hl.remoteFinal, hle⟩)⟩).bind ?_
    rintro - l₂ rfl
    have hcomplete : (l.state.recordExitIntent (some .complete)).exitIntent = some .complete :=
      ApplyLoopState.recordExitIntent_eq_complete.2 (.inr rfl)
    obtain ⟨tableId, rfl⟩ := hsync
    refine ⟨⟨hl.handling, hl.waiting, hl.live, hl.tx, hl.remoteFinal, fun _ => ?_, fun hw => ?_,
      hl.below, fun _ _ => .inr ⟨hcomplete, hle⟩⟩, hl.ordinal⟩
    · exact fun h => by cases hcomplete.symm.trans h
    · cases hworker.symm.trans hw

lemma meets_handleCommitMessage (hl : l.Fresh (.commit flags commitLsn endLsn timestamp)) :
    Meets worker (handleCommitMessage flags commitLsn endLsn timestamp)
      (Outcome worker (.commit flags commitLsn endLsn timestamp)) l := by
  refine Prog.Sat.bind (R := fun r l' => l'.workerType = worker ∧ l'.waiting = none ∧
    (r = some commitLsn → AtCommit flags commitLsn endLsn timestamp l')) ?_ ?_
  · intro i w r l' w' hI hf
    cases hf
    refine ⟨.takeFinal l w flags timestamp commitLsn endLsn hl.handling hl.tx, hI.workerType,
      hl.waiting, fun hr => ?_⟩
    exact ⟨hl.handling, hl.waiting, hl.live, hl.tx.trans hr, rfl, (hl.entering hr).ordinal, hl.intake,
      hl.going, hl.below⟩
  · rintro r l₁ ⟨hworker, hwaiting, hl₁⟩
    cases r with
    | none => exact hwaiting
    | some remoteFinalLsn =>
      refine Prog.sat_ite (fun _ => hwaiting) fun heq => ?_
      obtain rfl : commitLsn = remoteFinalLsn := not_not.1 heq
      refine (meets_processSyncingTablesAfterCommitEvent (hl₁ rfl) hworker).bind ?_
      rintro endBatch l₂ ⟨hl₂, hordinal⟩
      refine Prog.Sat.bind (R := fun txOrdinal l' => Committing flags commitLsn endLsn timestamp l' ∧
        txOrdinal = ordinalAfter l'.txMessages) (Prog.sat_act (fun w _ => .count l₂ w _) ?_) ?_
      · exact ⟨⟨hl₂.handling, hl₂.waiting, hl₂.live, hl₂.tx, hl₂.remoteFinal, hl₂.stopping,
          hl₂.incomplete, hl₂.below, hl₂.reached⟩, hordinal⟩
      · rintro txOrdinal l₃ ⟨hl₃, rfl⟩
        exact .inr ⟨flags, commitLsn, endLsn, timestamp, rfl, rfl, rfl, hl₃⟩

end Commit

lemma meets_handleInsertMessage (codec : RowCodec) {relId : TableId} {tuple : Tuple}
    (hl : l.Fresh (.insert relId tuple)) :
    Meets worker (handleInsertMessage codec relId tuple)
      (Outcome worker (.insert relId tuple)) l := by
  refine meets_handleRowMessage hl rfl rfl rfl ?_ ?_
  · intro t ht
    simpa [LogicalReplicationMessage.touches] using ht.symm
  · intro schema lsn txOrdinal event h
    exact isRowEvent_parseInsert h

lemma meets_handleUpdateMessage (codec : RowCodec) {body : UpdateBody}
    (hl : l.Fresh (.update body)) :
    Meets worker (handleUpdateMessage codec body) (Outcome worker (.update body)) l := by
  refine meets_handleRowMessage hl rfl rfl rfl ?_ ?_
  · intro t ht
    simpa [LogicalReplicationMessage.touches] using ht.symm
  · intro schema lsn txOrdinal event h
    exact isRowEvent_parseUpdate h

lemma meets_handleDeleteMessage (codec : RowCodec) {body : DeleteBody}
    (hl : l.Fresh (.delete body)) :
    Meets worker (handleDeleteMessage codec body) (Outcome worker (.delete body)) l := by
  refine meets_handleRowMessage hl rfl rfl rfl ?_ ?_
  · intro t ht
    simpa [LogicalReplicationMessage.touches] using ht.symm
  · intro schema lsn txOrdinal event h
    exact isRowEvent_parseDelete h

lemma meets_handleLogicalReplicationMessage (config : Config)
    (hl : match data with
      | .begin finalLsn _ _ => l.Handles data ∧ l.tx = some finalLsn ∧ l.txMessages = []
      | _ => l.Fresh data) :
    Meets worker (handleLogicalReplicationMessage config data) (Outcome worker data) l := by
  cases data with
  | begin finalLsn timestamp xid => exact meets_handleBeginMessage hl.1 hl.2.1 hl.2.2
  | commit flags commitLsn endLsn timestamp => exact meets_handleCommitMessage hl
  | relation body => exact meets_handleRelationMessage hl
  | insert relId tuple =>
    exact meets_handleInsertMessage config.codec hl
  | update body =>
    exact meets_handleUpdateMessage config.codec hl
  | delete body =>
    exact meets_handleDeleteMessage config.codec hl
  | truncate options relIds => exact meets_handleTruncateMessage hl
  | message body => exact meets_handleMessage config hl
  | origin => exact hl.noEvent rfl rfl fun _ => rfl
  | typeInfo => exact hl.noEvent rfl rfl fun _ => rfl

end Handlers

/-! ## What buffering an event does -/

namespace ApplyLoop

variable {l : ApplyLoop} {data : LogicalReplicationMessage}

lemma Rest.handles (hrest : l.Rest) (hintake : l.state.exitIntent = none)
    (walStart walEnd : PgLsn) (data : LogicalReplicationMessage) :
    (l.receive (.xLogData walStart walEnd data)).Handles data where
  handling := rfl
  waiting := hrest.waiting
  live := hrest.live
  intake := hintake
  going := hrest.going hintake
  accounted := ⟨hrest.accounted.batch, hrest.accounted.write, hrest.accounted.interval⟩
  below tableId hworker :=
    ⟨(hrest.completion tableId hworker).below (by simp [hintake]),
      hrest.done_eq_false hworker hintake⟩

lemma Handles.skip (hl : l.Handles data) (htx : l.tx = l.state.remoteFinalLsn)
    (hordinal : l.tx.isSome → l.state.txOrdinal = ordinalAfter (l.txMessages ++ [data])) :
    (l.handle data).Rest where
  handling := rfl
  tx := htx
  waiting := hl.waiting
  ordinal := hordinal
  live := hl.live
  stopping h := absurd (h.symm.trans hl.going) (by simp)
  accounted := ⟨hl.accounted.batch, hl.accounted.write, hl.accounted.interval⟩
  completion tableId hworker :=
    ⟨fun _ => (hl.below tableId hworker).1, fun h => absurd (h.symm.trans hl.intake) (by simp),
      fun h => absurd (h.symm.trans (hl.below tableId hworker).2) (by simp)⟩
  incomplete _ h := absurd (h.symm.trans hl.intake) (by simp)
  terminal _ _ h := absurd (h.symm.trans hl.intake) (by simp)

lemma InTransaction.push {lsn : PgLsn} {p : Produced}
    (hl : InTransaction p.source lsn l.txMessages l) (hcommitted : p.event.committed? = none) (hend : p.event.commitEnd? = none) (x : Inert) :
    (l.push p x).Rest where
  handling := rfl
  tx := by simp [ApplyLoop.push, hcommitted, hl.tx, ApplyLoopState.touch, ApplyLoopState.buffer,
    hl.remoteFinal]
  waiting := hl.waiting
  ordinal _ := hl.ordinal
  live := hl.live
  stopping h := absurd (h.symm.trans hl.going) (by simp)
  accounted :=
    ⟨fun h => absurd (h.symm.trans hl.remoteFinal) (by simp),
      fun h => absurd (h.symm.trans hl.remoteFinal) (by simp),
      fun h => absurd (h.symm.trans hl.remoteFinal) (by simp)⟩
  completion tableId hworker := by
    obtain ⟨hbelow, hdone⟩ := hl.below tableId hworker
    refine ⟨fun _ => ⟨fun lsn hlsn => ?_, hbelow.2⟩,
      fun h => absurd (h.symm.trans hl.intake) (by simp),
      fun h => absurd (h.symm.trans hdone) (by simp)⟩
    rcases (ApplyLoopState.laterCommitEnd_eq_some hlsn).1 with h | h
    · exact hbelow.1 lsn h
    · rw [hend] at h
      cases h
  incomplete _ h := absurd (h.symm.trans hl.intake) (by simp)
  terminal _ _ h := absurd (h.symm.trans hl.intake) (by simp)

lemma Committing.push {flags : Int} {commitLsn endLsn : PgLsn} {timestamp : Int}
    (hl : Committing flags commitLsn endLsn timestamp l) {p : Produced}
    (hcommitted : p.event.committed? = some commitLsn) (hend : p.event.commitEnd? = some endLsn)
    (x : Inert) : (l.push p x).Rest := by
  obtain ⟨last, hlast⟩ : ∃ last, ApplyLoopState.laterCommitEnd l.state.lastCommitEndLsn
      p.event.commitEnd? = some last := by
    refine Option.ne_none_iff_exists'.1 fun hnone => ?_
    rw [hend] at hnone
    cases (ApplyLoopState.laterCommitEnd_eq_none_iff.1 hnone).2
  have hlast' : (l.push p x).state.lastCommitEndLsn = some last := hlast
  have hle : endLsn ≤ last := (ApplyLoopState.laterCommitEnd_eq_some hlast).2.2 endLsn (by simp [hend])
  have hsome : (l.push p x).state.lastCommitEndLsn ≠ none := by simp [hlast']
  exact
    { handling := rfl
      tx := by simp [ApplyLoop.push, hcommitted, ApplyLoopState.touch, ApplyLoopState.buffer,
        hl.remoteFinal]
      waiting := hl.waiting
      ordinal := by simp [ApplyLoop.push, hcommitted]
      live := hl.live
      stopping := hl.stopping
      accounted := ⟨fun _ _ => hsome, fun _ _ _ _ => .inr hsome, fun _ _ => .inl hsome⟩
      completion := fun tableId hworker => by
        obtain ⟨hbelow, hdone⟩ := hl.below tableId hworker
        refine ⟨fun hexit => ⟨fun lsn hlsn => ?_, hbelow.2⟩, fun _ => hl.remoteFinal,
          fun h => absurd (h.symm.trans hdone) (by simp)⟩
        rcases (ApplyLoopState.laterCommitEnd_eq_some hlsn).1 with h | h
        · exact hbelow.1 lsn h
        · rw [hend] at h
          cases h
          exact ((hl.reached tableId hworker).resolve_right fun h => hexit h.1).2
      incomplete := hl.incomplete
      terminal := fun tableId hworker hexit => by
        have hreached := ((hl.reached tableId hworker).resolve_left fun h => h.1 hexit).2
        refine .inr (.inl ⟨?_, ⟨last, hlast', hreached.trans hle⟩,
          (hl.below tableId hworker).1.2⟩)
        simp [ApplyLoop.push, ApplyLoopState.touch, ApplyLoopState.buffer] }

end ApplyLoop

section Buffer

variable {worker : WorkerType} {l : ApplyLoop} {data : LogicalReplicationMessage}

private def armed (l : ApplyLoop) : Inert := { l.state.inert with flushDeadline := true }

private lemma tended_armed (p : Produced) (htended : l.state.Tended) :
    (l.push p (armed l)).state.Tended where
  paused h := ⟨(htended.paused h).1, by
    simp [ApplyLoopState.hasPendingBatch, ApplyLoop.push, ApplyLoopState.touch,
      ApplyLoopState.buffer]⟩
  batch _ := rfl
  interval _ _ := rfl

lemma meets_bufferEvent {result : HandleMessageResult} (hl : Outcome worker data result l) :
    Meets worker (bufferEvent data result) (fun _ => Rest) l := by
  refine Prog.sat_atom ?_
  intro i w _ l' w' hI hf
  unfold Outcome at hl
  cases hevent : result.event with
  | none =>
    simp only [hevent] at hl hf
    cases hf
    obtain ⟨hl, htx, hordinal, hinner, htouches⟩ := hl
    refine ⟨.skip l w data hl.handling htx hinner fun tableId hw => htouches tableId ?_,
      hl.skip htx hordinal⟩
    exact hI.workerType.symm.trans hw
  | some e =>
    obtain ⟨event, relation⟩ := e
    simp only [hevent] at hl hf
    cases hf
    rcases hl with ⟨lsn, hl, hevent, hendLsn⟩ |
      ⟨flags, commitLsn, endLsn, timestamp, rfl, rfl, hendLsn, hl⟩
    · rw [show result.endLsn = event.commitEnd? from hendLsn.trans hevent.commitEnd.symm]
      refine ⟨.push l w (l.produce data event relation) (armed l) hl.live hl.handling rfl
        (by simp [hl.tx]) rfl hevent.keyed ?_ hevent.decoder (fun h => .inl (hevent.begins h)) ?_ ?_ ?_ ?_
        (tended_armed _), hl.push (p := l.produce data event relation) hevent.committed hevent.commitEnd (armed l)⟩
      · intro key hkey
        rw [hevent.key key hkey]
        exact ⟨hl.tx, rfl⟩
      · intro begun hb
        obtain ⟨rfl, hsource⟩ := hevent.begun begun hb
        exact ⟨hl.tx, hsource⟩
      · intro c hc
        exact nomatch hevent.committed.symm.trans hc
      · exact fun _ => hl.tx.trans hl.remoteFinal.symm
      · intro tableId _ endLsn he
        exact nomatch hevent.commitEnd.symm.trans he
    · rw [hendLsn]
      refine ⟨.push l w (l.produce _ _ relation) (armed l) hl.live hl.handling rfl (by simp [hl.tx])
        rfl rfl ?_ nofun (fun _ => .inr rfl) ?_ ?_ ?_ ?_ (tended_armed _),
        hl.push (p := l.produce _ _ relation) rfl rfl (armed l)⟩
      · rintro key ⟨⟩
        exact ⟨hl.tx, rfl⟩
      · rintro begun ⟨⟩
      · rintro c ⟨⟩
        exact ⟨hl.tx, hl.remoteFinal, flags, endLsn, timestamp, rfl, rfl⟩
      · rintro ⟨⟩
      · rintro tableId hw _ ⟨⟩
        exact (hl.reached tableId hw).imp (·.2) id

lemma meets_flushIfNeeded (endBatch : Bool) (hrest : l.Rest) :
    Meets worker (flushIfNeeded endBatch) (fun _ => Rest) l := by
  refine Prog.Sat.bind (R := fun _ => Rest) (Prog.sat_atom ?_) ?_
  · intro i w b l' w' _ hf
    cases hf
    exact ⟨.idle l w, hrest⟩
  · intro full l' hrest'
    exact Prog.sat_ite (fun _ => meets_flushBatch hrest') fun _ => hrest'

lemma meets_handleReplicationMessageAndFlush (config : Config) (hrest : l.Rest)
    (hintake : l.state.exitIntent = none) (m : ReplicationMessage) :
    Meets worker (handleReplicationMessageAndFlush config m) (fun _ => Rest) (l.receive m) := by
  cases m with
  | xLogData walStart walEnd data =>
    refine Prog.Sat.bind (R := Outcome worker data)
      (meets_handleLogicalReplicationMessage config ?_) ?_
    · have hhandles := hrest.handles hintake walStart walEnd data
      cases data
      case begin => exact ⟨hhandles, rfl, rfl⟩
      all_goals exact ⟨hhandles, hrest.tx, hrest.ordinal⟩
    · intro result l₁ hl₁
      refine (meets_bufferEvent hl₁).bind ?_
      intro _ l₂ hrest₂
      exact meets_flushIfNeeded result.endBatch hrest₂
  | primaryKeepAlive walEnd reply =>
    have hcore : SameCore l (l.receive (.primaryKeepAlive walEnd reply)) := by
      refine ⟨rfl, hrest.handling.symm, rfl, rfl, rfl, rfl, rfl, rfl, rfl, rfl, rfl, rfl, rfl, rfl, rfl,
        rfl, ?_⟩
      exact le_max_left _ _
    refine (meets_sendStatusUpdate_rest reply (hcore.rest hrest)).bind ?_
    intro _ l₁ hrest₁
    exact meets_flushIfNeeded false hrest₁

end Buffer

end Etl
