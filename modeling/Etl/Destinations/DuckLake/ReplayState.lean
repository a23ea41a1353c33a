import Etl.Destinations.SourceHistory

/-!
# The replay state of DuckLake tables

Replay epochs, frontiers and copy markers live in helper tables under one text, `schema.table`; the
cache of frontiers and the tables are under the pair of names. `Lake.step` is one step of the work
on a table, in any interleaving with the work on others.
-/

namespace Etl.DuckLake

/-! ## Names -/

structure DuckLakeTableName where
  schema : String
  table : String
deriving DecidableEq

namespace DuckLakeTableName

def fromSource (tableName : TableName) : DuckLakeTableName :=
  ⟨tableName.schema, tableName.name⟩

def id (name : DuckLakeTableName) : String :=
  name.schema ++ "." ++ name.table

def isInternalHelper (name : DuckLakeTableName) : Bool :=
  (name.table.toList.take 6).map Char.toLower = "__etl_".toList

end DuckLakeTableName

def validateDucklakeTableName (name : DuckLakeTableName) : Except EtlError Unit :=
  if name.isInternalHelper then
    .error ⟨.invalidState, "DuckLake destination table uses a reserved ETL helper name"⟩
  else .ok ()

/-- `map_new_table_name`, with the mapping of an embedding host if there is one. -/
def mapNewTableName (tableNameMapper : Option (TableName → Except EtlError DuckLakeTableName))
    (source : TableName) : Except EtlError DuckLakeTableName := do
  let name ← match tableNameMapper with
    | some map => map source
    | none => .ok (.fromSource source)
  validateDucklakeTableName name
  return name

def eqIgnoreAsciiCase (a b : String) : Bool :=
  a.toList.map Char.toLower = b.toList.map Char.toLower

def ensureUniqueTableIdentity (owners : List (TableId × DuckLakeTableName)) (tableId : TableId)
    (name : DuckLakeTableName) : Except EtlError Unit := do
  validateDucklakeTableName name
  if owners.any fun owner => owner.1 ≠ tableId && eqIgnoreAsciiCase owner.2.schema name.schema &&
      eqIgnoreAsciiCase owner.2.table name.table then
    throw ⟨.invalidState, "DuckLake destination table is already owned by another source"⟩

/-! ## Operations of the stream -/

inductive TableMutation where
  | insert (row : TableRow)
  | delete (row : OldTableRow)
  | update (deleteRow : OldTableRow) (newRow : UpdatedTableRow)
  | replace (row : TableRow)
deriving DecidableEq

inductive StreamOperation where
  | mutation (mutation : TableMutation)
  | truncate (options : Int)
deriving DecidableEq

structure TrackedOperation where
  sequenceKey : EventSequenceKey
  operation : StreamOperation
deriving DecidableEq

/-- Mutations under one schema, or truncations in a row. -/
inductive SegmentKind where
  | mutations
  | truncates
deriving DecidableEq

structure Segment where
  kind : SegmentKind
  operations : List TrackedOperation
deriving DecidableEq

structure TableBatch where
  replayEpoch : String
  operations : List TrackedOperation
deriving DecidableEq

namespace TableBatch

def firstSequenceKey (batch : TableBatch) : Option EventSequenceKey :=
  batch.operations.head?.map (·.sequenceKey)

def lastSequenceKey (batch : TableBatch) : Option EventSequenceKey :=
  batch.operations.getLast?.map (·.sequenceKey)

end TableBatch

def retainAfterSequenceKey (operations : List TrackedOperation) :
    Option EventSequenceKey → List TrackedOperation
  | some lastSequenceKey => operations.filter fun op => lastSequenceKey.Before op.sequenceKey
  | none => operations

inductive StreamingReplayDecision where
  | apply
  | skip
deriving DecidableEq

def streamingReplayDecision (progress : EventSequenceKey) (batch : TableBatch) :
    Except EtlError StreamingReplayDecision :=
  match batch.firstSequenceKey, batch.lastSequenceKey with
  | none, _ =>
    .error ⟨.invalidState, "DuckLake streaming batch is missing its first sequence key"⟩
  | _, none =>
    .error ⟨.invalidState, "DuckLake streaming batch is missing its last sequence key"⟩
  | some first, some last =>
    if progress.Before first then .ok .apply
    else if progress.Before last then
      .error ⟨.invalidState, "DuckLake streaming progress landed inside an atomic batch"⟩
    else .ok .skip

/-! ## The state of the lake and of the writer -/

structure EpochRow where
  replayEpoch : String
  pendingReplayEpoch : Option String
deriving DecidableEq

structure ProgressRow where
  tableName : String
  replayEpoch : Option String
  lastSequenceKey : EventSequenceKey
deriving DecidableEq

structure MarkerRow where
  tableName : String
  replayEpoch : Option String
  batchId : String
deriving DecidableEq

structure KnownFrontier where
  replayEpoch : String
  lastSequenceKey : Option EventSequenceKey
deriving DecidableEq

inductive TableEffect where
  | copied (batchId : String)
  | applied (operation : TrackedOperation)
deriving DecidableEq

inductive Task where
  | idle
  | writing (segments : List Segment)
  | pending (replayEpoch : String) (kind : SegmentKind) (operations : List TrackedOperation)
      (segments : List Segment)
  /-- A batch before its next attempt, with the frontier if it is known. -/
  | attempting (batch : TableBatch) (known : Option EventSequenceKey) (kind : SegmentKind)
      (operations : List TrackedOperation) (segments : List Segment)
  | resetting (pendingReplayEpoch : String)
  /-- A reset after its transaction. -/
  | reset (pendingReplayEpoch : String)
deriving DecidableEq

structure Lake where
  epochs : String → Option EpochRow
  progress : String → List ProgressRow
  markers : List MarkerRow
  contents : DuckLakeTableName → List TableEffect
  cache : DuckLakeTableName → Option KnownFrontier
  tasks : DuckLakeTableName → Task

def legacyReplayEpoch : String := "__legacy__"

def sharedStreamingProgressTable : String := "__etl_streaming_progress"

def legacyTable (progressTable : String) : Option String :=
  if progressTable ≠ sharedStreamingProgressTable then some sharedStreamingProgressTable else none

def writtenTables (progressTable : String) : List String :=
  progressTable :: (legacyTable progressTable).toList

def laterKey (a b : EventSequenceKey) : EventSequenceKey :=
  if a.Before b then b else a

def latestKey (keys : List EventSequenceKey) : Option EventSequenceKey :=
  keys.foldl (fun best key => some ((best.map (laterKey · key)).getD key)) none

namespace Lake

def empty : Lake where
  epochs _ := none
  progress _ := []
  markers := []
  contents _ := []
  cache _ := none
  tasks _ := .idle

section

variable (lake : Lake) (name : DuckLakeTableName)

def setTask (task : Task) : Lake := { lake with tasks := Function.update lake.tasks name task }

def cacheGet (replayEpoch : String) : Option (Option EventSequenceKey) :=
  ((lake.cache name).filter (·.replayEpoch = replayEpoch)).map (·.lastSequenceKey)

def cacheRecord (replayEpoch : String) (lastSequenceKey : Option EventSequenceKey) : Lake :=
  { lake with cache := Function.update lake.cache name (some ⟨replayEpoch, lastSequenceKey⟩) }

def cacheForget : Lake := { lake with cache := Function.update lake.cache name none }

def readTableReplayEpoch : String :=
  ((lake.epochs name.id).map (·.replayEpoch)).getD legacyReplayEpoch

/-- A row is inserted, or a transition that has begun is kept. -/
def beginEpochRow (newReplayEpoch : String) : EpochRow :=
  match lake.epochs name.id with
  | none => ⟨legacyReplayEpoch, some newReplayEpoch⟩
  | some row => { row with pendingReplayEpoch := some (row.pendingReplayEpoch.getD newReplayEpoch) }

def setEpoch (row : EpochRow) : Lake :=
  { lake with epochs := Function.update lake.epochs name.id (some row) }

def completeEpochRow (pendingReplayEpoch : String) : Option EpochRow :=
  (lake.epochs name.id).bind fun row =>
    if row.pendingReplayEpoch = some pendingReplayEpoch ∨
        row.pendingReplayEpoch = none ∧ row.replayEpoch = pendingReplayEpoch then
      some ⟨pendingReplayEpoch, none⟩
    else none

def readStreamingProgressFrom (progressTable replayEpoch : String) : Option EventSequenceKey :=
  latestKey (((lake.progress progressTable).filter fun row => row.tableName = name.id &&
    row.replayEpoch.getD legacyReplayEpoch = replayEpoch).map (·.lastSequenceKey))

def readTableStreamingProgress (progressTable replayEpoch : String) : Option EventSequenceKey :=
  let own := lake.readStreamingProgressFrom name progressTable replayEpoch
  match legacyTable progressTable with
  | none => own
  | some legacy =>
    match own, lake.readStreamingProgressFrom name legacy replayEpoch with
    | some own, some legacy => some (laterKey own legacy)
    | none, legacy => legacy
    | own, none => own

def updateTableStreamingProgress (progressTable replayEpoch : String)
    (lastSequenceKey : EventSequenceKey) : Lake :=
  { lake with progress := fun table =>
      if table ∈ writtenTables progressTable then
        lake.progress table ++ [⟨name.id, some replayEpoch, lastSequenceKey⟩]
      else lake.progress table }

def appliedBatchMarkerIdExists (replayEpoch batchId : String) : Bool :=
  lake.markers.any fun row => row.tableName = name.id &&
    row.replayEpoch.getD legacyReplayEpoch = replayEpoch && row.batchId = batchId

def insertAppliedBatchMarker (replayEpoch batchId : String) : Lake :=
  { lake with markers := lake.markers ++ [⟨name.id, some replayEpoch, batchId⟩] }

def setContents (contents : List TableEffect) : Lake :=
  { lake with contents := Function.update lake.contents name contents }

def commitBatch (progressTable : String) (batch : TableBatch) : Lake :=
  let applied := lake.setContents name
    (lake.contents name ++ batch.operations.map TableEffect.applied)
  match batch.lastSequenceKey with
  | some key => applied.updateTableStreamingProgress name progressTable batch.replayEpoch key
  | none => applied

def commitCopy (replayEpoch batchId : String) : Lake :=
  (lake.setContents name (lake.contents name ++ [.copied batchId])).insertAppliedBatchMarker name
    replayEpoch batchId

end

end Lake

/-! ## Steps -/

inductive Attempt where
  | lands
  /-- It has landed, but an error is reported. -/
  | ambiguous
  /-- Nothing has landed. -/
  | fails
deriving DecidableEq

inductive TableStep where
  | startCall (segments : List Segment)
  /-- `read_table_replay_cursor`, then the filter of the next segment. -/
  | readCursor
  /-- Truncations are always one batch. -/
  | startBatch (count : Nat)
  /-- An attempt of `apply_table_batch_with_retry`. -/
  | attempt (attempt : Attempt)
  | returnOk
  /-- The work ends with an error, at any point. -/
  | giveUp
  | copyBatch (batchId : String) (attempt : Attempt)
  /-- The parts of `drop_table_for_copy_inner` and `truncate_table_inner`. -/
  | beginReset (newReplayEpoch : String)
  | commitReset
  | completeReset
deriving DecidableEq

namespace Lake

variable (progressTable : String) (lake : Lake) (name : DuckLakeTableName)

def readFrontier (replayEpoch : String) : Option EventSequenceKey × Lake :=
  match lake.cacheGet name replayEpoch with
  | some known => (known, lake)
  | none =>
    let durable := lake.readTableStreamingProgress name progressTable replayEpoch
    (durable, lake.cacheRecord name replayEpoch durable)

def readCursor (segment : Segment) (segments : List Segment) : Lake :=
  let replayEpoch := lake.readTableReplayEpoch name
  let (lastSequenceKey, lake) := lake.readFrontier progressTable name replayEpoch
  let pending := retainAfterSequenceKey segment.operations lastSequenceKey
  if pending = [] then lake.setTask name (.writing segments)
  else lake.setTask name (.pending replayEpoch segment.kind pending segments)

def afterBatch (replayEpoch : String) (kind : SegmentKind) (operations : List TrackedOperation)
    (segments : List Segment) : Task :=
  if operations = [] then .writing segments else .pending replayEpoch kind operations segments

def startBatch (count : Nat) (replayEpoch : String) (kind : SegmentKind)
    (operations : List TrackedOperation) (segments : List Segment) : Lake :=
  let count := if kind = .truncates then operations.length else count
  if operations.take count = [] then lake
  else
    (lake.cacheForget name).setTask name
      (.attempting ⟨replayEpoch, operations.take count⟩ (lake.cacheGet name replayEpoch).join kind
        (operations.drop count) segments)

section

variable (batch : TableBatch) (kind : SegmentKind) (operations : List TrackedOperation)
  (segments : List Segment)

def retryBatch : Lake := lake.setTask name (.attempting batch none kind operations segments)

def finishBatch (frontier : Option EventSequenceKey) : Lake :=
  (lake.cacheRecord name batch.replayEpoch frontier).setTask name
    (afterBatch batch.replayEpoch kind operations segments)

def transactBatch (attempt : Attempt) : Lake :=
  let committed := lake.commitBatch name progressTable batch
  if attempt = .lands then
    committed.finishBatch name batch kind operations segments batch.lastSequenceKey
  else committed.retryBatch name batch kind operations segments

def attemptProgress (known : Option EventSequenceKey) : Option EventSequenceKey :=
  match known with
  | some key => some key
  | none => lake.readTableStreamingProgress name progressTable batch.replayEpoch

def attemptBatch (attempt : Attempt) (known : Option EventSequenceKey) : Lake :=
  if attempt = .fails then lake.retryBatch name batch kind operations segments
  else
    match lake.attemptProgress progressTable name batch known with
    | none => lake.transactBatch progressTable name batch kind operations segments attempt
    | some key =>
      match streamingReplayDecision key batch with
      | .error _ => lake.retryBatch name batch kind operations segments
      | .ok .skip => lake.finishBatch name batch kind operations segments (some key)
      | .ok .apply => lake.transactBatch progressTable name batch kind operations segments attempt

end

/-- A batch with a marker is not written again. -/
def copyBatch (batchId : String) (attempt : Attempt) : Lake :=
  let replayEpoch := lake.readTableReplayEpoch name
  if lake.appliedBatchMarkerIdExists name replayEpoch batchId ∨ attempt = .fails then lake
  else lake.commitCopy name replayEpoch batchId

def beginReset (newReplayEpoch : String) : Lake :=
  let row := lake.beginEpochRow name newReplayEpoch
  ((lake.cacheForget name).setEpoch name row).setTask name
    (.resetting (row.pendingReplayEpoch.getD newReplayEpoch))

def completeReset (pendingReplayEpoch : String) : Lake :=
  match lake.completeEpochRow name pendingReplayEpoch with
  | some row => (lake.setEpoch name row).setTask name .idle
  | none => lake.setTask name .idle

def step : TableStep → Lake
  | .startCall segments =>
    match lake.tasks name with
    | .idle => lake.setTask name (.writing segments)
    | _ => lake
  | .readCursor =>
    match lake.tasks name with
    | .writing (segment :: segments) => lake.readCursor progressTable name segment segments
    | _ => lake
  | .startBatch count =>
    match lake.tasks name with
    | .pending replayEpoch kind operations segments =>
      lake.startBatch name count replayEpoch kind operations segments
    | _ => lake
  | .attempt attempt =>
    match lake.tasks name with
    | .attempting batch known kind operations segments =>
      lake.attemptBatch progressTable name batch kind operations segments attempt known
    | _ => lake
  | .returnOk =>
    match lake.tasks name with
    | .writing [] => lake.setTask name .idle
    | _ => lake
  | .giveUp => lake.setTask name .idle
  | .copyBatch batchId attempt =>
    match lake.tasks name with
    | .idle => lake.copyBatch name batchId attempt
    | _ => lake
  | .beginReset newReplayEpoch =>
    match lake.tasks name with
    | .idle => lake.beginReset name newReplayEpoch
    | _ => lake
  | .commitReset =>
    match lake.tasks name with
    | .resetting pendingReplayEpoch =>
      (lake.setContents name []).setTask name (.reset pendingReplayEpoch)
    | _ => lake
  | .completeReset =>
    match lake.tasks name with
    | .reset pendingReplayEpoch => lake.completeReset name pendingReplayEpoch
    | _ => lake

end Lake

inductive Move where
  | table (name : DuckLakeTableName) (step : TableStep)
  | restart
deriving DecidableEq

namespace Lake

def restart (lake : Lake) : Lake := { lake with cache := fun _ => none, tasks := fun _ => .idle }

def move (progressTable : String) (lake : Lake) : Move → Lake
  | .table name step => lake.step progressTable name step
  | .restart => lake.restart

def run (progressTable : String) (lake : Lake) (moves : List Move) : Lake :=
  moves.foldl (move progressTable) lake

end Lake

end Etl.DuckLake
