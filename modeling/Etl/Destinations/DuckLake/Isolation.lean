import Etl.Destinations.DuckLake.ReplayState

/-!
# What DuckLake tables share

The rows under one text (`ReplayRows`) and what is kept under a pair of names (`OwnState`) are all
that belongs to a table: work on it reads nothing else (`Lake.Agree.step`) and changes nothing else
(`Lake.Frame.step`). Different tables may have the same text (`independent_iff_id_ne`).
-/

namespace Etl.DuckLake

/-! ## What belongs to a table -/

@[ext]
structure ReplayRows where
  epoch : Option EpochRow
  progress : String → List ProgressRow
  markers : List MarkerRow

@[ext]
structure OwnState where
  contents : List TableEffect
  cache : Option KnownFrontier
  task : Task

@[ext]
structure TableView where
  rows : ReplayRows
  own : OwnState

namespace Lake

def replayRows (lake : Lake) (id : String) : ReplayRows where
  epoch := lake.epochs id
  progress table := (lake.progress table).filter (·.tableName = id)
  markers := lake.markers.filter (·.tableName = id)

def ownState (lake : Lake) (name : DuckLakeTableName) : OwnState :=
  ⟨lake.contents name, lake.cache name, lake.tasks name⟩

def view (lake : Lake) (name : DuckLakeTableName) : TableView :=
  ⟨lake.replayRows name.id, lake.ownState name⟩

/-! ### Each change of the lake -/

section

variable (lake : Lake) {name other : DuckLakeTableName} {id : String}

@[simp]
lemma replayRows_setTask (task : Task) :
    (lake.setTask name task).replayRows id = lake.replayRows id := rfl

@[simp]
lemma replayRows_cacheRecord (replayEpoch : String) (key : Option EventSequenceKey) :
    (lake.cacheRecord name replayEpoch key).replayRows id = lake.replayRows id := rfl

@[simp]
lemma replayRows_cacheForget :
    (lake.cacheForget name).replayRows id = lake.replayRows id := rfl

@[simp]
lemma replayRows_setContents (contents : List TableEffect) :
    (lake.setContents name contents).replayRows id = lake.replayRows id := rfl

@[simp]
lemma replayRows_setEpoch (row : EpochRow) :
    (lake.setEpoch name row).replayRows id =
      if id = name.id then { lake.replayRows id with epoch := some row } else lake.replayRows id := by
  by_cases hid : id = name.id
  · subst hid
    simp [replayRows, setEpoch]
  · simp [replayRows, setEpoch, hid]

@[simp]
lemma replayRows_updateTableStreamingProgress (progressTable replayEpoch : String)
    (key : EventSequenceKey) :
    (lake.updateTableStreamingProgress name progressTable replayEpoch key).replayRows id =
      if id = name.id then
        { lake.replayRows id with
          progress := fun table =>
            if table ∈ writtenTables progressTable then
              (lake.replayRows id).progress table ++ [⟨id, some replayEpoch, key⟩]
            else (lake.replayRows id).progress table }
      else lake.replayRows id := by
  by_cases hid : id = name.id
  · subst hid
    rw [if_pos rfl]
    ext1
    · rfl
    · funext table
      by_cases htable : table ∈ writtenTables progressTable <;>
        simp [replayRows, updateTableStreamingProgress, htable]
    · rfl
  · rw [if_neg hid]
    ext1
    · rfl
    · funext table
      by_cases htable : table ∈ writtenTables progressTable <;>
        simp [replayRows, updateTableStreamingProgress, htable, Ne.symm hid]
    · rfl

@[simp]
lemma replayRows_insertAppliedBatchMarker (replayEpoch batchId : String) :
    (lake.insertAppliedBatchMarker name replayEpoch batchId).replayRows id =
      if id = name.id then
        { lake.replayRows id with
          markers := (lake.replayRows id).markers ++ [⟨id, some replayEpoch, batchId⟩] }
      else lake.replayRows id := by
  by_cases hid : id = name.id
  · subst hid
    simp [replayRows, insertAppliedBatchMarker]
  · simp [replayRows, insertAppliedBatchMarker, hid, Ne.symm hid]

@[simp]
lemma ownState_setTask (task : Task) :
    (lake.setTask name task).ownState other =
      if other = name then { lake.ownState other with task := task } else lake.ownState other := by
  by_cases hname : other = name
  · subst hname
    simp [ownState, setTask]
  · simp [ownState, setTask, hname]

@[simp]
lemma ownState_cacheRecord (replayEpoch : String) (key : Option EventSequenceKey) :
    (lake.cacheRecord name replayEpoch key).ownState other =
      if other = name then { lake.ownState other with cache := some ⟨replayEpoch, key⟩ }
      else lake.ownState other := by
  by_cases hname : other = name
  · subst hname
    simp [ownState, cacheRecord]
  · simp [ownState, cacheRecord, hname]

@[simp]
lemma ownState_cacheForget :
    (lake.cacheForget name).ownState other =
      if other = name then { lake.ownState other with cache := none }
      else lake.ownState other := by
  by_cases hname : other = name
  · subst hname
    simp [ownState, cacheForget]
  · simp [ownState, cacheForget, hname]

@[simp]
lemma ownState_setContents (contents : List TableEffect) :
    (lake.setContents name contents).ownState other =
      if other = name then { lake.ownState other with contents := contents }
      else lake.ownState other := by
  by_cases hname : other = name
  · subst hname
    simp [ownState, setContents]
  · simp [ownState, setContents, hname]

@[simp]
lemma ownState_setEpoch (row : EpochRow) :
    (lake.setEpoch name row).ownState other = lake.ownState other := rfl

@[simp]
lemma ownState_updateTableStreamingProgress (progressTable replayEpoch : String)
    (key : EventSequenceKey) :
    (lake.updateTableStreamingProgress name progressTable replayEpoch key).ownState other =
      lake.ownState other := rfl

@[simp]
lemma ownState_insertAppliedBatchMarker (replayEpoch batchId : String) :
    (lake.insertAppliedBatchMarker name replayEpoch batchId).ownState other =
      lake.ownState other := rfl

end

/-! ### Work on other tables -/

structure Frame (name : DuckLakeTableName) (lake lake' : Lake) : Prop where
  rows : ∀ id ≠ name.id, lake'.replayRows id = lake.replayRows id
  own : ∀ other ≠ name, lake'.ownState other = lake.ownState other

namespace Frame

variable {name : DuckLakeTableName} {lake lake' : Lake}

lemma refl : Frame name lake lake := ⟨fun _ _ => rfl, fun _ _ => rfl⟩

lemma setTask (h : Frame name lake lake') (task : Task) :
    Frame name lake (lake'.setTask name task) :=
  ⟨h.rows, fun other hname => by simp [hname, h.own other hname]⟩

lemma cacheRecord (h : Frame name lake lake') (replayEpoch : String)
    (key : Option EventSequenceKey) :
    Frame name lake (lake'.cacheRecord name replayEpoch key) :=
  ⟨h.rows, fun other hname => by simp [hname, h.own other hname]⟩

lemma cacheForget (h : Frame name lake lake') : Frame name lake (lake'.cacheForget name) :=
  ⟨h.rows, fun other hname => by simp [hname, h.own other hname]⟩

lemma setContents (h : Frame name lake lake') (contents : List TableEffect) :
    Frame name lake (lake'.setContents name contents) :=
  ⟨h.rows, fun other hname => by simp [hname, h.own other hname]⟩

lemma setEpoch (h : Frame name lake lake') (row : EpochRow) :
    Frame name lake (lake'.setEpoch name row) :=
  ⟨fun id hid => by simp [hid, h.rows id hid], h.own⟩

lemma updateTableStreamingProgress (h : Frame name lake lake')
    (progressTable replayEpoch : String) (key : EventSequenceKey) :
    Frame name lake (lake'.updateTableStreamingProgress name progressTable replayEpoch key) :=
  ⟨fun id hid => by simp [hid, h.rows id hid], h.own⟩

lemma insertAppliedBatchMarker (h : Frame name lake lake') (replayEpoch batchId : String) :
    Frame name lake (lake'.insertAppliedBatchMarker name replayEpoch batchId) :=
  ⟨fun id hid => by simp [hid, h.rows id hid], h.own⟩

lemma commitBatch (progressTable : String) (batch : TableBatch) :
    Frame name lake (lake.commitBatch name progressTable batch) := by
  unfold Lake.commitBatch
  cases batch.lastSequenceKey with
  | none => exact refl.setContents _
  | some key => exact (refl.setContents _).updateTableStreamingProgress _ _ _

lemma retryBatch (h : Frame name lake lake') (batch : TableBatch) (kind : SegmentKind)
    (operations : List TrackedOperation) (segments : List Segment) :
    Frame name lake (lake'.retryBatch name batch kind operations segments) :=
  h.setTask _

lemma finishBatch (h : Frame name lake lake') (batch : TableBatch) (kind : SegmentKind)
    (operations : List TrackedOperation) (segments : List Segment)
    (frontier : Option EventSequenceKey) :
    Frame name lake (lake'.finishBatch name batch kind operations segments frontier) :=
  (h.cacheRecord _ _).setTask _

lemma transactBatch (progressTable : String) (batch : TableBatch) (kind : SegmentKind)
    (operations : List TrackedOperation) (segments : List Segment) (attempt : Attempt) :
    Frame name lake
      (lake.transactBatch progressTable name batch kind operations segments attempt) := by
  unfold Lake.transactBatch
  dsimp only
  split_ifs
  · exact (commitBatch _ _).finishBatch _ _ _ _ _
  · exact (commitBatch _ _).retryBatch _ _ _ _

lemma attemptBatch (progressTable : String) (batch : TableBatch) (kind : SegmentKind)
    (operations : List TrackedOperation) (segments : List Segment) (attempt : Attempt)
    (known : Option EventSequenceKey) :
    Frame name lake
      (lake.attemptBatch progressTable name batch kind operations segments attempt known) := by
  unfold Lake.attemptBatch
  split_ifs
  · exact refl.retryBatch _ _ _ _
  · cases lake.attemptProgress progressTable name batch known with
    | none => exact transactBatch _ _ _ _ _ _
    | some key =>
      dsimp only
      split
      · exact refl.retryBatch _ _ _ _
      · exact refl.finishBatch _ _ _ _ _
      · exact transactBatch _ _ _ _ _ _

lemma readCursor (progressTable : String) (segment : Segment) (segments : List Segment) :
    Frame name lake (lake.readCursor progressTable name segment segments) := by
  have hread (replayEpoch : String) :
      Frame name lake (lake.readFrontier progressTable name replayEpoch).2 := by
    unfold Lake.readFrontier
    cases lake.cacheGet name replayEpoch with
    | none => exact refl.cacheRecord _ _
    | some known => exact refl
  unfold Lake.readCursor
  dsimp only
  split_ifs
  · exact (hread _).setTask _
  · exact (hread _).setTask _

lemma startBatch (count : Nat) (replayEpoch : String) (kind : SegmentKind)
    (operations : List TrackedOperation) (segments : List Segment) :
    Frame name lake (lake.startBatch name count replayEpoch kind operations segments) := by
  unfold Lake.startBatch
  dsimp only
  generalize (if kind = .truncates then operations.length else count) = taken
  split_ifs
  · exact refl
  · exact refl.cacheForget.setTask _

lemma copyBatch (batchId : String) (attempt : Attempt) :
    Frame name lake (lake.copyBatch name batchId attempt) := by
  unfold Lake.copyBatch
  dsimp only
  split_ifs
  · exact refl
  · exact (refl.setContents _).insertAppliedBatchMarker _ _

lemma completeReset (pendingReplayEpoch : String) :
    Frame name lake (lake.completeReset name pendingReplayEpoch) := by
  unfold Lake.completeReset
  cases lake.completeEpochRow name pendingReplayEpoch with
  | none => exact refl.setTask _
  | some row => exact (refl.setEpoch _).setTask _

lemma step (progressTable : String) (step : TableStep) :
    Frame name lake (lake.step progressTable name step) := by
  cases step with
  | giveUp => exact refl.setTask _
  | _ =>
    dsimp only [Lake.step]
    split
    · first
        | exact refl.setTask _
        | exact readCursor _ _ _
        | exact startBatch _ _ _ _ _
        | exact attemptBatch _ _ _ _ _ _ _
        | exact copyBatch _ _
        | exact (refl.cacheForget.setEpoch _).setTask _
        | exact (refl.setContents _).setTask _
        | exact completeReset _
    · exact refl

end Frame

/-! ### Work on one table -/

structure Agree (name : DuckLakeTableName) (lake lake' : Lake) : Prop where
  rows : lake'.replayRows name.id = lake.replayRows name.id
  own : lake'.ownState name = lake.ownState name

namespace Agree

variable {name : DuckLakeTableName} {lake lake' : Lake}

lemma tasks_eq (h : Agree name lake lake') : lake'.tasks name = lake.tasks name :=
  congrArg OwnState.task h.own

lemma contents_eq (h : Agree name lake lake') : lake'.contents name = lake.contents name :=
  congrArg OwnState.contents h.own

lemma cacheGet_eq (h : Agree name lake lake') (replayEpoch : String) :
    lake'.cacheGet name replayEpoch = lake.cacheGet name replayEpoch := by
  have hcache : lake'.cache name = lake.cache name := congrArg OwnState.cache h.own
  simp only [cacheGet, hcache]

lemma epochs_eq (h : Agree name lake lake') : lake'.epochs name.id = lake.epochs name.id :=
  congrArg ReplayRows.epoch h.rows

lemma readStreamingProgressFrom_eq (h : Agree name lake lake')
    (progressTable replayEpoch : String) :
    lake'.readStreamingProgressFrom name progressTable replayEpoch =
      lake.readStreamingProgressFrom name progressTable replayEpoch := by
  have hrows : (lake'.progress progressTable).filter (·.tableName = name.id) =
      (lake.progress progressTable).filter (·.tableName = name.id) :=
    congrFun (congrArg ReplayRows.progress h.rows) progressTable
  have hfilter (rows : List ProgressRow) :
      rows.filter (fun row => row.tableName = name.id &&
        row.replayEpoch.getD legacyReplayEpoch = replayEpoch) =
      (rows.filter (·.tableName = name.id)).filter
        (fun row => row.replayEpoch.getD legacyReplayEpoch = replayEpoch) := by
    rw [List.filter_filter]
    exact List.filter_congr fun row _ => Bool.and_comm _ _
  simp only [readStreamingProgressFrom, hfilter, hrows]

lemma readTableStreamingProgress_eq (h : Agree name lake lake')
    (progressTable replayEpoch : String) :
    lake'.readTableStreamingProgress name progressTable replayEpoch =
      lake.readTableStreamingProgress name progressTable replayEpoch := by
  simp only [readTableStreamingProgress, h.readStreamingProgressFrom_eq]

lemma appliedBatchMarkerIdExists_eq (h : Agree name lake lake') (replayEpoch batchId : String) :
    lake'.appliedBatchMarkerIdExists name replayEpoch batchId =
      lake.appliedBatchMarkerIdExists name replayEpoch batchId := by
  have hrows : lake'.markers.filter (·.tableName = name.id) =
      lake.markers.filter (·.tableName = name.id) :=
    congrArg ReplayRows.markers h.rows
  have hany (rows : List MarkerRow) :
      rows.any (fun row => row.tableName = name.id &&
        row.replayEpoch.getD legacyReplayEpoch = replayEpoch && row.batchId = batchId) =
      (rows.filter (·.tableName = name.id)).any
        (fun row => row.replayEpoch.getD legacyReplayEpoch = replayEpoch && row.batchId = batchId) := by
    rw [List.any_filter]
    simp only [Bool.and_assoc]
  simp only [appliedBatchMarkerIdExists, hany, hrows]

lemma setTask (h : Agree name lake lake') (task : Task) :
    Agree name (lake.setTask name task) (lake'.setTask name task) :=
  ⟨by simp [h.rows], by simp [h.own]⟩

lemma cacheRecord (h : Agree name lake lake') (replayEpoch : String)
    (key : Option EventSequenceKey) :
    Agree name (lake.cacheRecord name replayEpoch key) (lake'.cacheRecord name replayEpoch key) :=
  ⟨by simp [h.rows], by simp [h.own]⟩

lemma cacheForget (h : Agree name lake lake') :
    Agree name (lake.cacheForget name) (lake'.cacheForget name) :=
  ⟨by simp [h.rows], by simp [h.own]⟩

lemma setContents (h : Agree name lake lake') (contents : List TableEffect) :
    Agree name (lake.setContents name contents) (lake'.setContents name contents) :=
  ⟨by simp [h.rows], by simp [h.own]⟩

lemma setEpoch (h : Agree name lake lake') (row : EpochRow) :
    Agree name (lake.setEpoch name row) (lake'.setEpoch name row) :=
  ⟨by simp [h.rows], by simp [h.own]⟩

lemma updateTableStreamingProgress (h : Agree name lake lake')
    (progressTable replayEpoch : String) (key : EventSequenceKey) :
    Agree name (lake.updateTableStreamingProgress name progressTable replayEpoch key)
      (lake'.updateTableStreamingProgress name progressTable replayEpoch key) :=
  ⟨by simp [h.rows], by simp [h.own]⟩

lemma insertAppliedBatchMarker (h : Agree name lake lake') (replayEpoch batchId : String) :
    Agree name (lake.insertAppliedBatchMarker name replayEpoch batchId)
      (lake'.insertAppliedBatchMarker name replayEpoch batchId) :=
  ⟨by simp [h.rows], by simp [h.own]⟩

lemma finishBatch (h : Agree name lake lake') (batch : TableBatch) (kind : SegmentKind)
    (operations : List TrackedOperation) (segments : List Segment)
    (frontier : Option EventSequenceKey) :
    Agree name (lake.finishBatch name batch kind operations segments frontier)
      (lake'.finishBatch name batch kind operations segments frontier) :=
  (h.cacheRecord _ _).setTask _

lemma transactBatch (h : Agree name lake lake') (progressTable : String) (batch : TableBatch)
    (kind : SegmentKind) (operations : List TrackedOperation) (segments : List Segment)
    (attempt : Attempt) :
    Agree name (lake.transactBatch progressTable name batch kind operations segments attempt)
      (lake'.transactBatch progressTable name batch kind operations segments attempt) := by
  have hcommit : Agree name (lake.commitBatch name progressTable batch)
      (lake'.commitBatch name progressTable batch) := by
    unfold Lake.commitBatch
    rw [h.contents_eq]
    cases batch.lastSequenceKey with
    | none => exact h.setContents _
    | some key => exact (h.setContents _).updateTableStreamingProgress _ _ _
  unfold Lake.transactBatch
  dsimp only
  split_ifs
  · exact hcommit.finishBatch _ _ _ _ _
  · exact hcommit.setTask _

lemma attemptBatch (h : Agree name lake lake') (progressTable : String) (batch : TableBatch)
    (kind : SegmentKind) (operations : List TrackedOperation) (segments : List Segment)
    (attempt : Attempt) (known : Option EventSequenceKey) :
    Agree name (lake.attemptBatch progressTable name batch kind operations segments attempt known)
      (lake'.attemptBatch progressTable name batch kind operations segments attempt known) := by
  have hprogress : lake'.attemptProgress progressTable name batch known =
      lake.attemptProgress progressTable name batch known := by
    simp only [attemptProgress, h.readTableStreamingProgress_eq]
  unfold Lake.attemptBatch
  rw [hprogress]
  split_ifs
  · exact h.setTask _
  · cases lake.attemptProgress progressTable name batch known with
    | none => exact h.transactBatch _ _ _ _ _ _
    | some key =>
      dsimp only
      split
      · exact h.setTask _
      · exact h.finishBatch _ _ _ _ _
      · exact h.transactBatch _ _ _ _ _ _

lemma readTableReplayEpoch_eq (h : Agree name lake lake') :
    lake'.readTableReplayEpoch name = lake.readTableReplayEpoch name := by
  simp only [readTableReplayEpoch, h.epochs_eq]

lemma readCursor (h : Agree name lake lake') (progressTable : String) (segment : Segment)
    (segments : List Segment) :
    Agree name (lake.readCursor progressTable name segment segments)
      (lake'.readCursor progressTable name segment segments) := by
  unfold Lake.readCursor Lake.readFrontier
  dsimp only
  rw [h.readTableReplayEpoch_eq, h.cacheGet_eq, h.readTableStreamingProgress_eq]
  cases lake.cacheGet name (lake.readTableReplayEpoch name) with
  | none =>
    dsimp only
    split_ifs
    · exact (h.cacheRecord _ _).setTask _
    · exact (h.cacheRecord _ _).setTask _
  | some known =>
    dsimp only
    split_ifs
    · exact h.setTask _
    · exact h.setTask _

lemma startBatch (h : Agree name lake lake') (count : Nat) (replayEpoch : String)
    (kind : SegmentKind) (operations : List TrackedOperation) (segments : List Segment) :
    Agree name (lake.startBatch name count replayEpoch kind operations segments)
      (lake'.startBatch name count replayEpoch kind operations segments) := by
  unfold Lake.startBatch
  rw [h.cacheGet_eq]
  dsimp only
  generalize (if kind = .truncates then operations.length else count) = taken
  split_ifs
  · exact h
  · exact h.cacheForget.setTask _

lemma copyBatch (h : Agree name lake lake') (batchId : String) (attempt : Attempt) :
    Agree name (lake.copyBatch name batchId attempt) (lake'.copyBatch name batchId attempt) := by
  unfold Lake.copyBatch Lake.commitCopy
  dsimp only
  rw [h.readTableReplayEpoch_eq, h.appliedBatchMarkerIdExists_eq, h.contents_eq]
  split_ifs
  · exact h
  · exact (h.setContents _).insertAppliedBatchMarker _ _

lemma beginReset (h : Agree name lake lake') (newReplayEpoch : String) :
    Agree name (lake.beginReset name newReplayEpoch) (lake'.beginReset name newReplayEpoch) := by
  unfold Lake.beginReset Lake.beginEpochRow
  rw [h.epochs_eq]
  exact (h.cacheForget.setEpoch _).setTask _

lemma completeReset (h : Agree name lake lake') (pendingReplayEpoch : String) :
    Agree name (lake.completeReset name pendingReplayEpoch)
      (lake'.completeReset name pendingReplayEpoch) := by
  have hrow : lake'.completeEpochRow name pendingReplayEpoch =
      lake.completeEpochRow name pendingReplayEpoch := by
    simp only [completeEpochRow, h.epochs_eq]
  unfold Lake.completeReset
  rw [hrow]
  cases lake.completeEpochRow name pendingReplayEpoch with
  | none => exact h.setTask _
  | some row => exact (h.setEpoch _).setTask _

lemma step (h : Agree name lake lake') (progressTable : String) (step : TableStep) :
    Agree name (lake.step progressTable name step) (lake'.step progressTable name step) := by
  cases step with
  | giveUp => exact h.setTask _
  | _ =>
    dsimp only [Lake.step]
    rw [h.tasks_eq]
    split
    · first
        | exact h.setTask _
        | exact h.readCursor _ _ _
        | exact h.startBatch _ _ _ _ _
        | exact h.attemptBatch _ _ _ _ _ _ _
        | exact h.copyBatch _ _
        | exact h.beginReset _
        | exact (h.setContents _).setTask _
        | exact h.completeReset _
    · exact h

end Agree

/-! ### Runs -/

structure AgreeOn (id : String) (lake lake' : Lake) : Prop where
  rows : lake'.replayRows id = lake.replayRows id
  own : ∀ name : DuckLakeTableName, name.id = id → lake'.ownState name = lake.ownState name

namespace AgreeOn

variable {id : String} {lake lake' : Lake}

lemma refl : AgreeOn id lake lake := ⟨rfl, fun _ _ => rfl⟩

lemma view_eq {name : DuckLakeTableName} (h : AgreeOn name.id lake lake') :
    lake'.view name = lake.view name := by
  rw [view, view, h.rows, h.own name rfl]

lemma step_left (h : AgreeOn id lake lake') (progressTable : String) {name : DuckLakeTableName}
    (hid : name.id ≠ id) (step : TableStep) :
    AgreeOn id (lake.step progressTable name step) lake' where
  rows := by rw [(Frame.step progressTable step).rows id hid.symm, h.rows]
  own other hother := by
    have hne : other ≠ name := by
      rintro rfl
      exact hid hother
    rw [(Frame.step progressTable step).own other hne, h.own other hother]

lemma symm (h : AgreeOn id lake lake') : AgreeOn id lake' lake :=
  ⟨h.rows.symm, fun name hname => (h.own name hname).symm⟩

lemma step (h : AgreeOn id lake lake') (progressTable : String) (name : DuckLakeTableName)
    (step : TableStep) :
    AgreeOn id (lake.step progressTable name step) (lake'.step progressTable name step) := by
  by_cases hid : name.id = id
  · subst hid
    have hagree : Agree name lake lake' := ⟨h.rows, h.own name rfl⟩
    refine ⟨(hagree.step progressTable step).rows, fun other hother => ?_⟩
    by_cases hname : other = name
    · subst hname
      exact (hagree.step progressTable step).own
    · rw [(Frame.step progressTable step).own other hname,
        (Frame.step progressTable step).own other hname, h.own other hother]
  · exact ((h.step_left progressTable hid step).symm.step_left progressTable hid step).symm

lemma move (h : AgreeOn id lake lake') (progressTable : String) (move : Move) :
    AgreeOn id (lake.move progressTable move) (lake'.move progressTable move) := by
  cases move with
  | table name step => exact h.step progressTable name step
  | restart =>
    refine ⟨h.rows, fun name hname => ?_⟩
    have hcontents : lake'.contents name = lake.contents name :=
      congrArg OwnState.contents (h.own name hname)
    exact OwnState.ext hcontents rfl rfl

end AgreeOn

end Lake

def Move.Without (name : DuckLakeTableName) : Move → Bool
  | .table other _ => other ≠ name
  | .restart => true

/-- Work on a table with another text can be left out of a run. -/
lemma Lake.agreeOn_run_filter (progressTable : String) {name : DuckLakeTableName} {id : String}
    (hid : name.id ≠ id) (moves : List Move) {lake lake' : Lake} (h : AgreeOn id lake lake') :
    AgreeOn id (lake.run progressTable moves)
      (lake'.run progressTable (moves.filter (Move.Without name))) := by
  induction moves generalizing lake lake' with
  | nil => exact h
  | cons move moves ih =>
    by_cases hmove : Move.Without name move = true
    · rw [List.filter_cons_of_pos hmove]
      exact ih (h.move progressTable move)
    · rw [List.filter_cons_of_neg hmove]
      refine ih ?_
      cases move with
      | restart => exact absurd rfl hmove
      | table other step =>
        have hother : other = name := by simpa [Move.Without] using hmove
        subst hother
        exact h.step_left progressTable hid step

/-- What belongs to a table is the same whatever is done to another. -/
def Independent (progressTable : String) (name other : DuckLakeTableName) : Prop :=
  ∀ moves : List Move,
    (Lake.empty.run progressTable moves).view name =
      (Lake.empty.run progressTable (moves.filter (Move.Without other))).view name

/-- Two tables have their replay state to themselves exactly if their texts differ. -/
theorem independent_iff_id_ne (progressTable : String) (name other : DuckLakeTableName) :
    Independent progressTable name other ↔ name.id ≠ other.id := by
  constructor
  · intro hindependent hid
    -- A reset of the other table moves the epoch row that both share.
    have hview := hindependent [.table other (.beginReset "next")]
    have hepoch := congrArg (fun view => view.rows.epoch) hview
    simp [Lake.run, Lake.move, Lake.step, Lake.empty, Lake.beginReset, Lake.view, Move.Without,
      Lake.replayRows, Lake.setEpoch, Lake.setTask, hid] at hepoch
  · intro hid moves
    exact (Lake.agreeOn_run_filter progressTable hid.symm moves Lake.AgreeOn.refl).view_eq.symm

private def writeOne (name : DuckLakeTableName) (operation : TrackedOperation) : List Move :=
  [TableStep.startCall [⟨.mutations, [operation]⟩], .readCursor, .startBatch 1, .attempt .lands,
    .returnOk].map (Move.table name)

/-- Table `c` of schema `a.b` and table `b.c` of schema `a` can be owned at the same time. Once an
insert with a later key has been written to the first, an insert into the second is skipped. -/
theorem sharedId_skips_insert :
    let first : DuckLakeTableName := ⟨"a.b", "c"⟩
    let second : DuckLakeTableName := ⟨"a", "b.c"⟩
    let early : TrackedOperation := ⟨⟨10, 0⟩, .mutation (.insert ⟨[]⟩)⟩
    let late : TrackedOperation := ⟨⟨20, 0⟩, .mutation (.insert ⟨[]⟩)⟩
    mapNewTableName none ⟨"a.b", "c"⟩ = .ok first ∧ mapNewTableName none ⟨"a", "b.c"⟩ = .ok second ∧
      ensureUniqueTableIdentity [] 1 first = .ok () ∧
      ensureUniqueTableIdentity [(1, first)] 2 second = .ok () ∧
      (Lake.empty.run sharedStreamingProgressTable (writeOne second early)).contents second =
        [.applied early] ∧
      (Lake.empty.run sharedStreamingProgressTable
        (writeOne first late ++ writeOne second early)).contents second = [] ∧
      ¬Independent sharedStreamingProgressTable second first := by
  refine ⟨by decide +kernel, by decide +kernel, by decide +kernel, by decide +kernel,
    by decide +kernel, by decide +kernel, ?_⟩
  intro hindependent
  have hview := hindependent [.table ⟨"a.b", "c"⟩ (.beginReset "next")]
  have hepoch := congrArg (fun view => view.rows.epoch) hview
  exact absurd hepoch (by decide +kernel)

end Etl.DuckLake
