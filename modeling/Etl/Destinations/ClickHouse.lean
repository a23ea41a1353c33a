import Etl.Destinations.WriteEvents

/-!
# ClickHouse

With `ReplacingMergeTree` the view of the current rows reads, for each key, the row with the
greatest version and drops tombstones. Every event becomes one row under its new key, so the view is
right as long as no update moves a row to another key (`currentView_eq_source`).
-/

namespace Etl.ClickHouse

open LatestVersion

/-! ## Rows of events -/

inductive ClickHouseEngine where
  | mergeTree
  | replacingMergeTree
deriving DecidableEq

inductive CdcOperation where
  | insert
  | update
  | delete
deriving DecidableEq

def CdcOperation.toText : CdcOperation → String
  | .insert => "INSERT"
  | .update => "UPDATE"
  | .delete => "DELETE"

/-- A converted source value keeps its text image. -/
inductive ClickHouseValue where
  | cell (value : Option String)
  | string (value : String)
  | uInt64 (value : Nat)
  | uInt128 (value : Nat)
  | uInt8 (value : Nat)
deriving DecidableEq

def appendCdcColumns (values : List ClickHouseValue) (operation : CdcOperation)
    (sequenceKey : EventSequenceKey) : ClickHouseEngine → List ClickHouseValue
  | .mergeTree => values ++ [.string operation.toText, .uInt64 sequenceKey.commitLsn.toNat]
  | .replacingMergeTree =>
    values ++ [.uInt128 sequenceKey.asU128, .uInt8 (if operation = .delete then 1 else 0)]

structure PendingRow where
  operation : CdcOperation
  sequenceKey : EventSequenceKey
  cells : List (Option String)
deriving DecidableEq

def PendingRow.values (engine : ClickHouseEngine) (row : PendingRow) : List ClickHouseValue :=
  appendCdcColumns (row.cells.map .cell) row.operation row.sequenceKey engine

def copyRow (engine : ClickHouseEngine) (row : TableRow) : List ClickHouseValue :=
  appendCdcColumns (row.values.map .cell) .insert ⟨0, 0⟩ engine

def ensureClickhouseKeyIdentityIsPrimaryKey (schema : ReplicatedTableSchema) :
    Except EtlError Unit :=
  if schema.identityType = .primaryKey ∨ schema.identityType = .full then .ok ()
  else .error ⟨.sourceReplicaIdentityError,
    "ClickHouse requires primary-key or full replica identity"⟩

def clickhouseUpdateRow (schema : ReplicatedTableSchema) (updatedTableRow : UpdatedTableRow)
    (engine : ClickHouseEngine) : Except EtlError TableRow :=
  match updatedTableRow with
  | .partialRow .. => .error ⟨.sourceReplicaIdentityError,
    "ClickHouse update requires a full new row image"⟩
  | .full row =>
    match engine with
    | .mergeTree => .ok row
    | .replacingMergeTree =>
      match ensureClickhouseKeyIdentityIsPrimaryKey schema with
      | .error error => .error error
      | .ok () => .ok row

def clickhouseDeleteOldRow (oldTableRow : Option OldTableRow) : Except EtlError OldTableRow :=
  match oldTableRow with
  | some row => .ok row
  | none => .error ⟨.sourceReplicaIdentityError, "ClickHouse delete requires an old row image"⟩

def defaultCell (typ : PgType) : String :=
  if isArrayType typ then "\x7b\x7d"
  else
    match postgresTypeToString typ with
    | "BOOL" => "f"
    | "INT2" | "INT4" | "INT8" | "OID" | "FLOAT4" | "FLOAT8" => "0"
    | "DATE" => "1970-01-01"
    | "TIMESTAMP" => "1970-01-01 00:00:00"
    | "TIMESTAMPTZ" => "1970-01-01 00:00:00+00"
    | "UUID" => "00000000-0000-0000-0000-000000000000"
    | _ => ""

def expandCells : List ColumnSchema → List (Option String) → List (Option String)
  | [], _ => []
  | column :: columns, keys =>
    if column.primaryKeyOrdinalPosition.isSome then
      keys.headD none :: expandCells columns keys.tail
    else if column.nullable && !isArrayType column.typ then none :: expandCells columns keys
    else some (defaultCell column.typ) :: expandCells columns keys

def expandKeyRow (keyRow : TableRow) (schema : ReplicatedTableSchema) : Except EtlError TableRow :=
  if keyRow.values.length ≠ schema.primaryKeyColumnSchemas.length then
    .error ⟨.invalidState, "ClickHouse key image does not match the source primary key"⟩
  else
    match ensureClickhouseKeyIdentityIsPrimaryKey schema with
    | .error error => .error error
    | .ok () => .ok ⟨expandCells schema.columnSchemas keyRow.values⟩

def deletedRow (schema : ReplicatedTableSchema) : OldTableRow → Except EtlError TableRow
  | .full row => .ok row
  | .key keyRow => expandKeyRow keyRow schema

def pendingRow (engine : ClickHouseEngine) : Event → Except EtlError (Option PendingRow)
  | .insert commitLsn txOrdinal _ tableRow =>
    .ok (some ⟨.insert, ⟨commitLsn, txOrdinal⟩, tableRow.values⟩)
  | .update commitLsn txOrdinal schema updatedTableRow _ =>
    (clickhouseUpdateRow schema updatedTableRow engine).map fun tableRow =>
      some ⟨.update, ⟨commitLsn, txOrdinal⟩, tableRow.values⟩
  | .delete commitLsn txOrdinal schema oldTableRow =>
    ((clickhouseDeleteOldRow oldTableRow).bind (deletedRow schema)).map fun oldRow =>
      some ⟨.delete, ⟨commitLsn, txOrdinal⟩, oldRow.values⟩
  | _ => .ok none

def eventRows (engine : ClickHouseEngine) (event : Event) :
    Except EtlError (List (List ClickHouseValue)) :=
  (pendingRow engine event).map fun row => (row.map (·.values engine)).toList

/-! ## The current view -/

def ClickHouseValue.cell? : ClickHouseValue → Option String
  | .cell value => value
  | _ => none

def userCells (schema : ReplicatedTableSchema) (values : List ClickHouseValue) : TableRow :=
  ⟨(values.take schema.columnSchemas.length).map (·.cell?)⟩

def etlVersion (schema : ReplicatedTableSchema) (values : List ClickHouseValue) : Nat :=
  match values[schema.columnSchemas.length]? with
  | some (.uInt128 version) => version
  | _ => 0

def etlDeleted (schema : ReplicatedTableSchema) (values : List ClickHouseValue) : Nat :=
  match values[schema.columnSchemas.length + 1]? with
  | some (.uInt8 deleted) => deleted
  | _ => 0

def storedChange (schema : ReplicatedTableSchema) (values : List ClickHouseValue) :
    Change (List (Option String)) Nat TableRow where
  key := schema.primaryKeyOf (userCells schema values)
  version := etlVersion schema values
  value := if etlDeleted schema values = 0 then some (userCells schema values) else none

/-- The `__current` view: `FINAL` keeps for each key the row with the greatest version, and
tombstones are dropped. -/
def currentView (schema : ReplicatedTableSchema) (table : List (List ClickHouseValue)) :
    List TableRow :=
  visible (table.map (storedChange schema))

/-! ## What a row says -/

section Rows

variable {schema : ReplicatedTableSchema} {row : PendingRow}

lemma storedChange_values (h : row.cells.length = schema.columnSchemas.length) :
    storedChange schema (row.values .replacingMergeTree) =
      ⟨schema.primaryKeyOf ⟨row.cells⟩, row.sequenceKey.asU128,
        if row.operation = .delete then none else some ⟨row.cells⟩⟩ := by
  have hcells : userCells schema (row.values .replacingMergeTree) = ⟨row.cells⟩ := by
    simp [userCells, PendingRow.values, appendCdcColumns, ← h, Function.comp_def,
      ClickHouseValue.cell?]
  have hversion : etlVersion schema (row.values .replacingMergeTree) = row.sequenceKey.asU128 := by
    simp [etlVersion, PendingRow.values, appendCdcColumns, ← h]
  have hdeleted : etlDeleted schema (row.values .replacingMergeTree) =
      if row.operation = .delete then 1 else 0 := by
    simp [etlDeleted, PendingRow.values, appendCdcColumns, ← h]
  rw [storedChange, hcells, hversion, hdeleted]
  by_cases hdelete : row.operation = .delete <;> simp [hdelete]

lemma length_expandCells (columns : List ColumnSchema) (keys : List (Option String)) :
    (expandCells columns keys).length = columns.length := by
  induction columns generalizing keys with
  | nil => rfl
  | cons column columns ih =>
    rw [expandCells]
    split_ifs <;> simp [ih]

lemma selectFlagged_expandCells {columns : List ColumnSchema} {keys : List (Option String)}
    (h : keys.length = (columns.filter (·.primaryKey)).length) :
    ReplicatedTableSchema.selectFlagged (columns.map (·.primaryKey)) (expandCells columns keys) =
      keys := by
  induction columns generalizing keys with
  | nil => simpa [expandCells, ReplicatedTableSchema.selectFlagged, eq_comm] using h
  | cons column columns ih =>
    rw [expandCells]
    cases hkey : column.primaryKey with
    | true =>
      obtain ⟨key, keys, rfl⟩ : ∃ key tail, keys = key :: tail := by
        cases keys with
        | nil => simp [hkey] at h
        | cons key keys => exact ⟨key, keys, rfl⟩
      have hsome : column.primaryKeyOrdinalPosition.isSome = true := hkey
      rw [if_pos hsome, List.map_cons, ReplicatedTableSchema.selectFlagged_cons, hkey, if_pos rfl,
        List.headD_cons, List.tail_cons, ih (by simpa [hkey] using h)]
    | false =>
      have hnone : ¬ column.primaryKeyOrdinalPosition.isSome = true := by
        simpa [ColumnSchema.primaryKey] using hkey
      have htail := @ih keys (by simpa [hkey] using h)
      rw [if_neg hnone, List.map_cons]
      split_ifs <;> simp [ReplicatedTableSchema.selectFlagged_cons, hkey, htail]

lemma identityType_of_ensure {schema : ReplicatedTableSchema} 
    (h : ensureClickhouseKeyIdentityIsPrimaryKey schema = .ok ()) :
    schema.identityType = .primaryKey ∨ schema.identityType = .full := by
  unfold ensureClickhouseKeyIdentityIsPrimaryKey at h
  split_ifs at h with htype
  exact htype

lemma expandKeyRow_identityOf {old row : TableRow} (hfits : schema.Fits)
    (hwidth : schema.HasWidth old) (h : expandKeyRow ⟨schema.identityOf old⟩ schema = .ok row) :
    schema.HasWidth row ∧ schema.primaryKeyOf row = schema.primaryKeyOf old := by
  unfold expandKeyRow at h
  split_ifs at h with hlength
  rw [not_not] at hlength
  split at h
  next => cases h
  next hensure =>
    cases h
    have hkeys : schema.identityOf old = schema.keyValuesOf old := by
      rcases identityType_of_ensure hensure with htype | htype
      · exact ReplicatedTableSchema.identityOf_eq_keyValuesOf hfits htype
      · -- a full identity as wide as the key leaves no other column
        have hvalues := ReplicatedTableSchema.identityOf_eq_values hfits htype hwidth
        rw [hvalues, ReplicatedTableSchema.keyValuesOf_eq_values hwidth]
        rw [hvalues] at hlength
        exact hlength.symm.trans hwidth
    have hexpanded : schema.HasWidth ⟨expandCells schema.columnSchemas (schema.identityOf old)⟩ :=
      length_expandCells _ _
    refine ⟨hexpanded, ?_⟩
    refine ReplicatedTableSchema.primaryKeyOf_eq_of_keyValuesOf_eq hexpanded hwidth ?_
    rw [← hkeys]
    refine selectFlagged_expandCells ?_
    rw [← ReplicatedTableSchema.primaryKeyColumnSchemas_eq]
    exact hlength

lemma deletedRow_of_oldImage {old row : TableRow} {image : OldTableRow} (hfits : schema.Fits)
    (hwidth : schema.HasWidth old) (himage : OldImage schema old image)
    (h : deletedRow schema image = .ok row) :
    schema.HasWidth row ∧ schema.primaryKeyOf row = schema.primaryKeyOf old := by
  cases himage with
  | key => exact expandKeyRow_identityOf hfits hwidth h
  | full =>
    cases h
    exact ⟨hwidth, rfl⟩

lemma pendingRow_of_emits {rows : SourceRows} {change : RowChange} {event : Event}
    {pending : Option PendingRow} (hfits : schema.Fits) (hallowed : change.Allowed schema rows)
    (hkeeps : change.KeepsKey schema) (hemits : Emits schema change event)
    (h : pendingRow .replacingMergeTree event = .ok pending) :
    ∃ row, pending = some row ∧ schema.HasWidth ⟨row.cells⟩ ∧
      event.eventSequenceKey? = some row.sequenceKey ∧
      Function.update rows (schema.primaryKeyOf ⟨row.cells⟩)
        (if row.operation = .delete then none else some ⟨row.cells⟩) =
          change.apply schema rows := by
  cases hemits with
  | insert commitLsn txOrdinal row =>
    cases h
    exact ⟨_, rfl, hallowed.1, rfl, rfl⟩
  | update commitLsn txOrdinal old new updated image hnew =>
    cases updated with
    | partialRow => simp [pendingRow, clickhouseUpdateRow, Except.map] at h
    | full row =>
      obtain rfl := hnew row rfl
      cases hensure : ensureClickhouseKeyIdentityIsPrimaryKey schema with
      | error => simp [pendingRow, clickhouseUpdateRow, hensure, Except.map] at h
      | ok =>
        simp only [pendingRow, clickhouseUpdateRow, hensure, Except.map, Except.ok.injEq] at h
        refine ⟨_, h.symm, hallowed.2.1, rfl, ?_⟩
        have hkey : schema.primaryKeyOf row = schema.primaryKeyOf old := hkeeps
        simp [RowChange.apply, hkey]
  | delete commitLsn txOrdinal old image himage =>
    cases hrow : deletedRow schema image with
    | error => simp [pendingRow, clickhouseDeleteOldRow, hrow, Except.map, Except.bind] at h
    | ok row =>
      obtain ⟨hwidth, hkey⟩ := deletedRow_of_oldImage hfits hallowed.1 himage hrow
      simp only [pendingRow, clickhouseDeleteOldRow, Except.bind, hrow, Except.map,
        Except.ok.injEq] at h
      exact ⟨_, h.symm, hwidth, rfl, by simp [RowChange.apply, hkey]⟩

end Rows

/-! ## The view and the source -/

section CurrentView

variable {history : SourceHistory}

lemma reads (hkeeps : ∀ p ∈ history.changes, p.1.KeepsKey history.schema) :
    Reads (eventRows .replacingMergeTree) (copyRow .replacingMergeTree) history
      (storedChange history.schema) fun key version => version = key.asU128 where
  copied := by
    intro row hrow
    have hstored : storedChange history.schema (copyRow .replacingMergeTree row) =
        ⟨history.schema.primaryKeyOf row, EventSequenceKey.asU128 ⟨0, 0⟩, some row⟩ :=
      @storedChange_values _ ⟨.insert, ⟨0, 0⟩, row.values⟩ (history.copied_width row hrow)
    rw [hstored]
    exact ⟨rfl, rfl, rfl⟩
  changed := by
    intro rows change event key out hmem hallowed hkey hout
    cases hpending : pendingRow .replacingMergeTree event with
    | error => simp [eventRows, hpending, Except.map] at hout
    | ok pending =>
      obtain ⟨row, rfl, hwidth, hsequence, happly⟩ := pendingRow_of_emits history.fits hallowed
        (hkeeps _ hmem) (history.emitted _ hmem) hpending
      obtain rfl : [row.values .replacingMergeTree] = out := by
        simpa [eventRows, hpending, Except.map] using hout
      obtain rfl : row.sequenceKey = key := by simpa [hsequence] using hkey
      have hstored := storedChange_values hwidth
      simp only [List.map_cons, List.map_nil, hstored, override_cons, override_nil]
      exact ⟨by simp, happly, by simp [hstored]⟩
  version_lt := by
    rintro key key' _ _ hbefore hbound hbound' rfl rfl
    exact EventSequenceKey.asU128_lt hbound hbound' hbefore

/-- In a history in which no update moves a row to another key, the current view shows the rows of
the source, each once. -/
theorem currentView_eq_source (history : SourceHistory)
    (hkeeps : ∀ p ∈ history.changes, p.1.KeepsKey history.schema) {n : Nat}
    {table : List (List ClickHouseValue)}
    (h : Delivered (eventRows .replacingMergeTree) (copyRow .replacingMergeTree) history n table) :
    ShowsRows history.schema (currentView history.schema table) (history.rowsAfter n) :=
  h.showsRows (reads hkeeps)

end CurrentView

def keptHistory : SourceHistory where
  schema := sampleTable
  copied := [⟨[some "1", some "a"]⟩]
  changes :=
    [(.insert ⟨[some "2", some "b"]⟩, .insert 10 1 sampleTable ⟨[some "2", some "b"]⟩),
      (.update ⟨[some "1", some "a"]⟩ ⟨[some "1", some "c"]⟩,
        .update 20 1 sampleTable (.full ⟨[some "1", some "c"]⟩) none),
      (.delete ⟨[some "2", some "b"]⟩, .delete 20 2 sampleTable (some (.key ⟨[some "2"]⟩)))]
  fits := fits_sampleTable
  ordinals := nodup_ordinals_sampleTable
  copied_width := hasWidth_sampleRow
  copied_keys := nodup_keys_sampleRow
  allowed := by decide
  emitted := by
    simp only [List.forall_mem_cons, List.not_mem_nil, false_imp_iff, implies_true, and_true]
    exact ⟨.insert _ _ _, .update _ _ _ _ _ _ (by simp) (by simp) fun _ => rfl,
      .delete _ _ _ _ (@OldImage.key sampleTable _)⟩
  increasing := by decide
  bounded := by decide
  positive := by decide

theorem currentView_eq_source_kept :
    ShowsRows sampleTable
      (currentView sampleTable (tableAfter (eventRows .replacingMergeTree)
        (copyRow .replacingMergeTree) keptHistory keptHistory.events))
      (keptHistory.rowsAfter 3) :=
  currentView_eq_source keptHistory (by
      simp only [keptHistory, List.forall_mem_cons, List.not_mem_nil, false_imp_iff, implies_true,
        and_true]
      exact ⟨trivial, rfl, trivial⟩)
    (delivered_tableAfter rfl rfl)

def movedHistory : SourceHistory where
  schema := sampleTable
  copied := [⟨[some "1", some "a"]⟩]
  changes :=
    [(.update ⟨[some "1", some "a"]⟩ ⟨[some "2", some "a"]⟩,
      .update 10 1 sampleTable (.full ⟨[some "2", some "a"]⟩) (some (.key ⟨[some "1"]⟩)))]
  fits := fits_sampleTable
  ordinals := nodup_ordinals_sampleTable
  copied_width := hasWidth_sampleRow
  copied_keys := nodup_keys_sampleRow
  allowed := by decide
  emitted := by
    simp only [List.forall_mem_cons, List.not_mem_nil, false_imp_iff, implies_true, and_true]
    refine .update _ _ _ _ _ _ (by simp) ?_ (by simp)
    rintro _ ⟨⟩
    exact @OldImage.key sampleTable _
  increasing := by decide
  bounded := by decide
  positive := by decide

/-- After an update that moves a row, the current view still shows the row under its old key. -/
theorem currentView_shows_moved_row :
    sampleTable.identityType = .primaryKey ∧
      ∃ n table, Delivered (eventRows .replacingMergeTree) (copyRow .replacingMergeTree)
          movedHistory n table ∧
        (⟨[some "1", some "a"]⟩ : TableRow) ∈ currentView sampleTable table ∧
        movedHistory.rowsAfter n (sampleTable.primaryKeyOf ⟨[some "1", some "a"]⟩) = none :=
  ⟨by decide, _, _, delivered_tableAfter rfl rfl, by decide +kernel, by decide +kernel⟩

end Etl.ClickHouse
