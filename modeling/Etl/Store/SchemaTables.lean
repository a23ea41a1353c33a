import Mathlib
import Etl.Store.SchemaSnapshots

/-!
# The schema tables of the Postgres store

Snapshot identifiers are texts that the statements order by the two numbers in them. `Represents`
says that the tables hold the versions of an index, and `loadTableSchemaAtSnapshot_eq` what a lookup
then returns, read back through its rows (`TableSchema.reload`).
-/

namespace Etl

structure TableColumnRow where
  columnName : String
  columnType : String
  typeModifier : Int
  nullable : Bool
  ordinalPosition : Int
  primaryKeyOrdinalPosition : Option Int
  defaultExpression : Option String
deriving DecidableEq

structure TableSchemaRow where
  tableId : TableId
  schemaName : String
  tableName : String
  snapshotId : List Char
  columns : List TableColumnRow
deriving DecidableEq

structure SchemaTables where
  rows : List TableSchemaRow
deriving DecidableEq

inductive SqlxError where
  | database
  | protocol
deriving DecidableEq, Repr

def columnRow (c : ColumnSchema) : TableColumnRow where
  columnName := c.name
  columnType := postgresTypeToString c.typ
  typeModifier := c.modifier
  nullable := c.nullable
  ordinalPosition := c.ordinalPosition
  primaryKeyOrdinalPosition := c.primaryKeyOrdinalPosition
  defaultExpression := c.defaultExpression

def parseColumnSchema (row : TableColumnRow) : ColumnSchema where
  name := row.columnName
  typ := stringToPostgresType row.columnType
  modifier := row.typeModifier
  ordinalPosition := row.ordinalPosition
  primaryKeyOrdinalPosition := row.primaryKeyOrdinalPosition
  nullable := row.nullable
  defaultExpression := row.defaultExpression

def schemaRow (x : TableSchema) : TableSchemaRow where
  tableId := x.id
  schemaName := x.name.schema
  tableName := x.name.name
  snapshotId := x.snapshotId.toText
  columns := x.columnSchemas.map columnRow

/-- `(split_part(snapshot_id, ':', 1)::numeric, split_part(snapshot_id, ':', 2)::numeric)`. -/
def numericKey (snapshotId : List Char) : ℕ ×ₗ ℕ :=
  match Text.splitOnce? ':' snapshotId with
  | none => toLex (0, 0)
  | some (c, m) => toLex ((Text.parse? 10 c).getD 0, (Text.parse? 10 m).getD 0)

namespace SchemaTables

def newestRow? (db : SchemaTables) (tableId : TableId) (snapshotId : SnapshotId) :
    Option TableSchemaRow :=
  (db.rows.filter (fun r => r.tableId = tableId ∧
    numericKey r.snapshotId ≤ numericKey snapshotId.toText)).argmax (fun r => numericKey r.snapshotId)

def readRow (row : TableSchemaRow) : Except SqlxError (Option TableSchema) :=
  match row.columns.insertionSort (fun a b => a.ordinalPosition ≤ b.ordinalPosition) with
  | [] => .ok none
  | c :: cs =>
    match SnapshotId.ofText? row.snapshotId with
    | none => .error .protocol
    | some snapshotId => .ok (some {
        id := row.tableId
        name := ⟨row.schemaName, row.tableName⟩
        columnSchemas := (c :: cs).map parseColumnSchema
        snapshotId := snapshotId })

def loadTableSchemaAtSnapshot (db : SchemaTables) (tableId : TableId) (snapshotId : SnapshotId) :
    Except SqlxError (Option TableSchema) :=
  match db.newestRow? tableId snapshotId with
  | none => .ok none
  | some row => readRow row

def loadTableSchemasAtSnapshot (db : SchemaTables) (snapshotId : SnapshotId) :
    Except SqlxError (List TableSchema) := do
  let loaded ← ((db.rows.map TableSchemaRow.tableId).dedup).mapM
    (fun tableId => db.loadTableSchemaAtSnapshot tableId snapshotId)
  return loaded.filterMap id

def loadTableSchemas (db : SchemaTables) : Except SqlxError (List TableSchema) :=
  db.loadTableSchemasAtSnapshot .max

def storeTableSchema (db : SchemaTables) (x : TableSchema) : Except SqlxError SchemaTables :=
  if (x.columnSchemas.map ColumnSchema.name).Nodup ∧
      (x.columnSchemas.map ColumnSchema.ordinalPosition).Nodup then
    .ok ⟨schemaRow x :: db.rows.filter (fun r =>
      ¬ (r.tableId = x.id ∧ r.snapshotId = x.snapshotId.toText))⟩
  else .error .database

def deleteTableSchemaForTable (db : SchemaTables) (tableId : TableId) : SchemaTables :=
  ⟨db.rows.filter (fun r => r.tableId ≠ tableId)⟩

def deleteObsoleteTableSchemaVersions (db : SchemaTables)
    (retentionSnapshotIds : OrderedMap TableId SnapshotId) : SchemaTables :=
  ⟨db.rows.filter (fun r =>
    match (retentionSnapshotIds.get? r.tableId).bind (db.newestRow? r.tableId) with
    | none => true
    | some retained => ¬ numericKey r.snapshotId < numericKey retained.snapshotId)⟩

end SchemaTables

/-! ## Numeric order of snapshot texts -/

lemma numericKey_toText (s : SnapshotId) :
    numericKey s.toText = toLex (s.commitLsn.toNat, s.messageLsn.toNat) := by
  simp [numericKey, SnapshotId.splitOnce?_toText, Text.parse?_render]

lemma numericKey_le_iff (s s' : SnapshotId) :
    numericKey s.toText ≤ numericKey s'.toText ↔ s ≤ s' := by
  rw [numericKey_toText, numericKey_toText, Prod.Lex.toLex_le_toLex, SnapshotId.le_def]
  refine or_congr Iff.rfl (and_congr_left fun _ => ?_)
  constructor
  · intro h; exact congrArg PgLsn.mk (Fin.ext h)
  · intro h; rw [h]

lemma numericKey_lt_iff (s s' : SnapshotId) :
    numericKey s.toText < numericKey s'.toText ↔ s < s' := by
  rw [← not_le, numericKey_le_iff, not_le]

/-! ## Reading a version back -/

/-- Nothing without columns, else the columns in ordinal order with their types read from names. -/
def TableSchema.reload (x : TableSchema) : Option TableSchema :=
  match (x.columnSchemas.map columnRow).insertionSort
      (fun a b => a.ordinalPosition ≤ b.ordinalPosition) with
  | [] => none
  | c :: cs => some { x with columnSchemas := (c :: cs).map parseColumnSchema }

lemma SchemaTables.readRow_schemaRow (x : TableSchema) :
    readRow (schemaRow x) = .ok x.reload := by
  simp only [readRow, schemaRow, TableSchema.reload, SnapshotId.ofText?_toText]
  split <;> rfl

lemma parseColumnSchema_columnRow {c : ColumnSchema} (h : c.typ.isMapped) :
    parseColumnSchema (columnRow c) = c := by
  simp [parseColumnSchema, columnRow, (stringToPostgresType_toString_iff c.typ).mpr h]

lemma TableSchema.reload_eq_some {x : TableSchema} (hne : x.columnSchemas ≠ [])
    (hord : x.columnSchemas.Pairwise (fun a b => a.ordinalPosition ≤ b.ordinalPosition))
    (htyp : ∀ c ∈ x.columnSchemas, c.typ.isMapped) : x.reload = some x := by
  have hsort : (x.columnSchemas.map columnRow).insertionSort
      (fun a b => a.ordinalPosition ≤ b.ordinalPosition) = x.columnSchemas.map columnRow := by
    apply List.Pairwise.insertionSort_eq
    exact List.pairwise_map.mpr hord
  have hback : (x.columnSchemas.map columnRow).map parseColumnSchema = x.columnSchemas := by
    rw [List.map_map]
    exact (List.map_congr_left fun c hc => parseColumnSchema_columnRow (htyp c hc)).trans
      (List.map_id _)
  unfold TableSchema.reload
  rw [hsort]
  split
  · next h => simp [hne] at h
  · next c cs h => rw [← h, hback]

lemma TableSchema.reload_snapshotId {x y : TableSchema} (h : x.reload = some y) :
    y.id = x.id ∧ y.snapshotId = x.snapshotId := by
  unfold TableSchema.reload at h
  split at h
  · cases h
  · cases h; exact ⟨rfl, rfl⟩

/-! ## Tables that hold the versions of an index -/

def TableSchemaSnapshots.WellKeyed (m : TableSchemaSnapshots) : Prop :=
  ∀ t s x, m.version? t s = some x → x.id = t ∧ x.snapshotId = s

structure SchemaTables.Represents (db : SchemaTables) (m : TableSchemaSnapshots) : Prop where
  mem_rows : ∀ row, row ∈ db.rows ↔ ∃ x, m.version? x.id x.snapshotId = some x ∧ row = schemaRow x
  keyed : m.WellKeyed

namespace SchemaTables.Represents

variable {db : SchemaTables} {m : TableSchemaSnapshots}

lemma empty : Represents ⟨[]⟩ .empty :=
  ⟨fun row => by simp, fun t s x h => by simp at h⟩

lemma mem_eligible_iff (h : db.Represents m) (t : TableId) (s : SnapshotId)
    (row : TableSchemaRow) :
    row ∈ db.rows.filter (fun r => r.tableId = t ∧
        numericKey r.snapshotId ≤ numericKey s.toText) ↔
      ∃ k x, m.version? t k = some x ∧ k ≤ s ∧ row = schemaRow x := by
  rw [List.mem_filter, h.mem_rows]
  simp only [decide_eq_true_eq]
  constructor
  · rintro ⟨⟨x, hx, rfl⟩, ht, hle⟩
    exact ⟨x.snapshotId, x, ht ▸ hx, (numericKey_le_iff _ _).mp hle, rfl⟩
  · rintro ⟨k, x, hx, hle, rfl⟩
    obtain ⟨hid, hs⟩ := h.keyed t k x hx
    subst hid hs
    exact ⟨⟨x, hx, rfl⟩, rfl, (numericKey_le_iff _ _).mpr hle⟩

lemma newestRow?_eq (h : db.Represents m) (t : TableId) (s : SnapshotId) :
    db.newestRow? t s = (m.getAtOrBefore t s).map schemaRow := by
  cases hg : m.getAtOrBefore t s with
  | none =>
    have hnone := (m.getAtOrBefore_eq_none_iff t s).mp hg
    rw [Option.map_none, newestRow?, List.argmax_eq_none, List.eq_nil_iff_forall_not_mem]
    intro row hrow
    obtain ⟨k, x, hx, hle, -⟩ := (h.mem_eligible_iff t s row).mp hrow
    simp [hnone k hle] at hx
  | some x =>
    obtain ⟨k, hx, hle, hmax⟩ := (m.getAtOrBefore_eq_some_iff t s x).mp hg
    obtain ⟨-, hk⟩ := h.keyed t k x hx
    obtain ⟨row, hrow⟩ : ∃ row, db.newestRow? t s = some row := by
      rw [← Option.ne_none_iff_exists']
      intro hn
      rw [newestRow?, List.argmax_eq_none] at hn
      have hmem := (h.mem_eligible_iff t s (schemaRow x)).mpr ⟨k, x, hx, hle, rfl⟩
      rw [hn] at hmem
      cases hmem
    -- the selected row belongs to a version that is neither newer nor older than `x`
    obtain ⟨hmem, hbest, -⟩ := List.argmax_eq_some_iff.mp hrow
    obtain ⟨k', y, hy, hle', rfl⟩ := (h.mem_eligible_iff t s row).mp hmem
    obtain ⟨-, hk'⟩ := h.keyed t k' y hy
    have hxy := hbest (schemaRow x) ((h.mem_eligible_iff t s _).mpr ⟨k, x, hx, hle, rfl⟩)
    have hge : k ≤ k' := by
      rw [← hk, ← hk']; exact (numericKey_le_iff _ _).mp hxy
    have hkk : k' = k := le_antisymm (hmax k' (by simp [hy]) hle') hge
    rw [hkk, hx] at hy
    rw [hrow, Option.some.inj hy, Option.map_some]

lemma loadTableSchemaAtSnapshot_eq (h : db.Represents m) (t : TableId) (s : SnapshotId) :
    db.loadTableSchemaAtSnapshot t s = .ok ((m.getAtOrBefore t s).bind TableSchema.reload) := by
  rw [loadTableSchemaAtSnapshot, h.newestRow?_eq]
  cases m.getAtOrBefore t s with
  | none => rfl
  | some x => exact readRow_schemaRow x

lemma loadTableSchemas_eq (h : db.Represents m) :
    db.loadTableSchemas = .ok (((db.rows.map TableSchemaRow.tableId).dedup).filterMap
      (fun t => (m.getAtOrBefore t .max).bind TableSchema.reload)) := by
  have hload : (fun t => db.loadTableSchemaAtSnapshot t .max) =
      fun t => (pure ((m.getAtOrBefore t .max).bind TableSchema.reload) : Except SqlxError _) :=
    funext fun t => h.loadTableSchemaAtSnapshot_eq t .max
  rw [loadTableSchemas, loadTableSchemasAtSnapshot, hload, List.mapM_pure]
  simp only [pure_bind, List.filterMap_map]
  rfl

lemma storeTableSchema (h : db.Represents m) {x : TableSchema} {db' : SchemaTables}
    (hs : db.storeTableSchema x = .ok db') : db'.Represents (m.insert x) := by
  simp only [SchemaTables.storeTableSchema] at hs
  split at hs
  · cases hs
    refine ⟨fun row => ?_, fun t s y hy => ?_⟩
    · rw [List.mem_cons, List.mem_filter, h.mem_rows]
      simp only [decide_eq_true_eq, TableSchemaSnapshots.version?_insert]
      constructor
      · rintro (rfl | ⟨⟨y, hy, rfl⟩, hne⟩)
        · exact ⟨x, by simp, rfl⟩
        · refine ⟨y, ?_, rfl⟩
          rw [if_neg, hy]
          rintro ⟨hid, hsn⟩
          exact hne ⟨hid, by simp [schemaRow, hsn]⟩
      · rintro ⟨y, hy, rfl⟩
        split_ifs at hy with hc
        · cases hy; exact .inl rfl
        · refine .inr ⟨⟨y, hy, rfl⟩, fun hcon => hc ⟨hcon.1, ?_⟩⟩
          exact SnapshotId.toText_injective hcon.2
    · rw [TableSchemaSnapshots.version?_insert] at hy
      split_ifs at hy with hc
      · cases hy; exact ⟨hc.1.symm, hc.2.symm⟩
      · exact h.keyed t s y hy
  · cases hs

lemma deleteTableSchemaForTable (h : db.Represents m) (t : TableId) :
    (db.deleteTableSchemaForTable t).Represents (m.removeTable t) := by
  refine ⟨fun row => ?_, fun t' s y hy => ?_⟩
  · simp only [SchemaTables.deleteTableSchemaForTable, List.mem_filter, h.mem_rows,
      TableSchemaSnapshots.version?_removeTable]
    constructor
    · rintro ⟨⟨y, hy, rfl⟩, hne⟩
      have hid : y.id ≠ t := of_decide_eq_true hne
      exact ⟨y, by simp [hid, hy], rfl⟩
    · rintro ⟨y, hy, rfl⟩
      split_ifs at hy with hid
      exact ⟨⟨y, hy, rfl⟩, decide_eq_true hid⟩
  · rw [TableSchemaSnapshots.version?_removeTable] at hy
    split_ifs at hy
    exact h.keyed t' s y hy

lemma deleteObsoleteTableSchemaVersions (h : db.Represents m)
    (r : OrderedMap TableId SnapshotId) :
    (db.deleteObsoleteTableSchemaVersions r).Represents (m.prune r) := by
  -- a row stays iff its version has no newer one at or below the boundary of its table
  have keep : ∀ x, m.version? x.id x.snapshotId = some x →
      ((match (r.get? x.id).bind (db.newestRow? x.id) with
        | none => true
        | some retained => decide (¬ numericKey x.snapshotId.toText <
            numericKey retained.snapshotId)) = true ↔
        (m.prune r).version? x.id x.snapshotId = some x) := by
    intro x hx
    rw [TableSchemaSnapshots.version?_prune_eq_some_iff]
    cases hb : r.get? x.id with
    | none => simp [hx]
    | some b =>
      rw [Option.bind_some, h.newestRow?_eq]
      cases hg : m.getAtOrBefore x.id b with
      | none =>
        have hnone := (m.getAtOrBefore_eq_none_iff x.id b).mp hg
        simp only [Option.map_none, Option.some.injEq, hx, true_and, true_iff]
        rintro b' rfl k hk hle
        simp [hnone k hle] at hk
      | some y =>
        obtain ⟨k, hy, hle, hmax⟩ := (m.getAtOrBefore_eq_some_iff x.id b y).mp hg
        obtain ⟨-, hk⟩ := h.keyed _ k y hy
        simp only [Option.map_some, schemaRow, numericKey_lt_iff, hk, decide_eq_true_eq, not_lt,
          hx, true_and, Option.some.injEq]
        constructor
        · rintro hge b' rfl k' hk' hle'
          exact (hmax k' hk' hle').trans hge
        · intro hall
          exact hall b rfl k (by simp [hy]) hle
  refine ⟨fun row => ?_, fun t s y hy => ?_⟩
  · simp only [SchemaTables.deleteObsoleteTableSchemaVersions, List.mem_filter, h.mem_rows]
    constructor
    · rintro ⟨⟨y, hy, rfl⟩, hkeep⟩
      exact ⟨y, (keep y hy).mp hkeep, rfl⟩
    · rintro ⟨y, hy, rfl⟩
      have hy' := ((m.version?_prune_eq_some_iff r _ _ y).mp hy).1
      exact ⟨⟨y, hy', rfl⟩, (keep y hy').mpr hy⟩
  · exact h.keyed t s y ((m.version?_prune_eq_some_iff r t s y).mp hy).1

end SchemaTables.Represents

end Etl
