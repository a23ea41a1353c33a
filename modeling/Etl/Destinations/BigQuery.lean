import Etl.Destinations.WriteEvents

/-!
# BigQuery

Of the change rows of a primary key BigQuery shows the one with the greatest
`_CHANGE_SEQUENCE_NUMBER`, a text of hexadecimal sections, if it is an `UPSERT`. An update that
changes the key becomes a delete and an upsert; an event whose old row does not tell is refused. So
the table shows the rows of the source (`currentRows_eq_source`).
-/

namespace Etl.BigQuery

open LatestVersion

/-! ## Rows of events -/

inductive BigQueryOperationType where
  | upsert
  | delete
deriving DecidableEq

def BigQueryOperationType.asStr : BigQueryOperationType → String
  | .upsert => "UPSERT"
  | .delete => "DELETE"

def sequenceOrdinalFirst : Nat := 0

def sequenceOrdinalSecond : Nat := 1

def bigquerySequenceKey (sequenceKey : EventSequenceKey) (internalOrdinal : Nat) : String :=
  String.ofList (Text.lowerHex 16 sequenceKey.commitLsn.toNat ++
    '/' :: (Text.lowerHex 16 sequenceKey.txOrdinal ++ '/' :: Text.lowerHex 16 internalOrdinal))

abbrev BigQueryTableRow := List (Nat × Option String)

section Rows

-- the error `cell_encode_prost` has for a cell, if it cannot encode it
variable (encodeError : Option String → Option ErrorKind)

def tryFromTaggedCells (taggedCells : List (Nat × Option String)) :
    Except EtlError BigQueryTableRow :=
  match taggedCells.findSome? (fun cell => encodeError cell.2) with
  | some kind => .error ⟨kind, "Cell encoding failed for BigQuery"⟩
  | none => .ok taggedCells

def tryFromRow (values : List (Option String)) : Except EtlError BigQueryTableRow :=
  tryFromTaggedCells encodeError (values.zipIdx.map fun p => (p.2 + 1, p.1))

def bigqueryUpsertRow (tableRow : TableRow) (sequenceKey : String) :
    Except EtlError BigQueryTableRow :=
  tryFromRow encodeError
    (tableRow.values ++ [some BigQueryOperationType.upsert.asStr, some sequenceKey])

def copyRow (row : TableRow) : BigQueryTableRow :=
  (row.values ++ [some BigQueryOperationType.upsert.asStr]).zipIdx.map fun p => (p.2 + 1, p.1)

def bigqueryUpdateNewRow : UpdatedTableRow → Except EtlError TableRow
  | .full row => .ok row
  | .partialRow .. =>
    .error ⟨.sourceReplicaIdentityError, "BigQuery update requires a full new row image"⟩

def bigqueryDeleteOldRow : Option OldTableRow → Except EtlError OldTableRow
  | some row => .ok row
  | none => .error ⟨.sourceReplicaIdentityError, "BigQuery delete requires an old row image"⟩

def ensureBigqueryUpdateWithoutOldRowCanSkipDelete (schema : ReplicatedTableSchema) :
    Except EtlError Unit :=
  if schema.identityType = .primaryKey then .ok ()
  else .error ⟨.sourceReplicaIdentityError, "BigQuery update requires old primary-key values"⟩

def ensureBigqueryKeyImageMatchesPrimaryKey (schema : ReplicatedTableSchema) :
    Except EtlError Unit :=
  if schema.identityType = .primaryKey then .ok ()
  else .error ⟨.sourceReplicaIdentityError,
    "BigQuery key image does not match the source primary key"⟩

def fullImageMismatch : EtlError :=
  ⟨.invalidState, "BigQuery full row image does not match the replicated schema"⟩

def keyValuesChanged : List (Option String) → List (Option String) → Except EtlError Bool
  | [], _ => .ok false
  | _ :: _, [] => .error ⟨.invalidState, "BigQuery primary key schema mismatch"⟩
  | oldValue :: oldValues, newValue :: newValues =>
    if oldValue ≠ newValue then .ok true else keyValuesChanged oldValues newValues

def bigqueryPrimaryKeyChanged (schema : ReplicatedTableSchema) (oldTableRow : OldTableRow)
    (newTableRow : TableRow) : Except EtlError Bool := do
  let columnCount := schema.columnSchemas.length
  if newTableRow.values.length ≠ columnCount then throw fullImageMismatch
  match oldTableRow with
  | .full row =>
    if row.values.length ≠ columnCount then throw fullImageMismatch
    return ((schema.columnSchemas.zip row.values).zip newTableRow.values).any fun p =>
      p.1.1.primaryKey && p.1.2 ≠ p.2
  | .key row =>
    if row.values.length ≠ schema.primaryKeyColumnSchemas.length then
      throw ⟨.invalidState, "BigQuery key image does not match the source primary key"⟩
    ensureBigqueryKeyImageMatchesPrimaryKey schema
    keyValuesChanged row.values
      (((schema.columnSchemas.zip newTableRow.values).filter (·.1.primaryKey)).map Prod.snd)

def tagKeyValues : Nat → List ColumnSchema → List ColumnSchema → List (Option String) →
    Except EtlError (List (Nat × Option String))
  | _, [], _, [] => .ok []
  | _, [], _, _ :: _ => .error ⟨.invalidState, "BigQuery delete key image has leftover values"⟩
  | index, _ :: columns, [], keyValues => tagKeyValues (index + 1) columns [] keyValues
  | index, column :: columns, keyColumn :: keyColumns, keyValues =>
    if keyColumn.ordinalPosition = column.ordinalPosition then
      match keyValues with
      | [] => .error ⟨.invalidState, "BigQuery delete key image shape is inconsistent"⟩
      | value :: keyValues => do
        let tagged ← tagKeyValues (index + 1) columns keyColumns keyValues
        return (index + 1, value) :: tagged
    else tagKeyValues (index + 1) columns (keyColumn :: keyColumns) keyValues

def tagFullRow (schema : ReplicatedTableSchema) (row : TableRow) : List (Nat × Option String) :=
  (schema.columnSchemas.zip row.values).zipIdx.filterMap fun p =>
    if p.1.1.primaryKey then some (p.2 + 1, p.1.2) else none

def bigqueryPrimaryKeyTaggedCellsFromOldRow (schema : ReplicatedTableSchema) :
    OldTableRow → Except EtlError (List (Nat × Option String))
  | .full row => do
    if row.values.length ≠ schema.columnSchemas.length then throw fullImageMismatch
    return tagFullRow schema row
  | .key row => do
    if row.values.length ≠ schema.primaryKeyColumnSchemas.length then
      throw ⟨.invalidState, "BigQuery delete key image does not match the source primary key"⟩
    ensureBigqueryKeyImageMatchesPrimaryKey schema
    tagKeyValues 0 schema.columnSchemas schema.primaryKeyColumnSchemas row.values

def bigqueryDeleteRow (schema : ReplicatedTableSchema) (oldTableRow : OldTableRow)
    (sequenceKey : String) : Except EtlError BigQueryTableRow := do
  let sourceColumnCount := schema.columnSchemas.length
  let taggedCells ← bigqueryPrimaryKeyTaggedCellsFromOldRow schema oldTableRow
  tryFromTaggedCells encodeError (taggedCells ++
    [(sourceColumnCount + 1, some BigQueryOperationType.delete.asStr),
      (sourceColumnCount + 2, some sequenceKey)])

def updateChangesKey (schema : ReplicatedTableSchema) (newTableRow : TableRow) :
    Option OldTableRow → Except EtlError Bool
  | some oldTableRow => bigqueryPrimaryKeyChanged schema oldTableRow newTableRow
  | none => do
    ensureBigqueryUpdateWithoutOldRowCanSkipDelete schema
    return false

def bigqueryUpdateRows (schema : ReplicatedTableSchema) (newTableRow : TableRow)
    (oldTableRow : Option OldTableRow) (sequenceKey : EventSequenceKey) :
    Except EtlError (List BigQueryTableRow) := do
  let primaryKeyChanged ← updateChangesKey schema newTableRow oldTableRow
  if primaryKeyChanged then
    match oldTableRow with
    | none => throw ⟨.invalidState, "BigQuery primary key change is missing old row"⟩
    | some oldTableRow =>
      let deleted ← bigqueryDeleteRow encodeError schema oldTableRow
        (bigquerySequenceKey sequenceKey sequenceOrdinalFirst)
      let upserted ← bigqueryUpsertRow encodeError newTableRow
        (bigquerySequenceKey sequenceKey sequenceOrdinalSecond)
      return [deleted, upserted]
  else
    let upserted ← bigqueryUpsertRow encodeError newTableRow
      (bigquerySequenceKey sequenceKey sequenceOrdinalFirst)
    return [upserted]

def eventRows : Event → Except EtlError (List BigQueryTableRow)
  | .insert commitLsn txOrdinal _ tableRow => do
    let row ← bigqueryUpsertRow encodeError tableRow
      (bigquerySequenceKey ⟨commitLsn, txOrdinal⟩ sequenceOrdinalFirst)
    return [row]
  | .update commitLsn txOrdinal schema updatedTableRow oldTableRow => do
    let tableRow ← bigqueryUpdateNewRow updatedTableRow
    bigqueryUpdateRows encodeError schema tableRow oldTableRow ⟨commitLsn, txOrdinal⟩
  | .delete commitLsn txOrdinal schema oldTableRow => do
    let oldTableRow ← bigqueryDeleteOldRow oldTableRow
    let row ← bigqueryDeleteRow encodeError schema oldTableRow
      (bigquerySequenceKey ⟨commitLsn, txOrdinal⟩ sequenceOrdinalFirst)
    return [row]
  | _ => .ok []

end Rows

/-! ## The change rule of BigQuery -/

/-- Its sections, compared from left to right. A row without a number is below all others. -/
abbrev SequenceNumber := WithBot (ℕ ×ₗ ℕ ×ₗ ℕ)

def parseSequenceNumber (text : String) : SequenceNumber :=
  match Text.splitOnce? '/' text.toList with
  | none => ⊥
  | some (first, rest) =>
    match Text.splitOnce? '/' rest with
    | none => ⊥
    | some (second, third) =>
      match Text.parse? 16 first, Text.parse? 16 second, Text.parse? 16 third with
      | some a, some b, some c => ↑(toLex (a, toLex (b, c)))
      | _, _, _ => ⊥

def field (row : BigQueryTableRow) (tag : Nat) : Option String :=
  (row.find? (·.1 = tag)).bind Prod.snd

def userCells (schema : ReplicatedTableSchema) (row : BigQueryTableRow) : TableRow :=
  ⟨(List.range schema.columnSchemas.length).map fun i => field row (i + 1)⟩

def storedChange (schema : ReplicatedTableSchema) (row : BigQueryTableRow) :
    Change (List (Option String)) SequenceNumber TableRow where
  key := schema.primaryKeyOf (userCells schema row)
  version :=
    match field row (schema.columnSchemas.length + 2) with
    | some text => parseSequenceNumber text
    | none => ⊥
  value :=
    if field row (schema.columnSchemas.length + 1) = some BigQueryOperationType.upsert.asStr then
      some (userCells schema row)
    else none

def currentRows (schema : ReplicatedTableSchema) (table : List BigQueryTableRow) : List TableRow :=
  visible (table.map (storedChange schema))

/-! ## Sequence numbers -/

lemma parseSequenceNumber_bigquerySequenceKey (key : EventSequenceKey) (internalOrdinal : Nat) :
    parseSequenceNumber (bigquerySequenceKey key internalOrdinal) =
      ↑(toLex (key.commitLsn.toNat, toLex (key.txOrdinal, internalOrdinal))) := by
  have hslash : ∀ n, '/' ∉ Text.lowerHex 16 n := fun n =>
    Text.notMem_lowerHex (by decide) 16 n
  have hparse : ∀ n, Text.parse? 16 (Text.lowerHex 16 n) = some n :=
    Text.parse?_lowerHex (by norm_num)
  simp [parseSequenceNumber, bigquerySequenceKey, Text.splitOnce?_append _ _ (hslash _), hparse]

def SequenceNumberOf (key : EventSequenceKey) (number : SequenceNumber) : Prop :=
  (key = ⟨0, 0⟩ ∧ number = ⊥) ∨
    ∃ internalOrdinal : ℕ,
      number = ↑(toLex (key.commitLsn.toNat, toLex (key.txOrdinal, internalOrdinal)))

lemma SequenceNumberOf.lt {key key' : EventSequenceKey} {number number' : SequenceNumber}
    (hbefore : key.Before key') (h : SequenceNumberOf key number)
    (h' : SequenceNumberOf key' number') : number < number' := by
  obtain ⟨ordinal', rfl⟩ : ∃ internalOrdinal : ℕ,
      number' = ↑(toLex (key'.commitLsn.toNat, toLex (key'.txOrdinal, internalOrdinal))) := by
    rcases h' with ⟨rfl, -⟩ | h'
    · -- no event is before the copy
      rcases hbefore with hlt | ⟨-, hlt⟩
      · exact absurd hlt (PgLsn.zero_le _).not_gt
      · exact absurd hlt (Nat.not_lt_zero _)
    · exact h'
  rcases h with ⟨-, rfl⟩ | ⟨ordinal, rfl⟩
  · exact WithBot.bot_lt_coe _
  · rw [WithBot.coe_lt_coe, Prod.Lex.toLex_lt_toLex, Prod.Lex.toLex_lt_toLex]
    rcases hbefore with hlt | ⟨heq, hlt⟩
    · exact .inl hlt
    · exact .inr ⟨congrArg PgLsn.toNat heq, .inl hlt⟩

/-! ## What a row says -/

section Rows

variable {schema : ReplicatedTableSchema} {encodeError : Option String → Option ErrorKind}

lemma eq_of_tryFromTaggedCells {cells : List (Nat × Option String)} {row : BigQueryTableRow}
    (h : tryFromTaggedCells encodeError cells = .ok row) : row = cells := by
  unfold tryFromTaggedCells at h
  split at h <;> cases h
  rfl

lemma field_zipIdx (values : List (Option String)) (i : Nat) :
    field (values.zipIdx.map fun p => (p.2 + 1, p.1)) (i + 1) = values[i]?.join := by
  have hoffset : ∀ (values : List (Option String)) (offset i : Nat),
      field ((values.zipIdx offset).map fun p => (p.2 + 1, p.1)) (offset + i + 1) =
        values[i]?.join := by
    intro values
    induction values with
    | nil => simp [field]
    | cons value values ih =>
      intro offset i
      cases i with
      | zero => simp [field]
      | succ i =>
        have htail := ih (offset + 1) i
        have hne : ¬ offset = offset + (i + 1) := by omega
        simpa [field, hne, Nat.add_assoc, Nat.add_comm 1 i, Nat.add_left_comm 1] using htail
  simpa using hoffset values 0 i

lemma userCells_zipIdx {values extra : List (Option String)}
    (h : values.length = schema.columnSchemas.length) :
    userCells schema ((values ++ extra).zipIdx.map fun p => (p.2 + 1, p.1)) = ⟨values⟩ := by
  rw [userCells, TableRow.mk.injEq]
  refine List.ext_getElem (by simp [h]) fun i hi hi' => ?_
  rw [List.getElem_map, List.getElem_range, field_zipIdx, List.getElem?_append_left hi',
    List.getElem?_eq_getElem hi', Option.join_some]

lemma storedChange_copyRow {row : TableRow} (h : schema.HasWidth row) :
    storedChange schema (copyRow row) = ⟨schema.primaryKeyOf row, ⊥, some row⟩ := by
  have hlength : schema.columnSchemas.length = row.values.length := h.symm
  rw [storedChange, copyRow, userCells_zipIdx h, field_zipIdx, hlength, field_zipIdx]
  simp

variable {key : EventSequenceKey} {internalOrdinal : Nat}

lemma storedChange_upsert {tableRow : TableRow}
    {row : BigQueryTableRow} (hwidth : schema.HasWidth tableRow)
    (h : bigqueryUpsertRow encodeError tableRow (bigquerySequenceKey key internalOrdinal) =
      .ok row) :
    storedChange schema row = ⟨schema.primaryKeyOf tableRow,
      ↑(toLex (key.commitLsn.toNat, toLex (key.txOrdinal, internalOrdinal))), some tableRow⟩ := by
  obtain rfl := eq_of_tryFromTaggedCells h
  have hlength : schema.columnSchemas.length = tableRow.values.length := hwidth.symm
  rw [storedChange, userCells_zipIdx hwidth, field_zipIdx, hlength, field_zipIdx]
  simp [parseSequenceNumber_bigquerySequenceKey]

lemma find?_tagFullRow (row : TableRow) (i : Nat) :
    (tagFullRow schema row).find? (·.1 = i + 1) =
      ((schema.columnSchemas.zip row.values)[i]?).bind fun p =>
        if p.1.primaryKey then some (i + 1, p.2) else none := by
  have hoffset : ∀ (columns : List (ColumnSchema × Option String)) (offset i : Nat),
      ((columns.zipIdx offset).filterMap fun p =>
        if p.1.1.primaryKey then some (p.2 + 1, p.1.2) else none).find? (·.1 = offset + i + 1) =
        (columns[i]?).bind fun p =>
          if p.1.primaryKey then some (offset + i + 1, p.2) else none := by
    intro columns
    induction columns with
    | nil => simp
    | cons column columns ih =>
      intro offset i
      rw [List.zipIdx_cons]
      cases i with
      | zero =>
        cases hkey : column.1.primaryKey with
        | true => simp [hkey]
        | false =>
          -- the later fields have greater numbers
          simp only [List.filterMap_cons, hkey, Bool.false_eq_true, if_false, List.getElem?_cons_zero,
            Option.bind_some, List.find?_eq_none, List.mem_filterMap]
          rintro _ ⟨⟨p, index⟩, hp, hsome⟩
          have hindex := List.le_snd_of_mem_zipIdx hp
          simp only [Option.ite_none_right_eq_some, Option.some.injEq] at hsome
          obtain ⟨-, rfl⟩ := hsome
          simp only [decide_eq_true_eq]
          omega
      | succ i =>
        have htail := ih (offset + 1) i
        have hnumber : offset + 1 + i + 1 = offset + (i + 1) + 1 := by omega
        rw [hnumber] at htail
        cases hkey : column.1.primaryKey <;> simp [hkey, htail]
  simpa [tagFullRow] using hoffset (schema.columnSchemas.zip row.values) 0 i

variable {old : TableRow}

lemma storedChange_delete (hwidth : schema.HasWidth old) :
    storedChange schema (tagFullRow schema old ++
      [(schema.columnSchemas.length + 1, some BigQueryOperationType.delete.asStr),
        (schema.columnSchemas.length + 2, some (bigquerySequenceKey key internalOrdinal))]) =
      ⟨schema.primaryKeyOf old,
        ↑(toLex (key.commitLsn.toNat, toLex (key.txOrdinal, internalOrdinal))), none⟩ := by
  set count := schema.columnSchemas.length
  set row := tagFullRow schema old ++ [(count + 1, some BigQueryOperationType.delete.asStr),
    (count + 2, some (bigquerySequenceKey key internalOrdinal))]
  have hnone : ∀ i, count ≤ i → (tagFullRow schema old).find? (·.1 = i + 1) = none := by
    intro i hi
    rw [find?_tagFullRow, List.getElem?_eq_none (by simp; omega), Option.bind_none]
  have htype : field row (count + 1) = some BigQueryOperationType.delete.asStr := by
    simp [row, field, List.find?_append, hnone count le_rfl]
  have hnumber : field row (count + 2) = some (bigquerySequenceKey key internalOrdinal) := by
    simp [row, field, List.find?_append, hnone (count + 1) (by omega)]
  have hcells : schema.HasWidth (userCells schema row) := by
    simp [ReplicatedTableSchema.HasWidth, userCells]
  have hkey : schema.primaryKeyOf (userCells schema row) = schema.primaryKeyOf old := by
    refine ReplicatedTableSchema.primaryKeyOf_eq_of_keyValuesOf_eq hcells hwidth ?_
    refine ReplicatedTableSchema.selectFlagged_congr (hcells.trans hwidth.symm) fun i hi => ?_
    obtain ⟨column, hcolumn, hflag⟩ : ∃ column, schema.columnSchemas[i]? = some column ∧
        column.primaryKey = true := by simpa using hi
    have hlt : i < count := (List.getElem?_eq_some_iff.1 hcolumn).1
    obtain ⟨value, hvalue⟩ : ∃ value, old.values[i]? = some value :=
      ⟨_, List.getElem?_eq_getElem (hlt.trans_eq hwidth.symm)⟩
    have hzip : (schema.columnSchemas.zip old.values)[i]? = some (column, value) :=
      List.getElem?_zip_eq_some.2 ⟨hcolumn, hvalue⟩
    have hfield : field row (i + 1) = value := by
      simp [row, field, List.find?_append, find?_tagFullRow, hzip, hflag]
    rw [hvalue, userCells, List.getElem?_map, List.getElem?_range hlt, Option.map_some, hfield]
  rw [storedChange, htype, hnumber, hkey]
  simp [parseSequenceNumber_bigquerySequenceKey, BigQueryOperationType.asStr]

lemma tagKeyValues_selectFlagged {columns : List ColumnSchema} {values : List (Option String)}
    (hordinals : (columns.map (·.ordinalPosition)).Nodup) (hlength : values.length = columns.length)
    (index : Nat) :
    tagKeyValues index columns (columns.filter (·.primaryKey))
      (ReplicatedTableSchema.selectFlagged (columns.map (·.primaryKey)) values) =
      .ok (((columns.zip values).zipIdx index).filterMap fun p =>
        if p.1.1.primaryKey then some (p.2 + 1, p.1.2) else none) := by
  induction columns generalizing values index with
  | nil => simp [tagKeyValues, ReplicatedTableSchema.selectFlagged]
  | cons column columns ih =>
    cases values with
    | nil => simp at hlength
    | cons value values =>
      obtain ⟨hfresh, hordinals⟩ := List.nodup_cons.1 hordinals
      have htail := ih hordinals (by simpa using hlength) (index + 1)
      rw [List.map_cons, ReplicatedTableSchema.selectFlagged_cons, List.zip_cons_cons,
        List.zipIdx_cons]
      cases hkey : column.primaryKey with
      | true => simp [tagKeyValues, hkey, htail]
      | false =>
        rw [List.filter_cons_of_neg (by simp [hkey]), List.filterMap_cons]
        simp only [hkey, Bool.false_eq_true, if_false]
        -- the next key column is another column, so it has another position
        cases hfilter : columns.filter (·.primaryKey) with
        | nil =>
          rw [hfilter] at htail
          simpa [tagKeyValues] using htail
        | cons keyColumn keyColumns =>
          rw [hfilter] at htail
          have hmem : keyColumn ∈ columns :=
            List.mem_of_mem_filter (hfilter ▸ List.mem_cons_self)
          have hne : keyColumn.ordinalPosition ≠ column.ordinalPosition := fun heq =>
            hfresh (List.mem_map.2 ⟨keyColumn, hmem, heq⟩)
          simpa [tagKeyValues, hne] using htail

lemma taggedCells_of_oldImage {image : OldTableRow}
    {cells : List (Nat × Option String)} (hfits : schema.Fits)
    (hordinals : (schema.columnSchemas.map (·.ordinalPosition)).Nodup)
    (hwidth : schema.HasWidth old) (himage : OldImage schema old image)
    (h : bigqueryPrimaryKeyTaggedCellsFromOldRow schema image = .ok cells) :
    cells = tagFullRow schema old := by
  cases himage with
  | full =>
    have hcount : old.values.length = schema.columnSchemas.length := hwidth
    simpa [bigqueryPrimaryKeyTaggedCellsFromOldRow, hcount, pure, Except.pure, bind, Except.bind,
      eq_comm] using h
  | key =>
    obtain ⟨htype, htagged⟩ : schema.identityType = .primaryKey ∧
        tagKeyValues 0 schema.columnSchemas schema.primaryKeyColumnSchemas
          (schema.identityOf old) = .ok cells := by
      by_cases hlength : (schema.identityOf old).length = schema.primaryKeyColumnSchemas.length <;>
        by_cases htype : schema.identityType = .primaryKey <;>
        simp_all [bigqueryPrimaryKeyTaggedCellsFromOldRow, ensureBigqueryKeyImageMatchesPrimaryKey,
          bind, Except.bind, throw, throwThe, MonadExceptOf.throw]
    rw [ReplicatedTableSchema.identityOf_eq_keyValuesOf hfits htype,
      ReplicatedTableSchema.primaryKeyColumnSchemas_eq, ReplicatedTableSchema.keyValuesOf,
      tagKeyValues_selectFlagged hordinals hwidth] at htagged
    cases htagged
    rfl

lemma deleteRow_of_oldImage {image : OldTableRow} {row : BigQueryTableRow} (hfits : schema.Fits)
    (hordinals : (schema.columnSchemas.map (·.ordinalPosition)).Nodup)
    (hwidth : schema.HasWidth old) (himage : OldImage schema old image)
    (h : bigqueryDeleteRow encodeError schema image (bigquerySequenceKey key internalOrdinal) =
      .ok row) :
    storedChange schema row = ⟨schema.primaryKeyOf old,
      ↑(toLex (key.commitLsn.toNat, toLex (key.txOrdinal, internalOrdinal))), none⟩ := by
  cases hcells : bigqueryPrimaryKeyTaggedCellsFromOldRow schema image with
  | error => simp [bigqueryDeleteRow, hcells, bind, Except.bind] at h
  | ok cells =>
    simp only [bigqueryDeleteRow, hcells, bind, Except.bind] at h
    obtain rfl := taggedCells_of_oldImage hfits hordinals hwidth himage hcells
    obtain rfl := eq_of_tryFromTaggedCells h
    exact storedChange_delete hwidth

/-! ## Whether the key has changed -/

lemma keyValuesChanged_eq {oldValues newValues : List (Option String)}
    (h : oldValues.length = newValues.length) :
    keyValuesChanged oldValues newValues = .ok (decide (oldValues ≠ newValues)) := by
  induction oldValues generalizing newValues with
  | nil => simp [keyValuesChanged, List.eq_nil_of_length_eq_zero h.symm]
  | cons oldValue oldValues ih =>
    obtain ⟨newValue, newValues, rfl⟩ := List.exists_cons_of_length_eq_add_one h.symm
    by_cases heq : oldValue = newValue
    · simp [keyValuesChanged, heq, @ih newValues (by simpa using h)]
    · simp [keyValuesChanged, heq]

lemma any_keyColumn_ne {columns : List ColumnSchema} {oldValues newValues : List (Option String)}
    (hold : oldValues.length = columns.length) (hnew : newValues.length = columns.length) :
    (((columns.zip oldValues).zip newValues).any fun p => p.1.1.primaryKey && p.1.2 ≠ p.2) =
      decide (ReplicatedTableSchema.selectFlagged (columns.map (·.primaryKey)) oldValues ≠
        ReplicatedTableSchema.selectFlagged (columns.map (·.primaryKey)) newValues) := by
  induction columns generalizing oldValues newValues with
  | nil => simp [ReplicatedTableSchema.selectFlagged]
  | cons column columns ih =>
    obtain ⟨oldValue, oldValues, rfl⟩ := List.exists_cons_of_length_eq_add_one hold
    obtain ⟨newValue, newValues, rfl⟩ := List.exists_cons_of_length_eq_add_one hnew
    have htail := @ih oldValues newValues (by simpa using hold) (by simpa using hnew)
    rw [List.zip_cons_cons, List.zip_cons_cons, List.any_cons, htail, List.map_cons,
      ReplicatedTableSchema.selectFlagged_cons, ReplicatedTableSchema.selectFlagged_cons]
    cases hkey : column.primaryKey with
    | false => simp
    | true => by_cases heq : oldValue = newValue <;> simp [heq]

lemma primaryKeyChanged_of_oldImage {new : TableRow} {image : OldTableRow} {changed : Bool}
    (hfits : schema.Fits) (hold : schema.HasWidth old) (hnew : schema.HasWidth new)
    (himage : OldImage schema old image)
    (h : bigqueryPrimaryKeyChanged schema image new = .ok changed) :
    changed = decide (schema.keyValuesOf old ≠ schema.keyValuesOf new) := by
  have hnewCount : new.values.length = schema.columnSchemas.length := hnew
  cases himage with
  | full =>
    have holdCount : old.values.length = schema.columnSchemas.length := hold
    simp only [bigqueryPrimaryKeyChanged, hnewCount, holdCount, any_keyColumn_ne hold hnew, bind,
      Except.bind, pure, Except.pure, ne_eq, not_true_eq_false, if_false] at h
    cases h
    rfl
  | key =>
    obtain ⟨hlength, htype, hchanged⟩ :
        (schema.identityOf old).length = schema.primaryKeyColumnSchemas.length ∧
          schema.identityType = .primaryKey ∧
          keyValuesChanged (schema.identityOf old)
            (((schema.columnSchemas.zip new.values).filter (·.1.primaryKey)).map Prod.snd) =
              .ok changed := by
      by_cases hlength : (schema.identityOf old).length = schema.primaryKeyColumnSchemas.length <;>
        by_cases htype : schema.identityType = .primaryKey <;>
        simp_all [bigqueryPrimaryKeyChanged, ensureBigqueryKeyImageMatchesPrimaryKey,
          bind, Except.bind, throw, throwThe, MonadExceptOf.throw]
    have hkeys : ((schema.columnSchemas.zip new.values).filter (·.1.primaryKey)).map Prod.snd =
        schema.keyValuesOf new := by
      rw [ReplicatedTableSchema.zip_filter_primaryKey hnew, List.map_snd_zip]
      · rfl
      · rw [← ReplicatedTableSchema.primaryKeyColumnSchemas_eq]
        exact (ReplicatedTableSchema.length_keyValuesOf hnew).le
    rw [hkeys, ReplicatedTableSchema.identityOf_eq_keyValuesOf hfits htype, keyValuesChanged_eq
      ((ReplicatedTableSchema.length_keyValuesOf hold).trans
        (ReplicatedTableSchema.length_keyValuesOf hnew).symm)] at hchanged
    cases hchanged
    rfl

lemma updateChangesKey_of_emitted {new : TableRow} {image : Option OldTableRow}
    {changed : Bool} (hfits : schema.Fits) (hold : schema.HasWidth old) (hnew : schema.HasWidth new)
    (himage : ∀ oldRow, image = some oldRow → OldImage schema old oldRow)
    (hnone : image = none → schema.identityOf old = schema.identityOf new)
    (h : updateChangesKey schema new image = .ok changed) :
    changed = decide (schema.primaryKeyOf old ≠ schema.primaryKeyOf new) := by
  have hiff := ReplicatedTableSchema.primaryKeyOf_eq_iff hold hnew
  cases image with
  | some oldRow =>
    rw [primaryKeyChanged_of_oldImage hfits hold hnew (himage oldRow rfl) h]
    simp [hiff]
  | none =>
    by_cases htype : schema.identityType = .primaryKey
    · have hkeys := hnone rfl
      rw [ReplicatedTableSchema.identityOf_eq_keyValuesOf hfits htype,
        ReplicatedTableSchema.identityOf_eq_keyValuesOf hfits htype] at hkeys
      have hfalse : changed = false := by
        simpa [updateChangesKey, ensureBigqueryUpdateWithoutOldRowCanSkipDelete, htype, bind,
          Except.bind, pure, Except.pure, eq_comm] using h
      simp [hfalse, hiff.2 hkeys]
    · simp [updateChangesKey, ensureBigqueryUpdateWithoutOldRowCanSkipDelete, htype, bind,
        Except.bind] at h

end Rows

/-! ## The table and the source -/

section Source

variable {history : SourceHistory} {encodeError : Option String → Option ErrorKind}

def Says (schema : ReplicatedTableSchema) (rows : SourceRows) (change : RowChange)
    (key : EventSequenceKey) (out : List BigQueryTableRow) : Prop :=
  ((out.map (storedChange schema)).map Change.key).Nodup ∧
    override rows (out.map (storedChange schema)) = change.apply schema rows ∧
    ∀ r ∈ out, SequenceNumberOf key (storedChange schema r).version

lemma says_update {schema : ReplicatedTableSchema} {rows : SourceRows} {old new : TableRow}
    {image : Option OldTableRow} {key : EventSequenceKey} {out : List BigQueryTableRow}
    (hfits : schema.Fits) (hordinals : (schema.columnSchemas.map (·.ordinalPosition)).Nodup)
    (hold : schema.HasWidth old) (hnew : schema.HasWidth new)
    (himage : ∀ oldRow, image = some oldRow → OldImage schema old oldRow)
    (hnone : image = none → schema.identityOf old = schema.identityOf new)
    (h : bigqueryUpdateRows encodeError schema new image key = .ok out) :
    Says schema rows (.update old new) key out := by
  obtain ⟨changed, hchanged, h⟩ := Except.exists_of_bind_eq_ok h
  have hkey := updateChangesKey_of_emitted hfits hold hnew himage hnone hchanged
  by_cases hsame : schema.primaryKeyOf old = schema.primaryKeyOf new
  · -- one upsert, under the key the row had
    obtain rfl : changed = false := by simpa [hsame] using hkey
    obtain ⟨upserted, hupserted, h⟩ := Except.exists_of_bind_eq_ok h
    cases h
    have hstored := storedChange_upsert hnew hupserted
    refine ⟨by simp, ?_, ?_⟩
    · simp [hstored, override_cons, RowChange.apply, hsame]
    · simp only [List.forall_mem_singleton, hstored]
      exact .inr ⟨_, rfl⟩
  · -- the old key is deleted and the new one upserted
    obtain rfl : changed = true := by simpa [hsame] using hkey
    cases image with
    | none => cases h
    | some oldRow =>
      obtain ⟨deleted, hdeleted, h⟩ := Except.exists_of_bind_eq_ok h
      obtain ⟨upserted, hupserted, h⟩ := Except.exists_of_bind_eq_ok h
      cases h
      have hstoredOld := deleteRow_of_oldImage hfits hordinals hold (himage oldRow rfl) hdeleted
      have hstoredNew := storedChange_upsert hnew hupserted
      refine ⟨?_, ?_, ?_⟩
      · simp [hstoredOld, hstoredNew, hsame]
      · simp only [List.map_cons, List.map_nil, hstoredOld, hstoredNew, override_cons,
          override_nil, RowChange.apply]
        exact (Function.update_comm hsame _ _ _).symm
      · simp only [List.forall_mem_cons, List.not_mem_nil, false_imp_iff, implies_true, and_true,
          hstoredOld, hstoredNew]
        exact ⟨.inr ⟨_, rfl⟩, .inr ⟨_, rfl⟩⟩

lemma says_of_emits {schema : ReplicatedTableSchema} {rows : SourceRows} {change : RowChange}
    {event : Event} {key : EventSequenceKey} {out : List BigQueryTableRow} (hfits : schema.Fits)
    (hordinals : (schema.columnSchemas.map (·.ordinalPosition)).Nodup)
    (hallowed : change.Allowed schema rows) (hemits : Emits schema change event)
    (hkey : event.eventSequenceKey? = some key) (h : eventRows encodeError event = .ok out) :
    Says schema rows change key out := by
  cases hemits with
  | insert commitLsn txOrdinal row =>
    cases hkey
    obtain ⟨upserted, hupserted, h⟩ := Except.exists_of_bind_eq_ok h
    cases h
    have hstored := storedChange_upsert hallowed.1 hupserted
    refine ⟨by simp, by simp [hstored, override_cons, RowChange.apply], ?_⟩
    simp only [List.forall_mem_singleton, hstored]
    exact .inr ⟨_, rfl⟩
  | update commitLsn txOrdinal old new updated image hfull himage hnone =>
    cases hkey
    obtain ⟨row, hrow, h⟩ := Except.exists_of_bind_eq_ok h
    obtain rfl : row = new := by
      cases updated with
      | partialRow => cases hrow
      | full updatedRow =>
        cases hrow
        exact hfull _ rfl
    exact says_update hfits hordinals hallowed.1 hallowed.2.1 himage hnone h
  | delete commitLsn txOrdinal old image himage =>
    cases hkey
    obtain ⟨oldRow, holdRow, h⟩ := Except.exists_of_bind_eq_ok h
    cases holdRow
    obtain ⟨deleted, hdeleted, h⟩ := Except.exists_of_bind_eq_ok h
    cases h
    have hstored := deleteRow_of_oldImage hfits hordinals hallowed.1 himage hdeleted
    refine ⟨by simp, by simp [hstored, override_cons, RowChange.apply], ?_⟩
    simp only [List.forall_mem_singleton, hstored]
    exact .inr ⟨_, rfl⟩

lemma reads : Reads (eventRows encodeError) copyRow history (storedChange history.schema)
    SequenceNumberOf where
  copied row hrow := by
    rw [storedChange_copyRow (history.copied_width row hrow)]
    exact ⟨rfl, rfl, .inl ⟨rfl, rfl⟩⟩
  changed hmem hallowed hkey hout :=
    says_of_emits history.fits history.ordinals hallowed (history.emitted _ hmem) hkey hout
  version_lt hbefore _ _ h h' := SequenceNumberOf.lt hbefore h h'

end Source

/-- An update moves the only row to another key, and another row takes its place. -/
def movedHistory : SourceHistory where
  schema := sampleTable
  copied := [⟨[some "1", some "a"]⟩]
  changes :=
    [(.update ⟨[some "1", some "a"]⟩ ⟨[some "2", some "a"]⟩,
      .update 10 1 sampleTable (.full ⟨[some "2", some "a"]⟩) (some (.key ⟨[some "1"]⟩))),
      (.insert ⟨[some "1", some "b"]⟩, .insert 10 2 sampleTable ⟨[some "1", some "b"]⟩)]
  fits := fits_sampleTable
  ordinals := nodup_ordinals_sampleTable
  copied_width := hasWidth_sampleRow
  copied_keys := nodup_keys_sampleRow
  allowed := by decide
  emitted := by
    simp only [List.forall_mem_cons, List.not_mem_nil, false_imp_iff, implies_true, and_true]
    refine ⟨.update _ _ _ _ _ _ (by simp) ?_ (by simp), .insert _ _ _⟩
    rintro _ ⟨⟩
    exact @OldImage.key sampleTable _
  increasing := by decide
  bounded := by decide
  positive := by decide

end Etl.BigQuery
