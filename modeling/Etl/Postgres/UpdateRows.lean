import Mathlib
import Etl.Postgres.TupleRows

/-!
# Updated rows

A field left out of the new tuple (`UnchangedToast`) has the value of the old row, if that has it.
The decoder walks through the replicated columns once, with a position in the old row. `Resolves`
says that this is the position of the column, and `Holds` what has been collected.
-/

namespace Etl

inductive OldRow (γ : Type) where
  | key (values : List γ)
  | full (values : List γ)
deriving DecidableEq

inductive UpdatedRow (γ : Type) where
  | full (values : List γ)
  | partialRow (totalColumns : Nat) (values : List γ) (missingColumnIndexes : List Nat)
deriving DecidableEq

structure UpdateEvent (γ : Type) where
  commitLsn : PgLsn
  txOrdinal : Nat
  replicatedTableSchema : ReplicatedTableSchema
  updatedTableRow : UpdatedRow γ
  oldTableRow : Option (OldRow γ)
deriving DecidableEq

/-! ## The old row -/

inductive OldRowResolver (γ : Type) where
  | none
  | full (values : List γ) (nextColumnIndex : Nat)
  | key (values : List γ) (nextKeyIndex : Nat)

namespace OldRowResolver

variable {γ : Type}

def new (oldTableRow : Option (OldRow γ)) (columnCount : Nat) :
    Except EtlError (OldRowResolver γ) :=
  match oldTableRow with
  | some (.full values) =>
    if values.length ≠ columnCount then
      .error ⟨.conversionError, "Old tuple row width does not match schema"⟩
    else .ok (.full values 0)
  | some (.key values) => .ok (.key values 0)
  | Option.none => .ok .none

def valueForColumn (isIdentityColumn : Bool) :
    OldRowResolver γ → Except EtlError (Option γ × OldRowResolver γ)
  | .none => .ok (Option.none, .none)
  | .full values nextColumnIndex =>
    match values[nextColumnIndex]? with
    | some value => .ok (some value, .full values (nextColumnIndex + 1))
    | Option.none => .error ⟨.conversionError, "Old tuple row width does not match schema"⟩
  | .key values nextKeyIndex =>
    if !isIdentityColumn then .ok (Option.none, .key values nextKeyIndex)
    else
      match values[nextKeyIndex]? with
      | some value => .ok (some value, .key values (nextKeyIndex + 1))
      | Option.none =>
        .error ⟨.conversionError, "Replica-identity tuple shape does not match schema"⟩

def finish : OldRowResolver γ → Except EtlError Unit
  | .full values nextColumnIndex =>
    if nextColumnIndex ≠ values.length then
      .error ⟨.conversionError, "Old tuple row width does not match schema"⟩
    else .ok ()
  | .key values nextKeyIndex =>
    if nextKeyIndex ≠ values.length then
      .error ⟨.conversionError, "Replica-identity tuple shape does not match schema"⟩
    else .ok ()
  | .none => .ok ()

end OldRowResolver

/-! ## The new row -/

structure UpdateRowState (γ : Type) where
  oldRowResolver : OldRowResolver γ
  identityColumns : List ColumnSchema
  fullValues : List γ
  presentValues : List γ
  missingColumnIndexes : List Nat
  partialRow : Bool

namespace UpdateRowState

variable {γ : Type}

/-- With the first missing column the values so far become a partial row. -/
def collect (st : UpdateRowState γ) (index : Nat) : ConvertedTupleCell γ → UpdateRowState γ
  | .present value =>
    if st.partialRow then { st with presentValues := st.presentValues ++ [value] }
    else { st with fullValues := st.fullValues ++ [value] }
  | .missing =>
    let st :=
      if st.partialRow then st
      else
        { st with
          presentValues := st.presentValues ++ st.fullValues
          fullValues := []
          partialRow := true }
    { st with missingColumnIndexes := st.missingColumnIndexes ++ [index] }

def advance (st : UpdateRowState γ) (oldRowResolver : OldRowResolver γ)
    (columnSchema : ColumnSchema) : UpdateRowState γ :=
  { st with
    oldRowResolver
    identityColumns := if isNextIdentity st.identityColumns columnSchema then
      st.identityColumns.tail else st.identityColumns }

def step (codec : CellCodec γ) (st : UpdateRowState γ) (index : Nat)
    (field : ColumnSchema × TupleData) : Except EtlError (UpdateRowState γ) := do
  let isIdentity := isNextIdentity st.identityColumns field.1
  let (oldValue, oldRowResolver) ← st.oldRowResolver.valueForColumn isIdentity
  let cell ← convertTupleDataToCell codec field.1 oldValue field.2
  return (st.advance oldRowResolver field.1).collect index cell

def row (st : UpdateRowState γ) (columnCount : Nat) : UpdatedRow γ :=
  if st.partialRow then .partialRow columnCount st.presentValues st.missingColumnIndexes
  else .full st.fullValues

def walk (codec : CellCodec γ) : List (ColumnSchema × TupleData) → Nat → UpdateRowState γ →
    Except EtlError (UpdateRowState γ)
  | [], _, st => .ok st
  | field :: rest, index, st => do
    let st ← st.step codec index field
    walk codec rest (index + 1) st

end UpdateRowState

section Update

variable {γ : Type} (codec : CellCodec γ) (schema : ReplicatedTableSchema)

def convertUpdateTupleToUpdatedTableRow (tuple : Tuple) (oldTableRow : Option (OldRow γ)) :
    Except EtlError (UpdatedRow γ) := do
  let columnCount := schema.replicatedColumnCount
  if tuple.length ≠ columnCount then
    throw ⟨.conversionError, "Tuple data field count does not match schema"⟩
  let oldRowResolver ← OldRowResolver.new oldTableRow columnCount
  let st ← UpdateRowState.walk codec (schema.columnSchemas.zip tuple) 0
    ⟨oldRowResolver, schema.identityColumnSchemas, [], [], [], false⟩
  st.oldRowResolver.finish
  return st.row columnCount

def parseOldTableRow (oldTuple keyTuple : Option Tuple) : Except EtlError (Option (OldRow γ)) :=
  match oldTuple, keyTuple with
  | some tuple, _ => (convertTupleToRow codec schema tuple).map fun row => some (.full row)
  | none, some tuple => (normalizeKeyTupleToRow codec schema tuple).map fun row => some (.key row)
  | none, none => .ok none

def parseEventFromUpdateMessage (commitLsn : PgLsn) (txOrdinal : Nat) (body : UpdateBody) :
    Except EtlError (UpdateEvent γ) := do
  let oldTableRow ← parseOldTableRow codec schema body.oldTuple body.keyTuple
  let row ← convertUpdateTupleToUpdatedTableRow codec schema body.newTuple oldTableRow
  return ⟨commitLsn, txOrdinal, schema, row, oldTableRow⟩

end Update

/-! ## What the old row says of a column -/

section OldValues

variable {γ : Type} {columns identity : List ColumnSchema} {values : List γ} {c d : ColumnSchema}

def valueAt (columns : List ColumnSchema) (values : List γ) (c : ColumnSchema) : Option γ :=
  ((columns.zip values).find? fun p => p.1.ordinalPosition = c.ordinalPosition).map Prod.snd

def oldValueOf (schema : ReplicatedTableSchema) : Option (OldRow γ) → ColumnSchema → Option γ
  | none, _ => none
  | some (.full values), c => valueAt schema.columnSchemas values c
  | some (.key values), c => valueAt schema.identityColumnSchemas values c

lemma valueAt_cons_self (v : γ) : valueAt (c :: columns) (v :: values) c = some v := by
  simp [valueAt]

lemma valueAt_cons_of_ne (v : γ) (h : d.ordinalPosition ≠ c.ordinalPosition) :
    valueAt (d :: columns) (v :: values) c = valueAt columns values c := by
  simp [valueAt, h]

lemma valueAt_eq_none (h : c.ordinalPosition ∉ ordinals columns) :
    valueAt columns values c = none := by
  rw [valueAt, Option.map_eq_none_iff, List.find?_eq_none]
  intro p hp heq
  have hmem : p.1 ∈ columns := (List.of_mem_zip hp).1
  exact h (of_decide_eq_true heq ▸ List.mem_map_of_mem hmem)

/-- The resolver has the old value of each column at hand, and is content at the end. -/
inductive Resolves (old : ColumnSchema → Option γ) :
    OldRowResolver γ → List ColumnSchema → List ColumnSchema → Prop
  | nil {resolver identity} (h : resolver.finish = .ok ()) : Resolves old resolver identity []
  | cons {resolver resolver' identity c columns}
      (h : resolver.valueForColumn (isNextIdentity identity c) = .ok (old c, resolver'))
      (rest : Resolves old resolver'
        (if isNextIdentity identity c then identity.tail else identity) columns) :
      Resolves old resolver identity (c :: columns)

lemma resolves_none (identity columns : List ColumnSchema) :
    Resolves (γ := γ) (fun _ => none) .none identity columns := by
  induction columns generalizing identity with
  | nil => exact .nil rfl
  | cons c columns ih => exact .cons rfl (ih _)

lemma resolves_full {old : ColumnSchema → Option γ} {k : Nat}
    (hnodup : (ordinals columns).Nodup) (hlength : values.length = k + columns.length)
    (hold : ∀ c ∈ columns, old c = valueAt columns (values.drop k) c) :
    Resolves old (.full values k) identity columns := by
  induction columns generalizing k identity with
  | nil =>
    refine .nil ?_
    rw [OldRowResolver.finish, if_neg (by simpa using hlength.symm)]
  | cons c columns ih =>
    obtain ⟨hc, hrest⟩ := List.nodup_cons.1 hnodup
    rw [List.length_cons] at hlength
    have hk : k < values.length := by omega
    have hdrop := List.drop_eq_getElem_cons hk
    have hhead : old c = some values[k] := by
      rw [hold c List.mem_cons_self, hdrop, valueAt_cons_self]
    have hvalue : (OldRowResolver.full values k).valueForColumn (isNextIdentity identity c) =
        .ok (old c, .full values (k + 1)) := by
      rw [OldRowResolver.valueForColumn, List.getElem?_eq_getElem hk, hhead]
    refine .cons hvalue (ih hrest (by omega) fun d hd => ?_)
    rw [hold d (List.mem_cons_of_mem _ hd), hdrop, valueAt_cons_of_ne]
    exact fun heq => hc (List.mem_map.2 ⟨d, hd, heq.symm⟩)

lemma resolves_key {old : ColumnSchema → Option γ} {k : Nat} (hsub : identity.Sublist columns)
    (hnodup : (ordinals columns).Nodup) (hlength : values.length = k + identity.length)
    (hold : ∀ c ∈ columns, old c = valueAt identity (values.drop k) c) :
    Resolves old (.key values k) identity columns := by
  induction hsub generalizing k with
  | slnil =>
    refine .nil ?_
    rw [OldRowResolver.finish, if_neg (by simpa using hlength.symm)]
  | @cons identity columns c hsub ih =>
    obtain ⟨hc, hrest⟩ := List.nodup_cons.1 hnodup
    have hnext := isNextIdentity_eq_false hsub hnodup
    have hnone : old c = none := by
      rw [hold c List.mem_cons_self]
      exact valueAt_eq_none fun hmem => hc ((hsub.map _).subset hmem)
    have hvalue : (OldRowResolver.key values k).valueForColumn (isNextIdentity identity c) =
        .ok (old c, .key values k) := by
      rw [hnext, hnone]
      rfl
    refine .cons hvalue ?_
    rw [hnext]
    exact ih hrest hlength fun d hd => hold d (List.mem_cons_of_mem _ hd)
  | @cons_cons identity columns c hsub ih =>
    obtain ⟨hc, hrest⟩ := List.nodup_cons.1 hnodup
    rw [List.length_cons] at hlength
    have hk : k < values.length := by omega
    have hdrop := List.drop_eq_getElem_cons hk
    have hnext : isNextIdentity (c :: identity) c = true := by simp [isNextIdentity]
    have hhead : old c = some values[k] := by
      rw [hold c List.mem_cons_self, hdrop, valueAt_cons_self]
    have hvalue : (OldRowResolver.key values k).valueForColumn (isNextIdentity (c :: identity) c) =
        .ok (old c, .key values (k + 1)) := by
      simp [OldRowResolver.valueForColumn, hnext, List.getElem?_eq_getElem hk, hhead]
    refine .cons hvalue ?_
    rw [hnext, if_pos rfl, List.tail_cons]
    refine ih hrest (by omega) fun d hd => ?_
    rw [hold d (List.mem_cons_of_mem _ hd), hdrop, valueAt_cons_of_ne]
    exact fun heq => hc (List.mem_map.2 ⟨d, hd, heq.symm⟩)

end OldValues

/-! ## The values of an update -/

section Values

variable {γ : Type}

def ConvertedTupleCell.value? : ConvertedTupleCell γ → Option γ
  | .present value => some value
  | .missing => none

/-- The value of a column's own field, or of the old row if the field was left out. -/
def newValue (codec : CellCodec γ) (old : ColumnSchema → Option γ)
    (field : ColumnSchema × TupleData) : Except EtlError (Option γ) :=
  if field.2 = .unchangedToast then .ok (old field.1)
  else (convertTupleDataToCell codec field.1 none field.2).map ConvertedTupleCell.value?

lemma map_value?_convertTupleDataToCell (codec : CellCodec γ) (old : ColumnSchema → Option γ)
    (field : ColumnSchema × TupleData) :
    (convertTupleDataToCell codec field.1 (old field.1) field.2).map ConvertedTupleCell.value? =
      newValue codec old field := by
  obtain ⟨c, data⟩ := field
  cases data with
  | unchangedToast =>
    rw [newValue, if_pos rfl]
    cases old c <;> simp [convertTupleDataToCell, Except.map, ConvertedTupleCell.value?]
  | _ => simp [newValue, convertTupleDataToCell]

def missingIndexes (values : List (Option γ)) : List Nat :=
  (List.range values.length).filter fun i => values[i]?.join.isNone

def UpdatedRow.ofValues (values : List (Option γ)) : UpdatedRow γ :=
  if values.all Option.isSome then .full values.reduceOption
  else .partialRow values.length values.reduceOption (missingIndexes values)

lemma missingIndexes_concat (values : List (Option γ)) (value : Option γ) :
    missingIndexes (values ++ [value]) =
      missingIndexes values ++ if value.isNone then [values.length] else [] := by
  rw [missingIndexes, List.length_append, List.length_singleton, List.range_succ,
    List.filter_append, missingIndexes]
  congr 1
  · refine List.filter_congr fun i hi => ?_
    rw [List.getElem?_append_left (List.mem_range.1 hi)]
  · cases value <;> simp

namespace UpdateRowState

structure Holds (st : UpdateRowState γ) (values : List (Option γ)) : Prop where
  partialRow : st.partialRow = !values.all Option.isSome
  fullValues : st.fullValues = if values.all Option.isSome then values.reduceOption else []
  presentValues : st.presentValues = if values.all Option.isSome then [] else values.reduceOption
  missingColumnIndexes : st.missingColumnIndexes = missingIndexes values

variable {st : UpdateRowState γ} {values : List (Option γ)}

@[simp] lemma oldRowResolver_collect (index : Nat) (cell : ConvertedTupleCell γ) :
    (st.collect index cell).oldRowResolver = st.oldRowResolver := by
  cases cell <;> simp only [collect] <;> split_ifs <;> rfl

@[simp] lemma identityColumns_collect (index : Nat) (cell : ConvertedTupleCell γ) :
    (st.collect index cell).identityColumns = st.identityColumns := by
  cases cell <;> simp only [collect] <;> split_ifs <;> rfl

lemma Holds.row_eq (h : st.Holds values) : st.row values.length = .ofValues values := by
  rw [row, h.partialRow, h.fullValues, h.presentValues, h.missingColumnIndexes, UpdatedRow.ofValues]
  cases values.all Option.isSome <;> rfl

lemma Holds.collect (h : st.Holds values) (cell : ConvertedTupleCell γ) :
    (st.collect values.length cell).Holds (values ++ [cell.value?]) := by
  obtain ⟨hpart, hfull, hpresent, hmissing⟩ := h
  cases hall : values.all Option.isSome <;> cases cell <;>
    constructor <;>
    simp [UpdateRowState.collect, ConvertedTupleCell.value?, hpart, hfull, hpresent, hmissing,
      hall, missingIndexes_concat, List.reduceOption_append]

end UpdateRowState

variable {codec : CellCodec γ} {old : ColumnSchema → Option γ}

lemma UpdateRowState.step_eq
    {st : UpdateRowState γ} {c : ColumnSchema} {resolver : OldRowResolver γ}
    (h : st.oldRowResolver.valueForColumn (isNextIdentity st.identityColumns c) =
      .ok (old c, resolver)) (index : Nat) (data : TupleData) :
    st.step codec index (c, data) =
      (convertTupleDataToCell codec c (old c) data).map fun cell =>
        (st.advance resolver c).collect index cell := by
  rw [UpdateRowState.step, h]
  rfl

lemma Resolves.walk {columns : List ColumnSchema}
    {tuple : Tuple} {st : UpdateRowState γ} {done : List (Option γ)}
    (h : Resolves old st.oldRowResolver st.identityColumns columns)
    (hlength : tuple.length = columns.length) (hholds : st.Holds done) (codec : CellCodec γ) :
    match (columns.zip tuple).mapM (newValue codec old) with
    | .error e => UpdateRowState.walk codec (columns.zip tuple) done.length st = .error e
    | .ok values => ∃ st', UpdateRowState.walk codec (columns.zip tuple) done.length st = .ok st' ∧
        st'.Holds (done ++ values) ∧ st'.oldRowResolver.finish = .ok () := by
  induction columns generalizing tuple st done with
  | nil =>
    cases h with
    | nil hfinish => exact ⟨st, rfl, by simpa using hholds, hfinish⟩
  | cons c columns ih =>
    obtain ⟨data, tuple, rfl⟩ := List.exists_cons_of_length_eq_add_one hlength
    cases h with
    | @cons _ resolver _ _ _ hvalue hrest =>
      have hstep : st.step codec done.length (c, data) = _ := UpdateRowState.step_eq hvalue _ _
      rw [List.zip_cons_cons, List.mapM_cons, ← map_value?_convertTupleDataToCell codec old,
        UpdateRowState.walk]
      cases hconverted : convertTupleDataToCell codec c (old c) data with
      | error e =>
        rw [hstep, hconverted]
        rfl
      | ok cell =>
        rw [hconverted] at hstep
        have hadvance : (st.advance resolver c).Holds done :=
          ⟨hholds.partialRow, hholds.fullValues, hholds.presentValues,
            hholds.missingColumnIndexes⟩
        have hwalk := ih (by
          rw [UpdateRowState.oldRowResolver_collect, UpdateRowState.identityColumns_collect]
          exact hrest) (Nat.succ.inj hlength) (hadvance.collect cell)
        rw [List.length_append, List.length_singleton] at hwalk
        rw [hstep]
        cases hvalues : (columns.zip tuple).mapM (newValue codec old) with
        | error e =>
          rw [hvalues] at hwalk
          exact hwalk
        | ok values =>
          rw [hvalues] at hwalk
          simp only [List.append_assoc, List.singleton_append] at hwalk
          exact hwalk

lemma convertTupleDataToCell_ne_missing {c : ColumnSchema}
    {data : TupleData} (hsent : data ≠ .unchangedToast) :
    convertTupleDataToCell codec c none data ≠ .ok .missing := by
  cases data with
  | unchangedToast => exact absurd rfl hsent
  | null =>
    rw [convertTupleDataToCell]
    split_ifs <;> simp
  | text bytes =>
    rw [convertTupleDataToCell]
    split
    · rename_i str _
      cases hparse : codec.parseCellFromPostgresText c.typ str <;> simp [Except.map]
    · simp
  | binary bytes => simp [convertTupleDataToCell]

lemma isSome_of_newValue_eq_ok
    {field : ColumnSchema × TupleData} {value : Option γ} (h : newValue codec old field = .ok value)
    (hsent : field.2 ≠ .unchangedToast) : value.isSome := by
  rw [newValue, if_neg hsent] at h
  cases hconverted : convertTupleDataToCell codec field.1 none field.2 with
  | error e =>
    rw [hconverted] at h
    cases h
  | ok cell =>
    rw [hconverted] at h
    cases h
    cases cell with
    | present value => rfl
    | missing => exact absurd hconverted (convertTupleDataToCell_ne_missing hsent)

lemma all_isSome_iff {fields : List (ColumnSchema × TupleData)} {values : List (Option γ)}
    (h : List.Forall₂ (fun field value => newValue codec old field = .ok value) fields values) :
    values.all Option.isSome ↔
      ∀ field ∈ fields, field.2 = .unchangedToast → (old field.1).isSome := by
  induction h with
  | nil => simp
  | @cons field value fields values hvalue _ ih =>
    rw [List.all_cons, Bool.and_eq_true, ih, List.forall_mem_cons]
    refine and_congr_left fun _ => ?_
    by_cases htoast : field.2 = .unchangedToast
    · rw [newValue, if_pos htoast] at hvalue
      cases hvalue
      simp [htoast]
    · simp [htoast, isSome_of_newValue_eq_ok hvalue htoast]

lemma map_some_reduceOption {values : List (Option γ)} (h : values.all Option.isSome) :
    values.reduceOption.map some = values := by
  induction values with
  | nil => rfl
  | cons value values ih =>
    rw [List.all_cons, Bool.and_eq_true] at h
    obtain ⟨v, rfl⟩ := Option.isSome_iff_exists.1 h.1
    rw [List.reduceOption_cons_of_some, List.map_cons, ih h.2]

end Values

section Messages

variable {γ : Type} {codec : CellCodec γ} {schema : ReplicatedTableSchema}

def OldRow.Fits (schema : ReplicatedTableSchema) : OldRow γ → Prop
  | .full values => values.length = schema.columnSchemas.length
  | .key values => values.length = schema.identityColumnSchemas.length

lemma length_eq_of_mapM_eq_ok {α β : Type} {f : α → Except EtlError β} {xs : List α}
    {ys : List β} (h : xs.mapM f = .ok ys) : ys.length = xs.length :=
  (Except.mapM_eq_ok_iff.1 h).length_eq.symm

variable {tuple : Tuple}

lemma length_convertTupleToRow (h : schema.WellFormed) {row : List γ}
    (hrow : convertTupleToRow codec schema tuple = .ok row) :
    row.length = schema.columnSchemas.length := by
  rw [convertTupleToRow] at hrow
  split_ifs at hrow with hlength
  rw [length_eq_of_mapM_eq_ok hrow, List.length_zip, not_not.1 hlength, h.length_columnSchemas,
    Nat.min_self]

lemma length_normalizedFields (h : schema.WellFormed)
    (hlength : tuple.length = schema.identityColumnSchemas.length ∨
      tuple.length = schema.columnSchemas.length) :
    (normalizedFields schema tuple).length = schema.identityColumnSchemas.length := by
  rw [normalizedFields]
  split_ifs with hdense
  · rw [List.length_zip, hdense, Nat.min_self]
  · have hfst := congrArg List.length (map_fst_keyFields
      ReplicatedTableSchema.identityColumnSchemas_sublist h.nodup (hlength.resolve_left hdense))
    rwa [List.length_map] at hfst

lemma length_normalizeKeyTupleToRow (h : schema.WellFormed) {row : List γ}
    (hrow : normalizeKeyTupleToRow codec schema tuple = .ok row) :
    row.length = schema.identityColumnSchemas.length := by
  by_cases hkey : schema.identityColumnSchemas = []
  · rw [normalizeKeyTupleToRow_eq_error_of_nil h hkey] at hrow
    cases hrow
  by_cases hlength : tuple.length = schema.identityColumnSchemas.length ∨
      tuple.length = schema.columnSchemas.length
  · rw [normalizeKeyTupleToRow_eq h hkey hlength] at hrow
    rw [length_eq_of_mapM_eq_ok hrow, length_normalizedFields h hlength]
  · obtain ⟨hdense, hwide⟩ := not_or.1 hlength
    have hfails : ∃ e, normalizeKeyTupleToRow codec schema tuple = .error e :=
      exists_normalizeKeyTupleToRow_eq_error h hdense hwide
    obtain ⟨e, he⟩ := hfails
    rw [he] at hrow
    cases hrow

variable {old : Option (OldRow γ)}

lemma fits_of_parseOldTableRow (h : schema.WellFormed) {oldTuple keyTuple : Option Tuple} (hold : parseOldTableRow codec schema oldTuple keyTuple = .ok old) :
    ∀ row ∈ old, row.Fits schema := by
  rcases oldTuple with _ | tuple
  · rcases keyTuple with _ | tuple
    · cases hold
      simp
    · obtain ⟨row, hrow, rfl⟩ : ∃ row, normalizeKeyTupleToRow codec schema tuple = .ok row ∧
          some (OldRow.key row) = old := by
        cases hrow : normalizeKeyTupleToRow codec schema tuple with
        | error e => simp [parseOldTableRow, hrow, Except.map] at hold
        | ok row => exact ⟨row, rfl, by simpa [parseOldTableRow, hrow, Except.map] using hold⟩
      rintro _ ⟨⟩
      exact length_normalizeKeyTupleToRow h hrow
  · obtain ⟨row, hrow, rfl⟩ : ∃ row, convertTupleToRow codec schema tuple = .ok row ∧
        some (OldRow.full row) = old := by
      cases hrow : convertTupleToRow codec schema tuple with
      | error e => simp [parseOldTableRow, hrow, Except.map] at hold
      | ok row => exact ⟨row, rfl, by simpa [parseOldTableRow, hrow, Except.map] using hold⟩
    rintro _ ⟨⟩
    exact length_convertTupleToRow h hrow

lemma exists_oldRowResolver_eq (h : schema.WellFormed) (hold : ∀ row ∈ old, row.Fits schema) :
    ∃ resolver, OldRowResolver.new old schema.replicatedColumnCount = .ok resolver ∧
      Resolves (oldValueOf schema old) resolver schema.identityColumnSchemas
        schema.columnSchemas := by
  rcases old with _ | row
  · exact ⟨.none, rfl, resolves_none _ _⟩
  · have hfits := hold row rfl
    cases row with
    | key values =>
      refine ⟨.key values 0, rfl, ?_⟩
      exact resolves_key ReplicatedTableSchema.identityColumnSchemas_sublist h.nodup_columnSchemas
        (by rw [Nat.zero_add]; exact hfits) fun c _ => rfl
    | full values =>
      refine ⟨.full values 0, ?_, ?_⟩
      · rw [OldRowResolver.new, if_neg]
        rw [← h.length_columnSchemas, not_not]
        exact hfits
      · exact resolves_full h.nodup_columnSchemas (by rw [Nat.zero_add]; exact hfits)
          fun c _ => rfl

lemma convertUpdateTuple_eq
    {resolver : OldRowResolver γ} (hlength : tuple.length = schema.replicatedColumnCount)
    (hnew : OldRowResolver.new old schema.replicatedColumnCount = .ok resolver) :
    convertUpdateTupleToUpdatedTableRow codec schema tuple old =
      (UpdateRowState.walk codec (schema.columnSchemas.zip tuple) 0
        ⟨resolver, schema.identityColumnSchemas, [], [], [], false⟩ >>= fun st =>
          st.oldRowResolver.finish >>= fun _ => .ok (st.row schema.replicatedColumnCount)) := by
  rw [convertUpdateTupleToUpdatedTableRow, if_neg (not_not.2 hlength), hnew]
  rfl

lemma convertUpdateTuple_eq_ok_iff (h : schema.WellFormed) (hold : ∀ row ∈ old, row.Fits schema) {row : UpdatedRow γ} :
    convertUpdateTupleToUpdatedTableRow codec schema tuple old = .ok row ↔
      tuple.length = schema.columnSchemas.length ∧ ∃ values,
        (schema.columnSchemas.zip tuple).mapM (newValue codec (oldValueOf schema old)) =
          .ok values ∧ row = .ofValues values := by
  by_cases hlength : tuple.length = schema.columnSchemas.length
  · obtain ⟨resolver, hnew, hresolves⟩ := exists_oldRowResolver_eq h hold
    have hstart : (⟨resolver, schema.identityColumnSchemas, [], [], [], false⟩ :
        UpdateRowState γ).Holds [] := ⟨rfl, rfl, rfl, rfl⟩
    have hwalk := Resolves.walk hresolves hlength hstart codec
    rw [List.length_nil] at hwalk
    rw [convertUpdateTuple_eq (hlength.trans h.length_columnSchemas) hnew]
    cases hvalues : (schema.columnSchemas.zip tuple).mapM
        (newValue codec (oldValueOf schema old)) with
    | error e =>
      simp only [hvalues] at hwalk
      rw [hwalk]
      constructor
      · rintro ⟨⟩
      · rintro ⟨-, values, ⟨⟩, -⟩
    | ok values =>
      simp only [hvalues] at hwalk
      obtain ⟨st, hst, hholds, hfinish⟩ := hwalk
      have hcount : schema.replicatedColumnCount = values.length := by
        rw [length_eq_of_mapM_eq_ok hvalues, List.length_zip, hlength, Nat.min_self,
          h.length_columnSchemas]
      have hrow : st.row schema.replicatedColumnCount = .ofValues values := by
        rw [hcount]
        exact hholds.row_eq
      have hresult : (st.oldRowResolver.finish >>= fun _ =>
          (.ok (st.row schema.replicatedColumnCount) : Except EtlError _)) =
            .ok (.ofValues values) := by
        rw [hfinish, hrow]
        rfl
      rw [hst]
      constructor
      · intro heq
        exact ⟨hlength, values, rfl, (Except.ok.inj (hresult.symm.trans heq)).symm⟩
      · rintro ⟨-, values, ⟨⟩, rfl⟩
        exact hresult
  · rw [convertUpdateTupleToUpdatedTableRow, ← h.length_columnSchemas, if_pos hlength]
    constructor
    · rintro ⟨⟩
    · exact fun hright => absurd hright.1 hlength

/-- The row of an update: every column has the value of its own field or, where the field was left
out, the value the old row has of that very column. The row is full exactly if the old row has a
value for each field that was left out; else the columns without a value are listed in order, and
the values of the others are kept in order. -/
theorem parseEventFromUpdateMessage_resolves (codec : CellCodec γ) (schema : ReplicatedTableSchema)
    (h : schema.WellFormed) (commitLsn : PgLsn) (txOrdinal : Nat) (body : UpdateBody) :
    (∀ event, parseEventFromUpdateMessage codec schema commitLsn txOrdinal body = .ok event ↔
      ∃ old values,
        parseOldTableRow codec schema body.oldTuple body.keyTuple = .ok old ∧
        body.newTuple.length = schema.columnSchemas.length ∧
        (schema.columnSchemas.zip body.newTuple).mapM (newValue codec (oldValueOf schema old)) =
          .ok values ∧
        event = ⟨commitLsn, txOrdinal, schema, .ofValues values, old⟩) ∧
    ∀ old values,
      (schema.columnSchemas.zip body.newTuple).mapM (newValue codec (oldValueOf schema old)) =
        .ok values →
      ((∃ row, UpdatedRow.ofValues values = .full row) ↔
        ∀ field ∈ schema.columnSchemas.zip body.newTuple, field.2 = .unchangedToast →
          (oldValueOf schema old field.1).isSome) ∧
      ∀ row, UpdatedRow.ofValues values = .full row → row.map some = values := by
  refine ⟨fun event => ?_, fun old values hvalues => ?_⟩
  · rw [parseEventFromUpdateMessage]
    constructor
    · intro hevent
      obtain ⟨old, hold, hevent⟩ := Except.exists_of_bind_eq_ok hevent
      obtain ⟨row, hrow, hevent⟩ := Except.exists_of_bind_eq_ok hevent
      cases hevent
      obtain ⟨hlength, values, hvalues, rfl⟩ :=
        (convertUpdateTuple_eq_ok_iff h (fits_of_parseOldTableRow h hold)).1 hrow
      exact ⟨old, values, hold, hlength, hvalues, rfl⟩
    · rintro ⟨old, values, hold, hlength, hvalues, rfl⟩
      have hrow := (convertUpdateTuple_eq_ok_iff h (fits_of_parseOldTableRow h hold)).2
        ⟨hlength, values, hvalues, rfl⟩
      rw [hold]
      show (convertUpdateTupleToUpdatedTableRow codec schema body.newTuple old >>= _) = _
      rw [hrow]
      rfl
  · have hall := all_isSome_iff (Except.mapM_eq_ok_iff.1 hvalues)
    rw [← hall, UpdatedRow.ofValues]
    split_ifs with hfull
    · refine ⟨⟨fun _ => hfull, fun _ => ⟨_, rfl⟩⟩, ?_⟩
      rintro row ⟨⟩
      exact map_some_reduceOption hfull
    · refine ⟨⟨?_, fun hknown => absurd hknown hfull⟩, ?_⟩
      · rintro ⟨row, ⟨⟩⟩
      · rintro row ⟨⟩

/-- Two fields were left out; the key of the old row has one of them. -/
theorem parseEventFromUpdateMessage_resolves_key :
    (sampleIdentity [0, 1]).WellFormed ∧
      parseEventFromUpdateMessage imageCodec (sampleIdentity [0, 1]) 5 0
          ⟨1, none, some [.text "k".toUTF8], [.unchangedToast, .unchangedToast]⟩ =
        .ok ⟨5, 0, sampleIdentity [0, 1], .partialRow 2 [some "k"] [0],
          some (.key [some "k"])⟩ := by
  have h : (sampleIdentity [0, 1]).WellFormed := ⟨rfl, rfl, by decide⟩
  refine ⟨h, ((parseEventFromUpdateMessage_resolves _ _ h _ _ _).1 _).2 ?_⟩
  exact ⟨some (.key [some "k"]), [none, some (some "k")], rfl, rfl, rfl, rfl⟩

end Messages

section Events

def OldRow.toTableRow : OldRow (Option String) → OldTableRow
  | .key values => .key ⟨values⟩
  | .full values => .full ⟨values⟩

def OldRow.ofTableRow : OldTableRow → OldRow (Option String)
  | .key row => .key row.values
  | .full row => .full row.values

def UpdatedRow.toTableRow : UpdatedRow (Option String) → UpdatedTableRow
  | .full values => .full ⟨values⟩
  | .partialRow totalColumns values missing => .partialRow totalColumns ⟨values⟩ missing

def UpdateEvent.toEvent (event : UpdateEvent (Option String)) : Event :=
  .update event.commitLsn event.txOrdinal event.replicatedTableSchema
    event.updatedTableRow.toTableRow (event.oldTableRow.map OldRow.toTableRow)

def CellCodec.rowCodec (codec : CellCodec (Option String)) : RowCodec where
  convertTupleToRow schema tuple := (Etl.convertTupleToRow codec schema tuple).map TableRow.mk
  normalizeKeyTupleToRow schema tuple :=
    (Etl.normalizeKeyTupleToRow codec schema tuple).map TableRow.mk
  convertUpdateTuple schema tuple old :=
    (convertUpdateTupleToUpdatedTableRow codec schema tuple (old.map OldRow.ofTableRow)).map
      UpdatedRow.toTableRow

variable (codec : CellCodec (Option String)) (schema : ReplicatedTableSchema)

lemma parseOldRow_rowCodec (oldTuple keyTuple : Option Tuple) :
    codec.rowCodec.parseOldRow schema oldTuple keyTuple =
      (parseOldTableRow codec schema oldTuple keyTuple).map (Option.map OldRow.toTableRow) := by
  rcases oldTuple with _ | tuple
  · rcases keyTuple with _ | tuple
    · rfl
    · simp only [RowCodec.parseOldRow, CellCodec.rowCodec, parseOldTableRow]
      cases normalizeKeyTupleToRow codec schema tuple <;> rfl
  · simp only [RowCodec.parseOldRow, CellCodec.rowCodec, parseOldTableRow]
    cases convertTupleToRow codec schema tuple <;> rfl

lemma parseUpdate_rowCodec (commitLsn : PgLsn) (txOrdinal : Nat) (body : UpdateBody) :
    codec.rowCodec.parseUpdate schema commitLsn txOrdinal body =
      (parseEventFromUpdateMessage codec schema commitLsn txOrdinal body).map
        UpdateEvent.toEvent := by
  rw [RowCodec.parseUpdate, parseOldRow_rowCodec, parseEventFromUpdateMessage]
  cases parseOldTableRow codec schema body.oldTuple body.keyTuple with
  | error e => rfl
  | ok old =>
    have hold : (old.map OldRow.toTableRow).map OldRow.ofTableRow = old := by
      rcases old with _ | ⟨_ | _⟩ <;> rfl
    show (do
      let row ← (convertUpdateTupleToUpdatedTableRow codec schema body.newTuple
        ((old.map OldRow.toTableRow).map OldRow.ofTableRow)).map UpdatedRow.toTableRow
      return Event.update commitLsn txOrdinal schema row (old.map OldRow.toTableRow)) =
      Except.map UpdateEvent.toEvent (do
        let row ← convertUpdateTupleToUpdatedTableRow codec schema body.newTuple old
        return ⟨commitLsn, txOrdinal, schema, row, old⟩)
    rw [hold]
    cases convertUpdateTupleToUpdatedTableRow codec schema body.newTuple old <;> rfl

end Events

end Etl
