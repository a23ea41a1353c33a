import Etl.Event
import Etl.Postgres.CopyText
import Etl.SchemaDiff

/-!
# Tuples and key images

A key image has one field per identity column, or is as wide as the relation; the number of fields
tells which. In the wide layout the walk through the columns finds exactly the fields of the
identity (`convertFullWidthKeyColumns_eq`).
-/

namespace Etl

structure CellCodec (γ : Type) where
  null : γ
  parseCellFromPostgresText : PgType → String → Except EtlError γ

def TextCodec.cellCodec {β : Type} (codec : TextCodec β) : CellCodec (Cell β) :=
  ⟨.null, codec.parseCellFromPostgresText⟩

namespace ReplicatedTableSchema

def identityColumnSchemas (schema : ReplicatedTableSchema) : List ColumnSchema :=
  (schema.tableSchema.columnSchemas.zip
    (schema.replicationMask.bytes.zip schema.identityMask.bytes)).filterMap
      fun p => if p.2.1 = 1 ∧ p.2.2 = 1 then some p.1 else none

def identityColumnCount (schema : ReplicatedTableSchema) : Nat :=
  ((schema.replicationMask.bytes.zip schema.identityMask.bytes).filter
    fun p => p.1 = 1 ∧ p.2 = 1).length

end ReplicatedTableSchema

inductive ConvertedTupleCell (γ : Type) where
  | present (value : γ)
  | missing
deriving DecidableEq

section Conversion

variable {γ : Type} (codec : CellCodec γ)

def convertTupleDataToCell (columnSchema : ColumnSchema) (oldValue : Option γ) :
    TupleData → Except EtlError (ConvertedTupleCell γ)
  | .null =>
    if columnSchema.nullable then .ok (.present codec.null)
    else .error ⟨.invalidData, "Required column missing from tuple"⟩
  | .unchangedToast =>
    match oldValue with
    | some value => .ok (.present value)
    | none => .ok .missing
  | .text bytes =>
    match String.fromUTF8? bytes with
    | some str => (codec.parseCellFromPostgresText columnSchema.typ str).map .present
    | none => .error ⟨.conversionError, "UTF-8 conversion failed"⟩
  | .binary _ => .error ⟨.conversionError, "Binary format not supported in tuple data"⟩

def requireCell (missing : EtlError) (field : ColumnSchema × TupleData) : Except EtlError γ := do
  match ← convertTupleDataToCell codec field.1 none field.2 with
  | .present value => .ok value
  | .missing => .error missing

def convertTupleToRow (schema : ReplicatedTableSchema) (tuple : Tuple) :
    Except EtlError (List γ) :=
  if tuple.length ≠ schema.replicatedColumnCount then
    .error ⟨.conversionError, "Tuple data field count does not match schema"⟩
  else
    (schema.columnSchemas.zip tuple).mapM
      (requireCell codec ⟨.conversionError, "Tuple missing source value for full row image"⟩)

/-! ## Key images -/

def keyCell : ColumnSchema × TupleData → Except EtlError γ :=
  requireCell codec ⟨.conversionError, "Replica-identity tuple missing source value"⟩

def convertDenseKeyTupleToRow (identityColumnSchemas : List ColumnSchema) (tuple : Tuple) :
    Except EtlError (List γ) :=
  (identityColumnSchemas.zip tuple).mapM (keyCell codec)

def isNextIdentity (identityColumns : List ColumnSchema) (columnSchema : ColumnSchema) : Bool :=
  identityColumns.head?.any fun identityColumn =>
    identityColumn.ordinalPosition = columnSchema.ordinalPosition

def convertFullWidthKeyColumns (identityColumns : List ColumnSchema) :
    List (ColumnSchema × TupleData) → Except EtlError (List γ)
  | [] => .ok []
  | (columnSchema, field) :: rest =>
    if isNextIdentity identityColumns columnSchema then
      match identityColumns with
      | [] =>
        .error ⟨.conversionError, "Replica-identity tuple shape does not match schema"⟩
      | identityColumn :: identityColumns => do
        let value ← keyCell codec (identityColumn, field)
        let values ← convertFullWidthKeyColumns identityColumns rest
        return value :: values
    else convertFullWidthKeyColumns identityColumns rest

def convertFullWidthKeyTupleToRow (identityColumnSchemas replicatedColumnSchemas : List ColumnSchema)
    (tuple : Tuple) : Except EtlError (List γ) :=
  convertFullWidthKeyColumns codec identityColumnSchemas (replicatedColumnSchemas.zip tuple)

def normalizeKeyTupleToRow (schema : ReplicatedTableSchema) (tuple : Tuple) :
    Except EtlError (List γ) :=
  if schema.identityColumnCount = 0 then
    .error ⟨.conversionError, "Replica-identity tuple missing key columns"⟩
  else if tuple.length = schema.identityColumnCount then
    convertDenseKeyTupleToRow codec schema.identityColumnSchemas tuple
  else if tuple.length = schema.replicatedColumnCount then
    convertFullWidthKeyTupleToRow codec schema.identityColumnSchemas schema.columnSchemas tuple
  else .error ⟨.conversionError, "Replica-identity tuple shape does not match schema"⟩

end Conversion

namespace ReplicatedTableSchema

/-- What `from_masks` asserts, and that ordinals tell columns apart. -/
structure WellFormed (schema : ReplicatedTableSchema) : Prop where
  replication_length : schema.replicationMask.bytes.length = schema.tableSchema.columnSchemas.length
  identity_length : schema.identityMask.bytes.length = schema.tableSchema.columnSchemas.length
  nodup_ordinals : (ordinals schema.tableSchema.columnSchemas).Nodup

variable {schema : ReplicatedTableSchema}

lemma columnSchemas_sublist : schema.columnSchemas.Sublist schema.tableSchema.columnSchemas := by
  unfold columnSchemas
  generalize schema.tableSchema.columnSchemas = columns
  generalize schema.replicationMask.bytes = replication
  induction columns generalizing replication with
  | nil => simp
  | cons c columns ih =>
    rcases replication with _ | ⟨r, replication⟩
    · simp
    · rw [List.zip_cons_cons, List.filterMap_cons]
      have hrest := ih replication
      dsimp only
      split_ifs
      · exact hrest.cons_cons c
      · exact hrest.cons c

lemma identityColumnSchemas_sublist :
    schema.identityColumnSchemas.Sublist schema.columnSchemas := by
  unfold identityColumnSchemas columnSchemas
  generalize schema.tableSchema.columnSchemas = columns
  generalize schema.replicationMask.bytes = replication
  generalize schema.identityMask.bytes = identity
  induction columns generalizing replication identity with
  | nil => simp
  | cons c columns ih =>
    rcases replication with _ | ⟨r, replication⟩
    · simp
    · rcases identity with _ | ⟨i, identity⟩
      · simp
      · rw [List.zip_cons_cons, List.zip_cons_cons, List.zip_cons_cons, List.filterMap_cons,
          List.filterMap_cons]
        have hrest := ih replication identity
        dsimp only
        by_cases hr : r = 1 <;> by_cases hi : i = 1 <;> simp only [hr, hi, and_self, and_true,
          and_false, if_true, if_false]
        · exact hrest.cons_cons c
        · exact hrest.cons c
        · exact hrest
        · exact hrest

namespace WellFormed

lemma nodup_columnSchemas (h : schema.WellFormed) : (ordinals schema.columnSchemas).Nodup :=
  h.nodup_ordinals.sublist (columnSchemas_sublist.map _)

lemma length_columnSchemas (h : schema.WellFormed) :
    schema.columnSchemas.length = schema.replicatedColumnCount := by
  have hlength := h.replication_length
  unfold columnSchemas replicatedColumnCount ReplicationMask.replicatedCount
  revert hlength
  generalize schema.tableSchema.columnSchemas = columns
  generalize schema.replicationMask.bytes = replication
  intro hlength
  induction columns generalizing replication with
  | nil => simp [List.length_eq_zero_iff.1 hlength]
  | cons c columns ih =>
    obtain ⟨r, replication, rfl⟩ := List.exists_cons_of_length_eq_add_one hlength
    have hrest := ih replication (by simpa using hlength)
    rw [List.zip_cons_cons, List.filterMap_cons, List.count_cons, ← hrest]
    dsimp only
    split_ifs with hr <;> simp_all

lemma length_identityColumnSchemas (h : schema.WellFormed) :
    schema.identityColumnSchemas.length = schema.identityColumnCount := by
  have hreplication := h.replication_length
  have hidentity := h.identity_length
  unfold identityColumnSchemas identityColumnCount
  revert hreplication hidentity
  generalize schema.tableSchema.columnSchemas = columns
  generalize schema.replicationMask.bytes = replication
  generalize schema.identityMask.bytes = identity
  intro hreplication hidentity
  have hzip : (replication.zip identity).length = columns.length := by simp [*]
  clear hreplication hidentity
  revert hzip
  generalize replication.zip identity = masks
  intro hzip
  induction columns generalizing masks with
  | nil => simp [List.length_eq_zero_iff.1 hzip]
  | cons c columns ih =>
    obtain ⟨m, masks, rfl⟩ := List.exists_cons_of_length_eq_add_one hzip
    have hrest := ih masks (by simpa using hzip)
    rw [List.zip_cons_cons, List.filterMap_cons, List.filter_cons]
    dsimp only
    split_ifs <;> simp_all

end WellFormed

end ReplicatedTableSchema

/-! ## Both layouts -/

section Layouts

variable {γ : Type} {codec : CellCodec γ} {identity columns : List ColumnSchema} {tuple : Tuple}

lemma isNextIdentity_eq_false {c : ColumnSchema} (hsub : identity.Sublist columns)
    (hnodup : (ordinals (c :: columns)).Nodup) : isNextIdentity identity c = false := by
  rcases identity with _ | ⟨i, identity⟩
  · rfl
  · have hmem : i ∈ columns := hsub.subset List.mem_cons_self
    simp only [isNextIdentity, List.head?_cons, Option.any_some, decide_eq_false_iff_not]
    intro heq
    exact (List.nodup_cons.1 hnodup).1 (List.mem_map.2 ⟨i, hmem, heq⟩)

lemma convertFullWidthKeyColumns_skip {c : ColumnSchema} (h : isNextIdentity identity c = false)
    (field : TupleData) (rest : List (ColumnSchema × TupleData)) :
    convertFullWidthKeyColumns codec identity ((c, field) :: rest) =
      convertFullWidthKeyColumns codec identity rest := by
  rw [convertFullWidthKeyColumns.eq_def]
  simp [h]

lemma convertFullWidthKeyColumns_take (c : ColumnSchema) (field : TupleData)
    (rest : List (ColumnSchema × TupleData)) :
    convertFullWidthKeyColumns codec (c :: identity) ((c, field) :: rest) = (do
      let value ← keyCell codec (c, field)
      let values ← convertFullWidthKeyColumns codec identity rest
      return value :: values) := by
  rw [convertFullWidthKeyColumns.eq_def]
  simp [isNextIdentity]

def keyFields (identity columns : List ColumnSchema) (tuple : Tuple) :
    List (ColumnSchema × TupleData) :=
  (columns.zip tuple).filter fun p => p.1 ∈ identity

lemma keyFields_cons_cons {c : ColumnSchema} {field : TupleData}
    (hnodup : (ordinals (c :: columns)).Nodup) :
    keyFields (c :: identity) (c :: columns) (field :: tuple) =
      (c, field) :: keyFields identity columns tuple := by
  rw [keyFields, List.zip_cons_cons, List.filter_cons_of_pos (by simp), keyFields]
  refine congrArg _ (List.filter_congr fun p hp => ?_)
  have hne : p.1 ≠ c := by
    rintro rfl
    exact (List.nodup_cons.1 hnodup).1 (List.mem_map_of_mem (List.of_mem_zip hp).1)
  simp [hne]

lemma convertFullWidthKeyColumns_eq (hsub : identity.Sublist columns)
    (hnodup : (ordinals columns).Nodup) :
    convertFullWidthKeyColumns codec identity (columns.zip tuple) =
      (keyFields identity columns tuple).mapM (keyCell codec) := by
  induction hsub generalizing tuple with
  | slnil => rfl
  | @cons identity columns c hsub ih =>
    rcases tuple with _ | ⟨field, tuple⟩
    · rfl
    · have hnot : c ∉ identity := fun hmem =>
        (List.nodup_cons.1 hnodup).1 (List.mem_map_of_mem (hsub.subset hmem))
      rw [List.zip_cons_cons,
        convertFullWidthKeyColumns_skip (isNextIdentity_eq_false hsub hnodup),
        ih (List.nodup_cons.1 hnodup).2, keyFields, keyFields, List.zip_cons_cons,
        List.filter_cons_of_neg (by simpa using hnot)]
  | @cons_cons identity columns c hsub ih =>
    rcases tuple with _ | ⟨field, tuple⟩
    · rfl
    · rw [List.zip_cons_cons, convertFullWidthKeyColumns_take, ih (List.nodup_cons.1 hnodup).2,
        keyFields_cons_cons hnodup, List.mapM_cons]

lemma filter_mem_eq_of_sublist (hsub : identity.Sublist columns) (hnodup : columns.Nodup) :
    (columns.filter fun c => c ∈ identity) = identity := by
  induction hsub with
  | slnil => rfl
  | @cons identity columns c hsub ih =>
    obtain ⟨hc, hrest⟩ := List.nodup_cons.1 hnodup
    rw [List.filter_cons_of_neg, ih hrest]
    simpa using fun hmem => hc (hsub.subset hmem)
  | @cons_cons identity columns c hsub ih =>
    obtain ⟨hc, hrest⟩ := List.nodup_cons.1 hnodup
    rw [List.filter_cons_of_pos (by simp)]
    refine congrArg _ (Eq.trans (List.filter_congr fun d hd => ?_) (ih hrest))
    have hne : d ≠ c := fun heq => hc (heq ▸ hd)
    simp [hne]

lemma map_fst_keyFields (hsub : identity.Sublist columns) (hnodup : columns.Nodup)
    (hlength : tuple.length = columns.length) :
    (keyFields identity columns tuple).map Prod.fst = identity := by
  have hfst : (columns.zip tuple).map Prod.fst = columns := List.map_fst_zip (by omega)
  have hfilter : (keyFields identity columns tuple).map Prod.fst =
      ((columns.zip tuple).map Prod.fst).filter fun c => c ∈ identity := by
    rw [List.filter_map]
    rfl
  rw [hfilter, hfst, filter_mem_eq_of_sublist hsub hnodup]

lemma zip_map_self (columns : List ColumnSchema) (field : ColumnSchema → TupleData) :
    columns.zip (columns.map field) = columns.map fun c => (c, field c) := by
  induction columns with
  | nil => rfl
  | cons c columns ih => rw [List.map_cons, List.zip_cons_cons, ih, List.map_cons]

lemma keyFields_map (hsub : identity.Sublist columns) (hnodup : columns.Nodup)
    (field : ColumnSchema → TupleData) :
    keyFields identity columns (columns.map field) = identity.map fun c => (c, field c) := by
  rw [keyFields, zip_map_self, List.filter_map]
  exact congrArg _ (filter_mem_eq_of_sublist hsub hnodup)

end Layouts

section KeyImages

variable {γ : Type} {codec : CellCodec γ} {schema : ReplicatedTableSchema} {tuple : Tuple}

open ReplicatedTableSchema

lemma ReplicatedTableSchema.WellFormed.nodup (h : schema.WellFormed) :
    schema.columnSchemas.Nodup :=
  h.nodup_columnSchemas.of_map

def normalizedFields (schema : ReplicatedTableSchema) (tuple : Tuple) :
    List (ColumnSchema × TupleData) :=
  if tuple.length = schema.identityColumnSchemas.length then schema.identityColumnSchemas.zip tuple
  else keyFields schema.identityColumnSchemas schema.columnSchemas tuple

lemma normalizeKeyTupleToRow_eq (h : schema.WellFormed) (hkey : schema.identityColumnSchemas ≠ [])
    (hlength : tuple.length = schema.identityColumnSchemas.length ∨
      tuple.length = schema.columnSchemas.length) :
    normalizeKeyTupleToRow codec schema tuple =
      (normalizedFields schema tuple).mapM (keyCell codec) := by
  have hcount : schema.identityColumnCount ≠ 0 := by
    rw [← h.length_identityColumnSchemas]
    exact fun hzero => hkey (List.length_eq_zero_iff.1 hzero)
  rw [normalizeKeyTupleToRow, if_neg hcount, normalizedFields, ← h.length_identityColumnSchemas,
    ← h.length_columnSchemas]
  split_ifs with hdense hwide
  · rfl
  · exact convertFullWidthKeyColumns_eq identityColumnSchemas_sublist h.nodup_columnSchemas
  · exact absurd hlength (by simp [hdense, hwide])

lemma exists_normalizeKeyTupleToRow_eq_error (h : schema.WellFormed)
    (hdense : tuple.length ≠ schema.identityColumnSchemas.length)
    (hwide : tuple.length ≠ schema.columnSchemas.length) :
    ∃ e, normalizeKeyTupleToRow codec schema tuple = .error e := by
  rw [normalizeKeyTupleToRow, ← h.length_identityColumnSchemas, ← h.length_columnSchemas]
  split_ifs
  · exact ⟨_, rfl⟩
  · exact ⟨_, rfl⟩

lemma normalizeKeyTupleToRow_eq_error_of_nil (h : schema.WellFormed)
    (hkey : schema.identityColumnSchemas = []) (tuple : Tuple) :
    normalizeKeyTupleToRow codec schema tuple =
      .error ⟨.conversionError, "Replica-identity tuple missing key columns"⟩ := by
  rw [normalizeKeyTupleToRow, ← h.length_identityColumnSchemas, hkey, List.length_nil, if_pos rfl]

def denseKeyTuple (schema : ReplicatedTableSchema) (field : ColumnSchema → TupleData) : Tuple :=
  schema.identityColumnSchemas.map field

def fullWidthKeyTuple (schema : ReplicatedTableSchema) (field : ColumnSchema → TupleData) : Tuple :=
  schema.columnSchemas.map fun c => if c ∈ schema.identityColumnSchemas then field c else .null

lemma length_denseKeyTuple (field : ColumnSchema → TupleData) :
    (denseKeyTuple schema field).length = schema.identityColumnSchemas.length :=
  List.length_map _

lemma length_fullWidthKeyTuple (field : ColumnSchema → TupleData) :
    (fullWidthKeyTuple schema field).length = schema.columnSchemas.length :=
  List.length_map _

lemma normalizedFields_denseKeyTuple (field : ColumnSchema → TupleData) :
    normalizedFields schema (denseKeyTuple schema field) =
      schema.identityColumnSchemas.map fun c => (c, field c) := by
  rw [normalizedFields, denseKeyTuple, List.length_map, if_pos rfl, zip_map_self]

lemma normalizedFields_fullWidthKeyTuple (h : schema.WellFormed)
    (field : ColumnSchema → TupleData) :
    normalizedFields schema (fullWidthKeyTuple schema field) =
      schema.identityColumnSchemas.map fun c => (c, field c) := by
  have hsub : schema.identityColumnSchemas.Sublist schema.columnSchemas :=
    identityColumnSchemas_sublist
  have hfields : ∀ c ∈ schema.identityColumnSchemas,
      (if c ∈ schema.identityColumnSchemas then field c else .null) = field c :=
    fun c hc => if_pos hc
  rw [normalizedFields, fullWidthKeyTuple, List.length_map]
  split_ifs with hlength
  · have hall : schema.identityColumnSchemas = schema.columnSchemas := hsub.eq_of_length hlength.symm
    rw [← hall, List.map_congr_left hfields, zip_map_self]
  · rw [keyFields_map hsub h.nodup]
    exact List.map_congr_left fun c hc => by rw [hfields c hc]

lemma convertDenseKeyTupleToRow_eq_fullWidth (h : schema.WellFormed)
    (hall : schema.identityColumnSchemas.length = schema.columnSchemas.length) :
    convertDenseKeyTupleToRow codec schema.identityColumnSchemas tuple =
      convertFullWidthKeyTupleToRow codec schema.identityColumnSchemas schema.columnSchemas tuple := by
  have hsub : schema.identityColumnSchemas.Sublist schema.columnSchemas :=
    identityColumnSchemas_sublist
  have heq := hsub.eq_of_length hall
  rw [convertFullWidthKeyTupleToRow, convertFullWidthKeyColumns_eq hsub h.nodup_columnSchemas,
    convertDenseKeyTupleToRow, keyFields, heq, List.filter_eq_self.2]
  exact fun p hp => decide_eq_true (List.of_mem_zip hp).1

lemma exists_keyCell_eq_error {c : ColumnSchema} {field : TupleData}
    (h : field = .unchangedToast ∨ field = .null ∧ c.nullable = false) :
    ∃ e, keyCell codec (c, field) = .error e := by
  rcases h with rfl | ⟨rfl, hnull⟩
  · exact ⟨_, rfl⟩
  · refine ⟨⟨.invalidData, "Required column missing from tuple"⟩, ?_⟩
    simp [keyCell, requireCell, convertTupleDataToCell, hnull]
    rfl

/-- Key images of the same row are normalised to the same result: the values of the identity
columns in schema order, unless the schema has no identity columns at all. Images of any other
width are rejected, and so are those that lack a value. -/
theorem normalizeKeyTupleToRow_layouts (codec : CellCodec γ) (schema : ReplicatedTableSchema)
    (h : schema.WellFormed) :
    (∀ field, normalizeKeyTupleToRow codec schema (denseKeyTuple schema field) =
      if schema.identityColumnSchemas = [] then
        .error ⟨.conversionError, "Replica-identity tuple missing key columns"⟩
      else (schema.identityColumnSchemas.map fun c => (c, field c)).mapM (keyCell codec)) ∧
    (∀ field, normalizeKeyTupleToRow codec schema (fullWidthKeyTuple schema field) =
      normalizeKeyTupleToRow codec schema (denseKeyTuple schema field)) ∧
    (∀ field, ∀ c ∈ schema.identityColumnSchemas,
      field c = .unchangedToast ∨ field c = .null ∧ c.nullable = false →
        ∃ e, normalizeKeyTupleToRow codec schema (denseKeyTuple schema field) = .error e) ∧
    (∀ tuple : Tuple, tuple.length ≠ schema.identityColumnSchemas.length →
      tuple.length ≠ schema.columnSchemas.length →
        ∃ e, normalizeKeyTupleToRow codec schema tuple = .error e) ∧
    (schema.identityColumnSchemas.length = schema.columnSchemas.length → ∀ tuple,
      convertDenseKeyTupleToRow codec schema.identityColumnSchemas tuple =
        convertFullWidthKeyTupleToRow codec schema.identityColumnSchemas schema.columnSchemas
          tuple) := by
  have hdense : ∀ field, normalizeKeyTupleToRow codec schema (denseKeyTuple schema field) =
      if schema.identityColumnSchemas = [] then
        .error ⟨.conversionError, "Replica-identity tuple missing key columns"⟩
      else (schema.identityColumnSchemas.map fun c => (c, field c)).mapM (keyCell codec) := by
    intro field
    split_ifs with hkey
    · exact normalizeKeyTupleToRow_eq_error_of_nil h hkey _
    · rw [normalizeKeyTupleToRow_eq h hkey (.inl (length_denseKeyTuple field)),
        normalizedFields_denseKeyTuple]
  refine ⟨hdense, fun field => ?_, fun field c hc hmissing => ?_,
    fun tuple => exists_normalizeKeyTupleToRow_eq_error h,
    fun hall tuple => convertDenseKeyTupleToRow_eq_fullWidth h hall⟩
  · rw [hdense]
    split_ifs with hkey
    · exact normalizeKeyTupleToRow_eq_error_of_nil h hkey _
    · rw [normalizeKeyTupleToRow_eq h hkey (.inr (length_fullWidthKeyTuple field)),
        normalizedFields_fullWidthKeyTuple h]
  · rw [hdense, if_neg (List.ne_nil_of_mem hc)]
    have hfails : ∃ e, keyCell codec (c, field c) = .error e := exists_keyCell_eq_error hmissing
    obtain ⟨e, he⟩ := hfails
    exact Except.exists_mapM_eq_error (List.mem_map_of_mem hc) he

def imageCodec : CellCodec (Option String) := ⟨none, fun _ str => .ok (some str)⟩

def sampleIdentity (identity : List UInt8) : ReplicatedTableSchema :=
  .fromMasks
    ⟨1, ⟨"public", "t"⟩,
      [⟨"a", .text, -1, 1, none, true, none⟩, ⟨"b", .text, -1, 2, none, false, none⟩], .initial⟩
    ⟨[1, 1]⟩ ⟨identity⟩

/-- The second column is the key. -/
theorem normalizeKeyTupleToRow_layouts_sample :
    (sampleIdentity [0, 1]).WellFormed ∧
      normalizeKeyTupleToRow imageCodec (sampleIdentity [0, 1]) [.null, .text "x".toUTF8] =
        .ok [some "x"] := by
  have h : (sampleIdentity [0, 1]).WellFormed := ⟨rfl, rfl, by decide⟩
  refine ⟨h, ?_⟩
  have hlayouts := normalizeKeyTupleToRow_layouts imageCodec _ h
  exact (hlayouts.2.1 fun _ => .text "x".toUTF8).trans (hlayouts.1 _)

/-- Without identity columns there is no row, not even an empty one. -/
theorem normalizeKeyTupleToRow_rejects_keyless :
    (sampleIdentity [0, 0]).WellFormed ∧
      denseKeyTuple (sampleIdentity [0, 0]) (fun _ => .null) = [] ∧
      normalizeKeyTupleToRow imageCodec (sampleIdentity [0, 0]) [] =
        .error ⟨.conversionError, "Replica-identity tuple missing key columns"⟩ :=
  ⟨⟨rfl, rfl, by decide⟩, rfl, rfl⟩

end KeyImages

end Etl
