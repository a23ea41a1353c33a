import Etl.Event

/-!
# Row identities

`identityType` compares the identity columns of old rows with the primary key. `keyValuesOf` and
`identityOf` are values in the order of the columns, `primaryKeyOf` in the order of the key.
-/

namespace Etl

lemma insertionSort_zip_injective {α β : Type*} {r : α → α → Prop} [DecidableRel r]
    {keys : List α} {xs ys : List β} (hxs : xs.length = keys.length) (hys : ys.length = keys.length)
    (h : ((keys.zip xs).insertionSort fun a b => r a.1 b.1).map Prod.snd =
      ((keys.zip ys).insertionSort fun a b => r a.1 b.1).map Prod.snd) : xs = ys := by
  -- the sorted list of keys with their positions says where each value goes
  have hindexed : ∀ zs : List β, zs.length = keys.length →
      (((keys.zip zs).insertionSort fun a b => r a.1 b.1).map Prod.snd).map some =
        (keys.zipIdx.insertionSort fun a b => r a.1 b.1).map fun p => zs[p.2]? := by
    intro zs hzs
    have hzip : (keys.zip zs).map (Prod.map id some) =
        keys.zipIdx.map fun p => (p.1, zs[p.2]?) := by
      refine List.ext_getElem (by simp [hzs]) fun i hi _ => ?_
      have hi' : i < zs.length := by simp [hzs] at hi; omega
      simp [List.getElem?_eq_getElem hi']
    have hleft := List.map_insertionSort (fun a b => r a.1 b.1) (fun a b => r a.1 b.1)
      (Prod.map id some) (keys.zip zs) fun a _ b _ => Iff.rfl
    have hright := List.map_insertionSort (fun a b => r a.1 b.1) (fun a b => r a.1 b.1)
      (fun p : α × Nat => (p.1, zs[p.2]?)) keys.zipIdx fun a _ b _ => Iff.rfl
    rw [hzip, ← hright] at hleft
    simpa [Function.comp_def] using congrArg (List.map Prod.snd) hleft
  have hsame := (hindexed xs hxs).symm.trans ((congrArg (List.map some) h).trans (hindexed ys hys))
  refine List.ext_getElem? fun i => ?_
  by_cases hi : i < keys.length
  · have hmem : (keys[i], i) ∈ keys.zipIdx.insertionSort fun a b => r a.1 b.1 :=
      (List.perm_insertionSort _ _).mem_iff.2 (List.mem_zipIdx_iff_getElem?.2 (by simp [hi]))
    exact List.map_inj_left.1 hsame _ hmem
  · rw [List.getElem?_eq_none (by omega), List.getElem?_eq_none (by omega)]

def ColumnSchema.primaryKey (column : ColumnSchema) : Bool :=
  column.primaryKeyOrdinalPosition.isSome

def ColumnSchema.keyOrdinal (column : ColumnSchema) : Int :=
  column.primaryKeyOrdinalPosition.getD 0

inductive IdentityType where
  | full
  | primaryKey
  | alternativeKey
  | missing
deriving DecidableEq

namespace ReplicatedTableSchema

def maskedColumns (schema : ReplicatedTableSchema) : List ((ColumnSchema × UInt8) × UInt8) :=
  (schema.tableSchema.columnSchemas.zip schema.replicationMask.bytes).zip schema.identityMask.bytes

def identityType (schema : ReplicatedTableSchema) : IdentityType :=
  let hasIdentity := schema.maskedColumns.any fun p => p.2 = 1
  let matchesPrimaryKey := schema.maskedColumns.all fun p =>
    p.2 = if p.1.2 = 1 ∧ p.1.1.primaryKey then 1 else 0
  let matchesFull := schema.maskedColumns.all fun p => p.2 = p.1.2
  if ¬ hasIdentity then .missing
  else if matchesPrimaryKey then .primaryKey
  else if matchesFull then .full
  else .alternativeKey

def primaryKeyColumnSchemas (schema : ReplicatedTableSchema) : List ColumnSchema :=
  (schema.tableSchema.columnSchemas.zip schema.replicationMask.bytes).filterMap
    fun p => if p.2 = 1 ∧ p.1.primaryKey then some p.1 else none

def allPrimaryKeyColumnsReplicated (schema : ReplicatedTableSchema) : Bool :=
  (schema.tableSchema.columnSchemas.zip schema.replicationMask.bytes).all
    fun p => ¬ (p.1.primaryKey ∧ p.2 = 0)

def identityFlags (schema : ReplicatedTableSchema) : List Bool :=
  schema.maskedColumns.filterMap fun p => if p.1.2 = 1 then some (p.2 = 1) else none

def selectFlagged (flags : List Bool) (values : List (Option String)) : List (Option String) :=
  ((flags.zip values).filter (·.1)).map Prod.snd

def keyValuesOf (schema : ReplicatedTableSchema) (row : TableRow) : List (Option String) :=
  selectFlagged (schema.columnSchemas.map (·.primaryKey)) row.values

def sortedKeyColumns (columns : List (ColumnSchema × Option String)) :
    List (ColumnSchema × Option String) :=
  (columns.filter (·.1.primaryKey)).insertionSort fun a b => a.1.keyOrdinal ≤ b.1.keyOrdinal

def primaryKeyOf (schema : ReplicatedTableSchema) (row : TableRow) : List (Option String) :=
  (sortedKeyColumns (schema.columnSchemas.zip row.values)).map Prod.snd

def identityOf (schema : ReplicatedTableSchema) (row : TableRow) : List (Option String) :=
  selectFlagged schema.identityFlags row.values

def HasWidth (schema : ReplicatedTableSchema) (row : TableRow) : Prop :=
  row.values.length = schema.columnSchemas.length

instance (schema : ReplicatedTableSchema) (row : TableRow) : Decidable (schema.HasWidth row) :=
  inferInstanceAs (Decidable (_ = _))

variable {schema : ReplicatedTableSchema} {row : TableRow}

lemma selectFlagged_cons (flag : Bool) (flags : List Bool) (value : Option String)
    (values : List (Option String)) :
    selectFlagged (flag :: flags) (value :: values) =
      if flag then value :: selectFlagged flags values else selectFlagged flags values := by
  cases flag <;> rfl

variable {flags : List Bool} {values : List (Option String)}

lemma length_selectFlagged
    (h : values.length = flags.length) : (selectFlagged flags values).length = flags.count true := by
  induction flags generalizing values with
  | nil => simp [selectFlagged]
  | cons flag flags ih =>
    cases values with
    | nil => simp at h
    | cons value values =>
      rw [selectFlagged_cons]
      cases flag <;> simpa using ih (by simpa using h)

lemma selectFlagged_of_count
    (h : values.length = flags.length) (hall : flags.count true = flags.length) :
    selectFlagged flags values = values := by
  have htrue : ∀ flag ∈ flags, true = flag := List.count_eq_length.1 hall
  rw [selectFlagged, List.filter_eq_self.2, List.map_snd_zip h.le]
  rintro ⟨flag, value⟩ hmem
  exact (htrue flag (List.of_mem_zip hmem).1).symm

lemma selectFlagged_congr {values' : List (Option String)}
    (hlength : values.length = values'.length)
    (h : ∀ i : Nat, flags[i]? = some true → values[i]? = values'[i]?) :
    selectFlagged flags values = selectFlagged flags values' := by
  induction flags generalizing values values' with
  | nil => rfl
  | cons flag flags ih =>
    cases values with
    | nil =>
      rw [List.eq_nil_of_length_eq_zero hlength.symm]
    | cons value values =>
      obtain ⟨value', values', rfl⟩ := List.exists_cons_of_length_eq_add_one hlength.symm
      have htail := ih (by simpa using hlength) fun i hi => h (i + 1) hi
      rw [selectFlagged_cons, selectFlagged_cons, htail]
      cases flag with
      | false => rfl
      | true =>
        have hhead : value = value' := by simpa using h 0 rfl
        rw [hhead]

lemma primaryKeyColumnSchemas_eq :
    schema.primaryKeyColumnSchemas = schema.columnSchemas.filter (·.primaryKey) := by
  simp only [primaryKeyColumnSchemas, columnSchemas, ← List.filterMap_eq_filter,
    List.filterMap_filterMap]
  refine List.filterMap_congr fun p _ => ?_
  by_cases h : p.2 = 1 <;> simp [h, Option.guard]

lemma length_keyValuesOf (h : schema.HasWidth row) :
    (schema.keyValuesOf row).length = schema.primaryKeyColumnSchemas.length := by
  rw [keyValuesOf, length_selectFlagged (by simpa [HasWidth] using h), primaryKeyColumnSchemas_eq,
    ← List.countP_eq_length_filter, List.count, List.countP_map]
  exact List.countP_congr fun column _ => by simp

lemma Fits.map_fst_maskedColumns (h : schema.Fits) :
    schema.maskedColumns.map Prod.fst =
      schema.tableSchema.columnSchemas.zip schema.replicationMask.bytes :=
  List.map_fst_zip (by simp [h.replication_length, h.identity_length])

lemma Fits.columnSchemas_eq (h : schema.Fits) :
    schema.columnSchemas =
      schema.maskedColumns.filterMap fun p => if p.1.2 = 1 then some p.1.1 else none := by
  rw [columnSchemas, ← h.map_fst_maskedColumns, List.filterMap_map]
  rfl

lemma Fits.identityFlags_eq (h : schema.Fits) (flag : ColumnSchema → Bool)
    (hflag : ∀ p ∈ schema.maskedColumns, p.1.2 = 1 → (p.2 = 1 ↔ flag p.1.1)) :
    schema.identityFlags = schema.columnSchemas.map flag := by
  rw [h.columnSchemas_eq, identityFlags, List.map_filterMap]
  refine List.filterMap_congr fun p hp => ?_
  by_cases hrep : p.1.2 = 1
  · simp [hrep, hflag p hp hrep]
  · simp [hrep]

lemma identityOf_eq_keyValuesOf (hfits : schema.Fits) (h : schema.identityType = .primaryKey) :
    schema.identityOf row = schema.keyValuesOf row := by
  have hmatch : ∀ p ∈ schema.maskedColumns,
      p.2 = if p.1.2 = 1 ∧ p.1.1.primaryKey then 1 else 0 := by
    simp only [identityType] at h
    split_ifs at h with _ hall
    simpa using hall
  rw [identityOf, keyValuesOf, hfits.identityFlags_eq (·.primaryKey)]
  intro p hp hrep
  rw [hmatch p hp]
  by_cases hkey : p.1.1.primaryKey = true <;> simp [hrep, hkey]

lemma identityOf_eq_values (hfits : schema.Fits) (h : schema.identityType = .full)
    (hwidth : schema.HasWidth row) : schema.identityOf row = row.values := by
  have hmatch : ∀ p ∈ schema.maskedColumns, p.2 = p.1.2 := by
    simp only [identityType] at h
    split_ifs at h with _ _ hall
    simpa using hall
  have hflags : schema.identityFlags = schema.columnSchemas.map fun _ => true :=
    hfits.identityFlags_eq (fun _ => true) fun p hp hrep => by simp [hmatch p hp, hrep]
  rw [identityOf, hflags]
  exact selectFlagged_of_count (by simpa [HasWidth] using hwidth)
    (List.count_eq_length.2 fun flag hflag => by simp_all)

lemma keyValuesOf_eq_values (hwidth : schema.HasWidth row)
    (hall : schema.primaryKeyColumnSchemas.length = schema.columnSchemas.length) :
    schema.keyValuesOf row = row.values := by
  have hcount := length_keyValuesOf hwidth
  rw [keyValuesOf, length_selectFlagged (by simpa [HasWidth] using hwidth)] at hcount
  exact selectFlagged_of_count (by simpa [HasWidth] using hwidth) (by simpa using hcount.trans hall)

/-! ## The order of the key -/

lemma zip_filter_primaryKey {columns : List ColumnSchema} (h : values.length = columns.length) :
    (columns.zip values).filter (·.1.primaryKey) =
      (columns.filter (·.primaryKey)).zip
        (selectFlagged (columns.map (·.primaryKey)) values) := by
  induction columns generalizing values with
  | nil => simp
  | cons column columns ih =>
    cases values with
    | nil => simp at h
    | cons value values =>
      have htail := @ih values (by simpa using h)
      rw [List.map_cons, selectFlagged_cons, List.zip_cons_cons]
      cases hkey : column.primaryKey <;> simp [hkey, htail]

lemma primaryKeyOf_eq_of_keyValuesOf_eq {row' : TableRow} (h : schema.HasWidth row)
    (h' : schema.HasWidth row') (heq : schema.keyValuesOf row = schema.keyValuesOf row') :
    schema.primaryKeyOf row = schema.primaryKeyOf row' := by
  rw [primaryKeyOf, primaryKeyOf, sortedKeyColumns, sortedKeyColumns, zip_filter_primaryKey h,
    zip_filter_primaryKey h', ← keyValuesOf, ← keyValuesOf, heq]

lemma primaryKeyOf_eq_iff {row' : TableRow} (h : schema.HasWidth row)
    (h' : schema.HasWidth row') :
    schema.primaryKeyOf row = schema.primaryKeyOf row' ↔
      schema.keyValuesOf row = schema.keyValuesOf row' := by
  refine ⟨fun heq => ?_, primaryKeyOf_eq_of_keyValuesOf_eq h h'⟩
  rw [primaryKeyOf, primaryKeyOf, sortedKeyColumns, sortedKeyColumns, zip_filter_primaryKey h,
    zip_filter_primaryKey h', ← keyValuesOf, ← keyValuesOf] at heq
  have hlength : ∀ {row}, schema.HasWidth row → (schema.keyValuesOf row).length =
      (schema.columnSchemas.filter (·.primaryKey)).length := fun h => by
    rw [length_keyValuesOf h, primaryKeyColumnSchemas_eq]
  exact insertionSort_zip_injective (r := fun a b : ColumnSchema => a.keyOrdinal ≤ b.keyOrdinal)
    (hlength h) (hlength h') heq

end ReplicatedTableSchema

end Etl
