import Etl.Lib.Machine
import Etl.Lib.NumeralOrder
import Etl.Postgres.TupleRows

/-!
# The key set of a batched delete

A `DeleteKeySet` collects the keys of a `DELETE` as SQL literals, and the least and the greatest for
each column, which become range predicates. `Clause.selects` is the meaning of a clause in SQL;
`takeClause_selects` says that it selects exactly the rows with the identity of a pushed row.
-/

namespace Etl.DuckLake

/-! ## Cells and their literals -/

/-- Values of a canonical identity are told apart; any other is known by its literal. -/
inductive Cell where
  | null
  | i16 (value : Int16)
  | i32 (value : Int32)
  | u32 (value : UInt32)
  | i64 (value : Int64)
  | uuid (bits : BitVec 128)
  | other (literal : String)
deriving DecidableEq

def uuidText (bits : BitVec 128) : List Char :=
  let digits := Text.lowerHex 32 bits.toNat
  digits.take 8 ++ '-' :: ((digits.drop 8).take 4 ++ '-' :: ((digits.drop 12).take 4 ++
    '-' :: ((digits.drop 16).take 4 ++ '-' :: digits.drop 20)))

def cellToSqlLiteral : Cell → String
  | .null => "NULL"
  | .i16 value => String.ofList (Text.renderInt value.toInt)
  | .i32 value => String.ofList (Text.renderInt value.toInt)
  | .u32 value => String.ofList (Text.renderInt value.toNat)
  | .i64 value => String.ofList (Text.renderInt value.toInt)
  | .uuid bits => "CAST('" ++ String.ofList (uuidText bits) ++ "' AS UUID)"
  | .other literal => literal

inductive KeyOrdinal where
  | integer (value : Int)
  | uuid (image : BitVec 128)
deriving DecidableEq

namespace KeyOrdinal

def fromCell : Cell → Option KeyOrdinal
  | .i16 value => some (.integer value.toInt)
  | .i32 value => some (.integer value.toInt)
  | .u32 value => some (.integer value.toNat)
  | .i64 value => some (.integer value.toInt)
  | .uuid bits => some (.uuid bits)
  | _ => none

def compare : KeyOrdinal → KeyOrdinal → Option Ordering
  | .integer left, .integer right => some (Ord.compare left right)
  | .uuid left, .uuid right => some (Ord.compare left.toNat right.toNat)
  | _, _ => none

end KeyOrdinal

structure KeyComponent where
  literal : String
  ordinal : Option KeyOrdinal
deriving DecidableEq

def KeyComponent.fromCell (cell : Cell) : KeyComponent :=
  ⟨cellToSqlLiteral cell, KeyOrdinal.fromCell cell⟩

inductive ColumnBound where
  | unset
  | range (min max : KeyOrdinal × String)
  | disabled
deriving DecidableEq

def ColumnBound.observe (bound : ColumnBound) (component : KeyComponent) : ColumnBound :=
  match bound, component.ordinal with
  | .disabled, _ => .disabled
  | _, none => .disabled
  | .unset, some ordinal => .range (ordinal, component.literal) (ordinal, component.literal)
  | .range min max, some ordinal =>
    match ordinal.compare min.1, ordinal.compare max.1 with
    | some againstMin, some againstMax =>
      .range (if againstMin = .lt then (ordinal, component.literal) else min)
        (if againstMax = .gt then (ordinal, component.literal) else max)
    | _, _ => .disabled

/-! ## Clauses -/

inductive KeyPredicate where
  | isNotDistinctFrom (column : String)
  | atLeast (column literal : String)
  | atMost (column literal : String)
deriving DecidableEq

structure Clause where
  keys : List (List String)
  columns : List String
  predicates : List KeyPredicate
deriving DecidableEq

def quoteIdentifier (name : String) : String :=
  "\"" ++ String.ofList (Text.doubled '"' name.toList) ++ "\""

def KeyPredicate.render : KeyPredicate → String
  | .isNotDistinctFrom column =>
    "cdc_target." ++ quoteIdentifier column ++ " IS NOT DISTINCT FROM cdc_keys." ++
      quoteIdentifier column
  | .atLeast column literal => "cdc_target." ++ quoteIdentifier column ++ " >= " ++ literal
  | .atMost column literal => "cdc_target." ++ quoteIdentifier column ++ " <= " ++ literal

namespace Clause

def renderBody (clause : Clause) : String :=
  "(VALUES " ++ ",".intercalate (clause.keys.map fun key => "(" ++ ",".intercalate key ++ ")") ++
    ") AS cdc_keys(" ++ ",".intercalate (clause.columns.map quoteIdentifier) ++ ") WHERE " ++
    " AND ".intercalate (clause.predicates.map KeyPredicate.render)

def render (clause : Clause) : String := "USING " ++ clause.renderBody

def renderJoin (clause : Clause) : String := ", " ++ clause.renderBody

end Clause

/-! ## The key set -/

def ducklakeColumnName (column : ColumnSchema) : String :=
  String.ofList (column.name.toList.map Char.toLower)

structure DeleteKeySet where
  identityColumns : List String
  bounds : List ColumnBound
  keys : List (List String)
deriving DecidableEq

namespace DeleteKeySet

def new (schema : ReplicatedTableSchema) : DeleteKeySet :=
  let identityColumns := schema.identityColumnSchemas.map ducklakeColumnName
  ⟨identityColumns, List.replicate identityColumns.length .unset, []⟩

def push (set : DeleteKeySet) (components : List KeyComponent) : DeleteKeySet :=
  { set with
    keys := set.keys ++ [components.map (·.literal)]
    bounds :=
      if components.length ≠ set.bounds.length then set.bounds.map fun _ => .disabled
      else List.zipWith ColumnBound.observe set.bounds components }

def rangePredicates (column : String) : ColumnBound → List KeyPredicate
  | .range min max => [.atLeast column min.2, .atMost column max.2]
  | _ => []

def clauseOf (set : DeleteKeySet) : Clause where
  keys := set.keys
  columns := set.identityColumns
  predicates := set.identityColumns.map .isNotDistinctFrom ++
    (set.identityColumns.zip set.bounds).flatMap fun p => rangePredicates p.1 p.2

def takeClause (set : DeleteKeySet) : Option Clause × DeleteKeySet :=
  if set.keys.isEmpty then (none, set)
  else (some set.clauseOf, { set with keys := [], bounds := set.bounds.map fun _ => .unset })

def pushAll (set : DeleteKeySet) (keys : List (List KeyComponent)) : DeleteKeySet :=
  keys.foldl push set

inductive Use where
  | push (components : List KeyComponent)
  | take

def after (set : DeleteKeySet) : List Use → DeleteKeySet
  | [] => set
  | .push components :: history => (set.push components).after history
  | .take :: history => set.takeClause.2.after history

end DeleteKeySet

/-! ## Keys of rows -/

def canonicalTypes : List String := ["INT2", "INT4", "INT8", "UUID"]

def hasCanonicalIdentity (schema : ReplicatedTableSchema) : Bool :=
  !schema.identityColumnSchemas.isEmpty &&
    schema.identityColumnSchemas.all fun column =>
      canonicalTypes.contains (postgresTypeToString column.typ)

inductive DeletePredicateRowRef where
  | full (values : List Cell)
  | key (values : List Cell)

def identityKeyValues (identityColumns : List ColumnSchema) :
    List (ColumnSchema × Cell) → Except EtlError (List (ColumnSchema × Cell))
  | [] => .ok []
  | (columnSchema, value) :: rest =>
    if isNextIdentity identityColumns columnSchema then
      match identityColumns with
      | [] => .error ⟨.invalidState, "DuckLake replica identity schema is inconsistent"⟩
      | identityColumn :: identityColumns => do
        let keyValues ← identityKeyValues identityColumns rest
        return (identityColumn, value) :: keyValues
    else identityKeyValues identityColumns rest

def deleteKeyValues (schema : ReplicatedTableSchema) (row : DeletePredicateRowRef) :
    Except EtlError (List (ColumnSchema × Cell)) :=
  if schema.identityColumnSchemas.isEmpty then
    .error ⟨.sourceReplicaIdentityError, "DuckLake delete requires a replica identity"⟩
  else
    match row with
    | .full values =>
      if values.length ≠ schema.columnSchemas.length then
        .error ⟨.invalidState, "DuckLake row shape does not match schema"⟩
      else identityKeyValues schema.identityColumnSchemas (schema.columnSchemas.zip values)
    | .key values =>
      if values.length ≠ schema.identityColumnSchemas.length then
        .error ⟨.invalidState, "DuckLake key image does not match replica identity"⟩
      else .ok (schema.identityColumnSchemas.zip values)

def deleteKeyComponents (schema : ReplicatedTableSchema) (row : DeletePredicateRowRef) :
    Except EtlError (List KeyComponent) := do
  let keyValues ← deleteKeyValues schema row
  return keyValues.map fun p => .fromCell p.2

/-! ## What a clause means -/

inductive SqlValue where
  | null
  | integer (n : Int)
  | uuid (bits : BitVec 128)
deriving DecidableEq

def Cell.value? : Cell → Option SqlValue
  | .null => some .null
  | .i16 value => some (.integer value.toInt)
  | .i32 value => some (.integer value.toInt)
  | .u32 value => some (.integer value.toNat)
  | .i64 value => some (.integer value.toInt)
  | .uuid bits => some (.uuid bits)
  | .other _ => none

namespace SqlValue

def storedUuid (bits : BitVec 128) : Int := (bits ^^^ BitVec.twoPow 128 127).toInt

/-- A comparison with NULL is unknown, and other kinds are not compared. -/
def le : SqlValue → SqlValue → Option Bool
  | .integer left, .integer right => some (left ≤ right)
  | .uuid left, .uuid right => some (storedUuid left ≤ storedUuid right)
  | _, _ => none

def castBody? (text : List Char) : Option (List Char) :=
  let body := (text.drop 6).take (text.length - 16)
  if text = ['C', 'A', 'S', 'T', '(', '\''] ++ body ++
      ['\'', ' ', 'A', 'S', ' ', 'U', 'U', 'I', 'D', ')'] then some body
  else none

def readUuid? (text : List Char) : Option (BitVec 128) :=
  let digits := text.filter (· ≠ '-')
  if digits.length = 32 then (Text.parse? 16 digits).map (BitVec.ofNat 128) else none

def readLiteral? (literal : String) : Option SqlValue :=
  if literal = "NULL" then some .null
  else
    match Text.parseInt? literal.toList with
    | some n => some (.integer n)
    | none => ((castBody? literal.toList).bind readUuid?).map .uuid

end SqlValue

def sqlAnd : Option Bool → Option Bool → Option Bool
  | some false, _ => some false
  | _, some false => some false
  | some true, some true => some true
  | _, _ => none

def KeyPredicate.eval (target : String → SqlValue) (key : List (String × SqlValue)) :
    KeyPredicate → Option Bool
  | .isNotDistinctFrom column => some (key.lookup column = some (target column))
  | .atLeast column literal => (SqlValue.readLiteral? literal).bind fun bound =>
      bound.le (target column)
  | .atMost column literal => (SqlValue.readLiteral? literal).bind fun bound =>
      (target column).le bound

def Clause.joins (clause : Clause) (target : String → SqlValue) (key : List String) : Bool :=
  match key.mapM SqlValue.readLiteral? with
  | some values =>
    (clause.predicates.map (·.eval target (clause.columns.zip values))).foldr sqlAnd (some true) =
      some true
  | none => false

def Clause.selects (clause : Clause) (target : String → SqlValue) : Bool :=
  clause.keys.any (clause.joins target)

/-! ## Rows of the schema -/

/-- Nothing is asked of columns without a canonical type. -/
def Cell.HasType (cell : Cell) (typ : PgType) : Prop :=
  cell = .null ∨ (postgresTypeToString typ = "INT2" ∧ ∃ value, cell = .i16 value) ∨
    (postgresTypeToString typ = "INT4" ∧ ∃ value, cell = .i32 value) ∨
    (postgresTypeToString typ = "INT8" ∧ ∃ value, cell = .i64 value) ∨
    (postgresTypeToString typ = "UUID" ∧ ∃ bits, cell = .uuid bits) ∨
    postgresTypeToString typ ∉ canonicalTypes

namespace DeletePredicateRowRef

def identityCells (schema : ReplicatedTableSchema) : DeletePredicateRowRef → List Cell
  | .full values => ((schema.columnSchemas.zip values).filter fun p =>
      p.1 ∈ schema.identityColumnSchemas).map Prod.snd
  | .key values => values

structure Fits (schema : ReplicatedTableSchema) (row : DeletePredicateRowRef) : Prop where
  width : match row with
    | .full values => values.length = schema.columnSchemas.length
    | .key values => values.length = schema.identityColumnSchemas.length
  hasType : ∀ p ∈ schema.identityColumnSchemas.zip (row.identityCells schema), p.2.HasType p.1.typ

end DeletePredicateRowRef

/-! ## Literals are read back -/

lemma filter_uuidText (bits : BitVec 128) :
    (uuidText bits).filter (· ≠ '-') = Text.lowerHex 32 bits.toNat := by
  have hdigits : ∀ c ∈ Text.lowerHex 32 bits.toNat, c ≠ '-' := by
    rintro c hc rfl
    exact Text.notMem_lowerHex (by decide) 32 bits.toNat hc
  generalize hd : Text.lowerHex 32 bits.toNat = digits at hdigits
  have hkeep : ∀ part : List Char, part.Sublist digits → part.filter (· ≠ '-') = part := by
    intro part hsub
    exact List.filter_eq_self.2 fun c hc => by simpa using hdigits c (hsub.subset hc)
  have hcut : ∀ a b : Nat, ((digits.drop a).take b).Sublist digits := fun a b =>
    (List.take_sublist _ _).trans (List.drop_sublist _ _)
  simp only [uuidText, hd, List.filter_append, List.filter_cons, ne_eq, not_true_eq_false,
    decide_false, Bool.false_eq_true, if_false]
  simp only [ne_eq] at hkeep
  rw [hkeep _ (List.take_sublist _ _), hkeep _ (hcut 8 4), hkeep _ (hcut 12 4), hkeep _ (hcut 16 4),
    hkeep _ (List.drop_sublist _ _)]
  -- the five parts stand one behind the other
  have hjoin : ∀ a b : Nat, (digits.drop a).take b ++ digits.drop (a + b) = digits.drop a := by
    intro a b
    rw [← List.drop_drop, List.take_append_drop]
  rw [hjoin 16 4, hjoin 12 4, hjoin 8 4, List.take_append_drop]

lemma readUuid?_uuidText (bits : BitVec 128) :
    SqlValue.readUuid? (uuidText bits) = some bits := by
  have hlength : (Text.lowerHex 32 bits.toNat).length = 32 :=
    Text.length_lowerHex (by have := bits.isLt; norm_num at this ⊢; exact this)
  simp only [SqlValue.readUuid?, filter_uuidText, hlength, if_true,
    Text.parse?_lowerHex (by norm_num : 0 < 32), Option.map_some, BitVec.ofNat_toNat,
    BitVec.setWidth_eq]

lemma castBody?_append (body : List Char) :
    SqlValue.castBody? (['C', 'A', 'S', 'T', '(', '\''] ++ body ++
      ['\'', ' ', 'A', 'S', ' ', 'U', 'U', 'I', 'D', ')']) = some body := by
  have hbody : ((['C', 'A', 'S', 'T', '(', '\''] ++ body ++
      ['\'', ' ', 'A', 'S', ' ', 'U', 'U', 'I', 'D', ')']).drop 6).take
      ((['C', 'A', 'S', 'T', '(', '\''] ++ body ++
        ['\'', ' ', 'A', 'S', ' ', 'U', 'U', 'I', 'D', ')']).length - 16) = body := by
    simp
  rw [SqlValue.castBody?, hbody, if_pos rfl]

lemma readLiteral?_renderInt (n : Int) :
    SqlValue.readLiteral? (String.ofList (Text.renderInt n)) = some (.integer n) := by
  have hnull : String.ofList (Text.renderInt n) ≠ "NULL" := by
    intro h
    have hparse := Text.parseInt?_renderInt n
    rw [← String.toList_ofList (l := Text.renderInt n), h] at hparse
    rw [show Text.parseInt? "NULL".toList = none by decide] at hparse
    cases hparse
  simp [SqlValue.readLiteral?, hnull, Text.parseInt?_renderInt]

lemma readLiteral?_cast (bits : BitVec 128) :
    SqlValue.readLiteral? (cellToSqlLiteral (.uuid bits)) = some (.uuid bits) := by
  have htext : (cellToSqlLiteral (.uuid bits)).toList = ['C', 'A', 'S', 'T', '(', '\''] ++
      uuidText bits ++ ['\'', ' ', 'A', 'S', ' ', 'U', 'U', 'I', 'D', ')'] := by
    simp [cellToSqlLiteral, String.toList_append]
  have hnull : cellToSqlLiteral (.uuid bits) ≠ "NULL" := by
    intro h
    rw [h] at htext
    simp at htext
  have hint : Text.parseInt? (cellToSqlLiteral (.uuid bits)).toList = none := by
    rw [htext, Text.parseInt?_of_head?_ne (by simp)]
    simp [Text.parse?, Text.digitVal?]
  rw [SqlValue.readLiteral?, if_neg hnull, hint, htext]
  dsimp only
  rw [castBody?_append, Option.bind_some, readUuid?_uuidText, Option.map_some]

lemma readLiteral?_cellToSqlLiteral {cell : Cell} {value : SqlValue}
    (h : cell.value? = some value) :
    SqlValue.readLiteral? (cellToSqlLiteral cell) = some value := by
  cases cell with
  | null => simpa [cellToSqlLiteral, SqlValue.readLiteral?, Cell.value?] using h
  | i16 n => rw [cellToSqlLiteral, readLiteral?_renderInt]; exact h
  | i32 n => rw [cellToSqlLiteral, readLiteral?_renderInt]; exact h
  | u32 n => rw [cellToSqlLiteral, readLiteral?_renderInt]; exact h
  | i64 n => rw [cellToSqlLiteral, readLiteral?_renderInt]; exact h
  | uuid bits => rw [readLiteral?_cast]; exact h
  | other literal => cases h

/-! ## Bounds bracket what they observed -/

namespace SqlValue

lemma storedUuid_le_iff (left right : BitVec 128) :
    storedUuid left ≤ storedUuid right ↔ left.toNat ≤ right.toNat := by
  rw [storedUuid, storedUuid, Machine.toInt_xor_twoPow, Machine.toInt_xor_twoPow]
  omega

lemma le_trans {a b c : SqlValue} (hab : a.le b = some true) (hbc : b.le c = some true) :
    a.le c = some true := by
  cases a <;> cases b <;> cases c <;> simp_all [le] <;> omega

end SqlValue

namespace KeyOrdinal

def value : KeyOrdinal → SqlValue
  | .integer n => .integer n
  | .uuid bits => .uuid bits

lemma value_of_fromCell {cell : Cell} {ordinal : KeyOrdinal} (h : fromCell cell = some ordinal) :
    cell.value? = some ordinal.value := by
  cases cell <;> simp_all [fromCell, Cell.value?] <;> subst h <;> rfl

lemma le_self (ordinal : KeyOrdinal) : ordinal.value.le ordinal.value = some true := by
  cases ordinal <;> simp [value, SqlValue.le]

lemma compare_spec {a b : KeyOrdinal} {o : Ordering} (h : a.compare b = some o) :
    (o ≠ .gt → a.value.le b.value = some true) ∧ (o ≠ .lt → b.value.le a.value = some true) := by
  cases a with
  | integer m =>
    cases b with
    | integer n =>
      obtain rfl : Ord.compare m n = o := Option.some.inj h
      constructor <;> intro ho <;>
        simpa [value, SqlValue.le, Int.compare_ne_gt, Int.compare_ne_lt] using ho
    | uuid => cases h
  | uuid m =>
    cases b with
    | integer => cases h
    | uuid n =>
      obtain rfl : Ord.compare m.toNat n.toNat = o := Option.some.inj h
      constructor <;> intro ho <;>
        simpa [value, SqlValue.le, SqlValue.storedUuid_le_iff, Nat.compare_ne_gt, Nat.compare_ne_lt]
          using ho

end KeyOrdinal

namespace ColumnBound

/-- The cells lie between two values whose literals the bound keeps, unless it is disabled. -/
def Brackets (cells : List Cell) : ColumnBound → Prop
  | .unset => cells = []
  | .disabled => True
  | .range min max =>
    SqlValue.readLiteral? min.2 = some min.1.value ∧
      SqlValue.readLiteral? max.2 = some max.1.value ∧
      ∀ cell ∈ cells, ∃ value, cell.value? = some value ∧
        min.1.value.le value = some true ∧ value.le max.1.value = some true

variable {cells : List Cell} {bound : ColumnBound}

lemma Brackets.observe (h : bound.Brackets cells) (cell : Cell) :
    (bound.observe (.fromCell cell)).Brackets (cells ++ [cell]) := by
  cases hordinal : KeyOrdinal.fromCell cell with
  | none => cases bound <;> simp [ColumnBound.observe, KeyComponent.fromCell, hordinal, Brackets]
  | some ordinal =>
    have hvalue := KeyOrdinal.value_of_fromCell hordinal
    have hread := readLiteral?_cellToSqlLiteral hvalue
    cases bound with
    | disabled => trivial
    | unset =>
      obtain rfl : cells = [] := h
      simp only [ColumnBound.observe, KeyComponent.fromCell, hordinal, Brackets, hread, true_and]
      intro other hother
      obtain rfl : other = cell := by simpa using hother
      exact ⟨ordinal.value, hvalue, ordinal.le_self, ordinal.le_self⟩
    | range min max =>
      obtain ⟨hmin, hmax, hcells⟩ := h
      cases hlow : ordinal.compare min.1 with
      | none => simp [ColumnBound.observe, KeyComponent.fromCell, hordinal, hlow, Brackets]
      | some low =>
        cases hhigh : ordinal.compare max.1 with
        | none => simp [ColumnBound.observe, KeyComponent.fromCell, hordinal, hlow, hhigh, Brackets]
        | some high =>
          obtain ⟨hbelow, habove⟩ := KeyOrdinal.compare_spec hlow
          obtain ⟨hbelow', habove'⟩ := KeyOrdinal.compare_spec hhigh
          have hobserve : (ColumnBound.range min max).observe (.fromCell cell) = .range
              (if low = .lt then (ordinal, cellToSqlLiteral cell) else min)
              (if high = .gt then (ordinal, cellToSqlLiteral cell) else max) := by
            simp [ColumnBound.observe, KeyComponent.fromCell, hordinal, hlow, hhigh]
          rw [hobserve]
          generalize hmin' : (if low = .lt then (ordinal, cellToSqlLiteral cell) else min) = min'
          generalize hmax' : (if high = .gt then (ordinal, cellToSqlLiteral cell) else max) = max'
          -- each end moves outwards or stays, and the new cell is inside
          obtain ⟨hread₁, hout₁, hin₁⟩ : SqlValue.readLiteral? min'.2 = some min'.1.value ∧
              min'.1.value.le min.1.value = some true ∧
              min'.1.value.le ordinal.value = some true := by
            subst hmin'
            split_ifs with hlt
            · exact ⟨hread, hbelow (by simp [hlt]), ordinal.le_self⟩
            · exact ⟨hmin, min.1.le_self, habove hlt⟩
          obtain ⟨hread₂, hout₂, hin₂⟩ : SqlValue.readLiteral? max'.2 = some max'.1.value ∧
              max.1.value.le max'.1.value = some true ∧
              ordinal.value.le max'.1.value = some true := by
            subst hmax'
            split_ifs with hgt
            · exact ⟨hread, habove' (by simp [hgt]), ordinal.le_self⟩
            · exact ⟨hmax, max.1.le_self, hbelow' hgt⟩
          refine ⟨hread₁, hread₂, fun other hother => ?_⟩
          rcases List.mem_append.1 hother with hold | hnew
          · obtain ⟨value, hother, hge, hle⟩ := hcells other hold
            exact ⟨value, hother, SqlValue.le_trans hout₁ hge, SqlValue.le_trans hle hout₂⟩
          · obtain rfl : other = cell := by simpa using hnew
            exact ⟨ordinal.value, hvalue, hin₁, hin₂⟩

end ColumnBound

/-! ## The key set over a history -/

namespace DeleteKeySet

variable {schema : ReplicatedTableSchema} {set : DeleteKeySet} {keys : List (List Cell)}

/-- A key set of the schema that holds no bounds without a key. -/
structure Tidy (schema : ReplicatedTableSchema) (set : DeleteKeySet) : Prop where
  identityColumns : set.identityColumns = schema.identityColumnSchemas.map ducklakeColumnName
  length_bounds : set.bounds.length = schema.identityColumnSchemas.length
  bounds_of_empty : set.keys = [] → set.bounds = List.replicate set.bounds.length .unset

lemma tidy_new : (new schema).Tidy schema where
  identityColumns := rfl
  length_bounds := by simp [new]
  bounds_of_empty _ := by simp [new]

lemma Tidy.push (h : set.Tidy schema) (components : List KeyComponent) :
    (set.push components).Tidy schema where
  identityColumns := h.identityColumns
  length_bounds := by
    have hlength := h.length_bounds
    simp only [DeleteKeySet.push]
    split_ifs with hne
    · simpa using hlength
    · simp at hne ⊢
      omega
  bounds_of_empty hempty := by simp [DeleteKeySet.push] at hempty

lemma Tidy.takeClause (h : set.Tidy schema) : set.takeClause.2 = new schema := by
  have hlength := h.length_bounds
  have hcolumns := h.identityColumns
  unfold DeleteKeySet.takeClause new
  cases set with
  | mk identityColumns bounds keys =>
    dsimp only at hlength hcolumns ⊢
    split_ifs with hempty
    · have hkeys : keys = [] := List.isEmpty_iff.1 hempty
      have hbounds := h.bounds_of_empty hkeys
      dsimp only at hbounds
      rw [hbounds]
      simp [hkeys, hcolumns, hlength]
    · simp [hcolumns, hlength, List.map_const']

lemma Tidy.after (h : set.Tidy schema) (history : List Use) :
    (set.after history).Tidy schema := by
  induction history generalizing set with
  | nil => exact h
  | cons use history ih =>
    cases use with
    | push components => exact ih (h.push components)
    | take =>
      refine ih ?_
      rw [h.takeClause]
      exact tidy_new

structure Holds (schema : ReplicatedTableSchema) (keys : List (List Cell)) (set : DeleteKeySet) :
    Prop where
  tidy : set.Tidy schema
  keys_eq : set.keys = keys.map (·.map cellToSqlLiteral)
  brackets : ∀ (i : Nat) (bound : ColumnBound), set.bounds[i]? = some bound →
    bound.Brackets (keys.filterMap fun key : List Cell => key[i]?)

lemma holds_new : (new schema).Holds schema [] where
  tidy := tidy_new
  keys_eq := rfl
  brackets i bound hbound := by
    have hunset : bound = .unset := by
      simp only [new] at hbound
      exact List.eq_of_mem_replicate (List.mem_of_getElem? hbound)
    simp [hunset, ColumnBound.Brackets]

lemma Holds.push (h : set.Holds schema keys) {key : List Cell}
    (hkey : key.length = schema.identityColumnSchemas.length) :
    (set.push (key.map .fromCell)).Holds schema (keys ++ [key]) where
  tidy := h.tidy.push _
  keys_eq := by simp [DeleteKeySet.push, h.keys_eq, KeyComponent.fromCell, Function.comp_def]
  brackets i bound hbound := by
    have hlength : key.length = set.bounds.length := hkey.trans h.tidy.length_bounds.symm
    simp only [DeleteKeySet.push, List.length_map, hlength, ne_eq, not_true_eq_false, if_false,
      List.getElem?_zipWith, List.getElem?_map] at hbound
    cases hold : set.bounds[i]? with
    | none => simp [hold] at hbound
    | some old =>
      cases hcell : key[i]? with
      | none => simp [hold, hcell] at hbound
      | some cell =>
        obtain rfl : old.observe (.fromCell cell) = bound := by simpa [hold, hcell] using hbound
        simpa [List.filterMap_append, hcell] using (h.brackets i old hold).observe cell

lemma Holds.pushAll (h : set.Holds schema keys) {more : List (List Cell)}
    (hmore : ∀ key ∈ more, key.length = schema.identityColumnSchemas.length) :
    (set.pushAll (more.map (·.map .fromCell))).Holds schema (keys ++ more) := by
  induction more generalizing set keys with
  | nil => simpa [DeleteKeySet.pushAll] using h
  | cons key more ih =>
    have hstep := h.push (hmore key List.mem_cons_self)
    have hrest := ih hstep fun key hkey => hmore key (List.mem_cons_of_mem _ hkey)
    simpa [DeleteKeySet.pushAll] using hrest

end DeleteKeySet

/-! ## Keys of rows -/

lemma identityKeyValues_zip {identity columns : List ColumnSchema} {values : List Cell}
    (hsub : identity.Sublist columns) (hnodup : (ordinals columns).Nodup)
    (hlength : values.length = columns.length) :
    ∃ cells, cells = ((columns.zip values).filter fun p => p.1 ∈ identity).map Prod.snd ∧
      cells.length = identity.length ∧
      identityKeyValues identity (columns.zip values) = .ok (identity.zip cells) := by
  induction columns generalizing identity values with
  | nil =>
    obtain rfl : identity = [] := List.sublist_nil.1 hsub
    exact ⟨[], rfl, rfl, rfl⟩
  | cons c columns ih =>
    obtain ⟨value, values, rfl⟩ := List.exists_cons_of_length_eq_add_one hlength
    have hrest : (ordinals columns).Nodup := (List.nodup_cons.1 hnodup).2
    have hfresh : c ∉ columns := fun hc =>
      (List.nodup_cons.1 hnodup).1 (List.mem_map.2 ⟨c, hc, rfl⟩)
    have hlength' : values.length = columns.length := by simpa using hlength
    rcases List.sublist_cons_iff.1 hsub with hskip | ⟨identity, rfl, hnext⟩
    · obtain ⟨cells, hcells, hwidth, hwalk⟩ := ih hskip hrest hlength'
      have hc : c ∉ identity := fun hc => hfresh (hskip.subset hc)
      refine ⟨cells, by simpa [hc] using hcells, hwidth, ?_⟩
      rw [List.zip_cons_cons, identityKeyValues.eq_def]
      simpa [isNextIdentity_eq_false hskip hnodup] using hwalk
    · obtain ⟨cells, hcells, hwidth, hwalk⟩ := ih hnext hrest hlength'
      refine ⟨value :: cells, ?_, by simpa using hwidth, ?_⟩
      · have hother : (columns.zip values).filter (fun p => p.1 ∈ c :: identity) =
            (columns.zip values).filter fun p => p.1 ∈ identity := by
          refine List.filter_congr fun p hp => ?_
          have hne : p.1 ≠ c := by
            rintro rfl
            exact hfresh (List.of_mem_zip hp).1
          simp [hne]
        rw [List.zip_cons_cons, List.filter_cons, if_pos (by simp), hother, List.map_cons, hcells]
      · rw [List.zip_cons_cons, identityKeyValues.eq_def]
        simp only [isNextIdentity, List.head?_cons, Option.any_some, decide_true, if_true, hwalk]
        rfl

lemma deleteKeyValues_eq {schema : ReplicatedTableSchema} (hwf : schema.WellFormed)
    (hidentity : schema.identityColumnSchemas ≠ []) {row : DeletePredicateRowRef}
    (hrow : row.Fits schema) :
    (row.identityCells schema).length = schema.identityColumnSchemas.length ∧
      deleteKeyValues schema row =
        .ok (schema.identityColumnSchemas.zip (row.identityCells schema)) := by
  have hwidth := hrow.width
  cases row with
  | key values =>
    simpa [deleteKeyValues, hidentity, DeletePredicateRowRef.identityCells] using hwidth
  | full values =>
    obtain ⟨cells, rfl, hlength, hwalk⟩ := identityKeyValues_zip
      (@ReplicatedTableSchema.identityColumnSchemas_sublist schema)
      hwf.nodup_columnSchemas hwidth
    simp only at hwidth
    exact ⟨hlength, by
      simpa [deleteKeyValues, hidentity, hwidth, DeletePredicateRowRef.identityCells] using hwalk⟩

lemma deleteKeyComponents_eq {schema : ReplicatedTableSchema} (hwf : schema.WellFormed)
    (hidentity : schema.identityColumnSchemas ≠ []) {row : DeletePredicateRowRef}
    (hrow : row.Fits schema) :
    deleteKeyComponents schema row = .ok ((row.identityCells schema).map .fromCell) := by
  obtain ⟨hwidth, hvalues⟩ := deleteKeyValues_eq hwf hidentity hrow
  have hcells : (schema.identityColumnSchemas.zip (row.identityCells schema)).map Prod.snd =
      row.identityCells schema := List.map_snd_zip hwidth.le
  rw [deleteKeyComponents, hvalues]
  conv_rhs => rw [← hcells, List.map_map]
  rfl

lemma Cell.HasType.exists_value {cell : Cell} {typ : PgType} (h : cell.HasType typ)
    (htyp : postgresTypeToString typ ∈ canonicalTypes) : ∃ value, cell.value? = some value := by
  obtain rfl | ⟨-, value, rfl⟩ | ⟨-, value, rfl⟩ | ⟨-, value, rfl⟩ | ⟨-, bits, rfl⟩ | hother := h
  · exact ⟨_, rfl⟩
  · exact ⟨_, rfl⟩
  · exact ⟨_, rfl⟩
  · exact ⟨_, rfl⟩
  · exact ⟨_, rfl⟩
  · exact absurd htyp hother

/-! ## What the clause selects -/

lemma foldr_sqlAnd_eq_true_iff (truths : List (Option Bool)) :
    truths.foldr sqlAnd (some true) = some true ↔ ∀ truth ∈ truths, truth = some true := by
  induction truths with
  | nil => simp
  | cons truth truths ih =>
    rw [List.foldr_cons, List.forall_mem_cons, ← ih]
    rcases truth with _ | _ | _ <;>
      rcases truths.foldr sqlAnd (some true) with _ | _ | _ <;> simp [sqlAnd]

lemma forall_lookup_zip_iff {columns : List String} {values : List SqlValue}
    (hnodup : columns.Nodup) (hlength : values.length = columns.length)
    (target : String → SqlValue) :
    (∀ column ∈ columns, (columns.zip values).lookup column = some (target column)) ↔
      values = columns.map target := by
  induction columns generalizing values with
  | nil => simpa using hlength
  | cons c columns ih =>
    obtain ⟨value, values, rfl⟩ := List.exists_cons_of_length_eq_add_one hlength
    obtain ⟨hfresh, hrest⟩ := List.nodup_cons.1 hnodup
    have hlookup : ∀ column ∈ columns, ((c :: columns).zip (value :: values)).lookup column =
        (columns.zip values).lookup column := by
      intro column hcolumn
      have hne : (column == c) = false := by
        rw [beq_eq_false_iff_ne]
        rintro rfl
        exact hfresh hcolumn
      simp [List.lookup_cons, hne]
    rw [List.forall_mem_cons, List.map_cons, List.cons.injEq, ← ih hrest (by simpa using hlength)]
    refine and_congr (by simp) (forall₂_congr fun column hcolumn => ?_)
    rw [hlookup column hcolumn]

namespace DeleteKeySet

variable {schema : ReplicatedTableSchema} {set : DeleteKeySet} {keys : List (List Cell)}

@[simp] lemma columns_clauseOf : set.clauseOf.columns = set.identityColumns := rfl

@[simp] lemma keys_clauseOf : set.clauseOf.keys = set.keys := rfl

lemma Holds.takeClause (h : set.Holds schema keys) (hne : keys ≠ []) :
    set.takeClause = (some set.clauseOf, new schema) := by
  have hnew := h.tidy.takeClause
  have hkeys : set.keys.isEmpty = false := by
    rw [h.keys_eq]
    simpa using hne
  rw [DeleteKeySet.takeClause, if_neg (by simp [hkeys])] at hnew ⊢
  exact Prod.ext rfl hnew

lemma Holds.eval_range (h : set.Holds schema keys) {key : List Cell} (hkey : key ∈ keys)
    {target : String → SqlValue}
    (hmatch : key.map Cell.value? = set.identityColumns.map (some ∘ target))
    {bindings : List (String × SqlValue)} {p : String × ColumnBound}
    (hp : p ∈ set.identityColumns.zip set.bounds) {predicate : KeyPredicate}
    (hpredicate : predicate ∈ rangePredicates p.1 p.2) :
    predicate.eval target bindings = some true := by
  obtain ⟨i, hi, hget⟩ := List.mem_iff_getElem.1 hp
  obtain ⟨column, bound⟩ := p
  have hcolumn : set.identityColumns[i]? = some column := by
    simp at hi hget
    simp [hget.1.symm, hi.1]
  have hbound : set.bounds[i]? = some bound := by
    simp at hi hget
    simp [hget.2.symm, hi.2]
  have hcell : (key[i]?).map Cell.value? = some (some (target column)) := by
    have hat := congrArg (·[i]?) hmatch
    simpa [hcolumn] using hat
  obtain ⟨cell, hget', hvalue⟩ := Option.map_eq_some_iff.1 hcell
  have hbrackets := h.brackets i bound hbound
  cases bound with
  | unset => simp [rangePredicates] at hpredicate
  | disabled => simp [rangePredicates] at hpredicate
  | range min max =>
    obtain ⟨hmin, hmax, hcells⟩ := hbrackets
    obtain ⟨value, hvalue', hge, hle⟩ := hcells cell (List.mem_filterMap.2 ⟨key, hkey, hget'⟩)
    obtain rfl : value = target column := Option.some.inj (hvalue'.symm.trans hvalue)
    simp only [rangePredicates, List.mem_cons, List.not_mem_nil, or_false] at hpredicate
    rcases hpredicate with rfl | rfl
    · simpa [KeyPredicate.eval, hmin] using hge
    · simpa [KeyPredicate.eval, hmax] using hle

lemma Holds.joins_clauseOf (h : set.Holds schema keys)
    (hnames : (schema.identityColumnSchemas.map ducklakeColumnName).Nodup) {key : List Cell}
    (hkey : key ∈ keys) (hlength : key.length = schema.identityColumnSchemas.length)
    (hcells : ∀ cell ∈ key, ∃ value, cell.value? = some value) (target : String → SqlValue) :
    set.clauseOf.joins target (key.map cellToSqlLiteral) ↔
      key.map Cell.value? = set.identityColumns.map (some ∘ target) := by
  have hcolumns := h.tidy.identityColumns
  have hvalue : ∀ cell ∈ key, cell.value? = some (cell.value?.getD .null) := by
    intro cell hcell
    obtain ⟨value, hvalue⟩ := hcells cell hcell
    simp [hvalue]
  have hmap : key.map Cell.value? = (key.map fun cell => cell.value?.getD .null).map some := by
    rw [List.map_map]
    exact List.map_congr_left hvalue
  have hread : (key.map cellToSqlLiteral).mapM SqlValue.readLiteral? =
      some (key.map fun cell => cell.value?.getD .null) := by
    rw [List.mapM_map]
    exact Option.mapM_eq_some_map fun cell hcell =>
      readLiteral?_cellToSqlLiteral (hvalue cell hcell)
  have hlookup := @forall_lookup_zip_iff set.identityColumns
    (key.map fun cell => cell.value?.getD .null) (hcolumns ▸ hnames) (by simp [hlength, hcolumns])
    target
  have hsame : key.map Cell.value? = set.identityColumns.map (some ∘ target) ↔
      (key.map fun cell => cell.value?.getD .null) = set.identityColumns.map target := by
    rw [hmap, ← List.map_map]
    exact (List.map_injective_iff.2 (Option.some_injective _)).eq_iff
  rw [Clause.joins, hread, columns_clauseOf]
  simp only [decide_eq_true_eq, foldr_sqlAnd_eq_true_iff, List.forall_mem_map]
  rw [hsame, ← hlookup]
  constructor
  · intro hall column hcolumn
    have hone := hall (.isNotDistinctFrom column)
      (List.mem_append_left _ (List.mem_map_of_mem hcolumn))
    simpa only [KeyPredicate.eval, Option.some.injEq, decide_eq_true_eq] using hone
  · intro hall predicate hpredicate
    rcases List.mem_append.1 hpredicate with hjoin | hrange
    · obtain ⟨column, hcolumn, rfl⟩ := List.mem_map.1 hjoin
      simpa only [KeyPredicate.eval, Option.some.injEq, decide_eq_true_eq] using hall column hcolumn
    · obtain ⟨p, hp, hmem⟩ := List.mem_flatMap.1 hrange
      exact h.eval_range hkey (hsame.2 (hlookup.1 hall)) hp hmem

lemma Holds.selects_clauseOf (h : set.Holds schema keys)
    (hnames : (schema.identityColumnSchemas.map ducklakeColumnName).Nodup)
    (hlength : ∀ key ∈ keys, key.length = schema.identityColumnSchemas.length)
    (hcells : ∀ key ∈ keys, ∀ cell ∈ key, ∃ value, cell.value? = some value)
    (target : String → SqlValue) :
    set.clauseOf.selects target ↔ ∃ key ∈ keys, key.map Cell.value? =
      schema.identityColumnSchemas.map fun column => some (target (ducklakeColumnName column)) := by
  have hcolumns : set.identityColumns.map (some ∘ target) =
      schema.identityColumnSchemas.map fun column => some (target (ducklakeColumnName column)) := by
    rw [h.tidy.identityColumns, List.map_map]
    rfl
  rw [Clause.selects, keys_clauseOf, h.keys_eq, List.any_map, List.any_eq_true]
  refine exists_congr fun key => and_congr_right fun hkey => ?_
  rw [Function.comp_apply, h.joins_clauseOf hnames hkey (hlength key hkey) (hcells key hkey) target,
    hcolumns]

/-- The clause taken from a key set selects exactly the rows whose identity columns have the values
of the identity columns of a pushed row, NULL being equal to itself, and what was pushed and taken
before does not matter. -/
theorem takeClause_selects (hwf : schema.WellFormed) (hcanonical : hasCanonicalIdentity schema)
    (hnames : (schema.identityColumnSchemas.map ducklakeColumnName).Nodup) (history : List Use)
    {rows : List DeletePredicateRowRef} (hne : rows ≠ []) (hrows : ∀ row ∈ rows, row.Fits schema) :
    ∃ pushed clause, rows.mapM (deleteKeyComponents schema) = .ok pushed ∧
      (((new schema).after history).takeClause.2.pushAll pushed).takeClause =
        (some clause, new schema) ∧
      ((new schema).pushAll pushed).takeClause = (some clause, new schema) ∧
      ∀ target : String → SqlValue, clause.selects target ↔
        ∃ row ∈ rows, (row.identityCells schema).map Cell.value? =
          schema.identityColumnSchemas.map fun column =>
            some (target (ducklakeColumnName column)) := by
  obtain ⟨hidentity, htypes⟩ : schema.identityColumnSchemas ≠ [] ∧
      ∀ column ∈ schema.identityColumnSchemas,
        postgresTypeToString column.typ ∈ canonicalTypes := by
    simpa [hasCanonicalIdentity] using hcanonical
  let keys := rows.map (·.identityCells schema)
  have hlength : ∀ key ∈ keys, key.length = schema.identityColumnSchemas.length := by
    intro key hkey
    obtain ⟨row, hrow, rfl⟩ := List.mem_map.1 hkey
    exact (deleteKeyValues_eq hwf hidentity (hrows row hrow)).1
  have hcells : ∀ key ∈ keys, ∀ cell ∈ key, ∃ value, cell.value? = some value := by
    intro key hkey cell hcell
    obtain ⟨row, hrow, rfl⟩ := List.mem_map.1 hkey
    obtain ⟨i, hi, rfl⟩ := List.mem_iff_getElem.1 hcell
    have hi' : i < schema.identityColumnSchemas.length := by rwa [← hlength _ hkey]
    have htyped := (hrows row hrow).hasType
      (schema.identityColumnSchemas[i], (row.identityCells schema)[i])
      (List.mem_iff_getElem.2 ⟨i, by simp [hi, hi'], by simp⟩)
    exact htyped.exists_value (htypes _ (List.getElem_mem hi'))
  have hpushed : rows.mapM (deleteKeyComponents schema) = .ok (keys.map (·.map .fromCell)) := by
    rw [Except.mapM_eq_ok_iff, List.map_map]
    refine List.forall₂_map_right_iff.2 (List.forall₂_same.2 fun row hrow => ?_)
    exact deleteKeyComponents_eq hwf hidentity (hrows row hrow)
  have hholds : ((new schema).pushAll (keys.map (·.map .fromCell))).Holds schema keys := by
    simpa using holds_new.pushAll hlength
  have htake := hholds.takeClause (by simpa [keys] using hne)
  refine ⟨_, _, hpushed, ?_, htake, fun target => ?_⟩
  · rw [(tidy_new.after history).takeClause, htake]
  · rw [hholds.selects_clauseOf hnames hlength hcells]
    simp only [keys, List.mem_map, exists_exists_and_eq_and]

def tracesSchema : ReplicatedTableSchema where
  tableSchema :=
    { id := 1, name := ⟨"public", "traces"⟩,
      columnSchemas :=
        [⟨"Tenant", .mapped "INT4" (by simp [typeNames]), -1, 1, none, true, none⟩,
         ⟨"trace_id", .mapped "UUID" (by simp [typeNames]), -1, 2, none, false, none⟩,
         ⟨"payload", .text, -1, 3, none, true, none⟩],
      snapshotId := ⟨0, 0⟩ }
  replicationMask := ⟨[1, 1, 1]⟩
  identityMask := ⟨[1, 1, 0]⟩

theorem takeClause_selects_null : ∃ pushed clause,
    [.key [.null, .uuid 7], .full [.i32 5, .uuid 9, .null]].mapM
      (deleteKeyComponents tracesSchema) = .ok pushed ∧
    (((new tracesSchema).after [.push [], .take]).takeClause.2.pushAll pushed).takeClause =
      (some clause, new tracesSchema) ∧
    clause.selects (fun column => if column = "tenant" then .null else .uuid 7) ∧
    ¬ clause.selects (fun column => if column = "tenant" then .null else .uuid 9) := by
  have hcells : DeletePredicateRowRef.identityCells tracesSchema
      (.full [.i32 5, .uuid 9, .null]) = [.i32 5, .uuid 9] := by decide
  obtain ⟨pushed, clause, hpushed, htake, -, hselects⟩ := @takeClause_selects
    tracesSchema ⟨rfl, rfl, by decide⟩ (by decide) (by decide) [.push [], .take]
    [.key [.null, .uuid 7], .full [.i32 5, .uuid 9, .null]] (by simp) (by
      intro row hrow
      simp only [List.mem_cons, List.not_mem_nil, or_false] at hrow
      rcases hrow with rfl | rfl
      · exact ⟨rfl, List.forall_mem_cons.2 ⟨.inl rfl, List.forall_mem_cons.2
          ⟨.inr (.inr (.inr (.inr (.inl ⟨rfl, 7, rfl⟩)))), by simp⟩⟩⟩
      · refine ⟨rfl, ?_⟩
        rw [hcells]
        exact List.forall_mem_cons.2 ⟨.inr (.inr (.inl ⟨rfl, 5, rfl⟩)), List.forall_mem_cons.2
          ⟨.inr (.inr (.inr (.inr (.inl ⟨rfl, 9, rfl⟩)))), by simp⟩⟩)
  refine ⟨pushed, clause, hpushed, htake, (hselects _).2 (by decide), ?_⟩
  rw [hselects]
  decide

end DeleteKeySet

end Etl.DuckLake
