import Mathlib
import Etl.Lib.OrderedMap
import Etl.Lib.Text
import Etl.SchemaDiff

/-!
# Schema change plans

Columns are dropped, renamed, added and altered, in this order. A rename is ready once its new name
is free; when none is, one of the waiting columns moves out of the way under a temporary name.
`planSchemaChange_converges` says that a plan is always found and leads to the new columns.
-/

namespace Etl

/-! ## Operations -/

inductive ColumnAlterationKind where
  | rename
  | type
  | nullability
  | default
deriving DecidableEq

structure ColumnAlteration where
  beforeColumnSchema : ColumnSchema
  afterColumnSchema : ColumnSchema
  kind : ColumnAlterationKind
deriving DecidableEq

/-- The state `ColumnAlteration::new` expects after an alteration. -/
def ColumnAlteration.expectedAfter (alteration : ColumnAlteration) : ColumnSchema :=
  match alteration.kind with
  | .rename => { alteration.beforeColumnSchema with name := alteration.afterColumnSchema.name }
  | .type => { alteration.beforeColumnSchema with
      typ := alteration.afterColumnSchema.typ
      modifier := alteration.afterColumnSchema.modifier }
  | .nullability => { alteration.beforeColumnSchema with
      nullable := alteration.afterColumnSchema.nullable }
  | .default => { alteration.beforeColumnSchema with
      defaultExpression := alteration.afterColumnSchema.defaultExpression }

def ColumnAlteration.isValid (alteration : ColumnAlteration) : Bool :=
  alteration.beforeColumnSchema.ordinalPosition = alteration.afterColumnSchema.ordinalPosition &&
    alteration.beforeColumnSchema ≠ alteration.afterColumnSchema &&
    alteration.expectedAfter = alteration.afterColumnSchema

inductive SchemaOperation where
  | dropColumn (beforeColumnSchema : ColumnSchema) (reason : ColumnPresenceChangeReason)
  | addColumn (afterColumnSchema : ColumnSchema) (reason : ColumnPresenceChangeReason)
  | alterColumn (alteration : ColumnAlteration)
deriving DecidableEq

inductive SchemaEndpoint where
  | before
  | after
deriving DecidableEq

inductive SchemaPlanError where
  | destinationColumnNameCollision (endpoint : SchemaEndpoint) (columnNameMapping : ColumnNameMapping)
      (firstColumnName secondColumnName : String)
  | blockedRenameAfterName (beforeColumnName afterColumnName : String)
  | readyRenameNotPending (ordinalPosition : Int)
deriving DecidableEq

/-! ## Planning -/

def collectUniqueColumnNames (rules : NameRules) (endpoint : SchemaEndpoint) :
    List String → OrderedMap String String → Except SchemaPlanError (OrderedMap String String)
  | [], sourceNameByDestinationName => .ok sourceNameByDestinationName
  | columnName :: rest, sourceNameByDestinationName =>
    match sourceNameByDestinationName.get? (rules.mapName columnName) with
    | some firstColumnName =>
      .error (.destinationColumnNameCollision endpoint rules.mapping firstColumnName columnName)
    | none =>
      collectUniqueColumnNames rules endpoint rest
        (sourceNameByDestinationName.insert (rules.mapName columnName) columnName)

structure SchemaOperationPlanner where
  operations : List SchemaOperation
  occupiedDestinationNames : Finset String
  reservedDestinationNames : Finset String

/-- `SchemaPlanNamespaces::from_column_names` and `SchemaOperationPlanner::new`. -/
def SchemaOperationPlanner.new (rules : NameRules) (beforeColumnNames afterColumnNames : List String) :
    Except SchemaPlanError SchemaOperationPlanner := do
  let beforeNames ← collectUniqueColumnNames rules .before beforeColumnNames .empty
  let afterNames ← collectUniqueColumnNames rules .after afterColumnNames .empty
  return ⟨[], beforeNames.keys.toFinset, beforeNames.keys.toFinset ∪ afterNames.keys.toFinset⟩

structure PendingRename where
  beforeColumnSchema : ColumnSchema
  afterName : String
deriving DecidableEq

structure RenameState where
  planner : SchemaOperationPlanner
  pendingRenames : OrderedMap Int PendingRename
  readyRenames : OrderedMap Int Unit
  temporaryNameSequence : Nat

def ddlTemporaryColumnPrefix : String := "supabase_etl_ddl_tmp_column_"

def temporaryName (ordinalPosition : Int) (sequence : Nat) : String :=
  ddlTemporaryColumnPrefix ++ toString ordinalPosition ++ "_" ++
    String.ofList (Text.render 10 sequence)

/-- The first candidate that is not reserved, and the next sequence number. -/
def nextTemporaryName (reserved : Finset String) (ordinalPosition : Int) :
    Nat → Nat → String × Nat
  | 0, sequence => (temporaryName ordinalPosition sequence, sequence + 1)
  | attempts + 1, sequence =>
    if temporaryName ordinalPosition sequence ∈ reserved then
      nextTemporaryName reserved ordinalPosition attempts (sequence + 1)
    else (temporaryName ordinalPosition sequence, sequence + 1)

namespace SchemaOperationPlanner

variable (rules : NameRules)

def push (planner : SchemaOperationPlanner) (operation : SchemaOperation) : SchemaOperationPlanner :=
  { planner with operations := planner.operations ++ [operation] }

def pushAlteration (planner : SchemaOperationPlanner) (before after : ColumnSchema)
    (kind : ColumnAlterationKind) : SchemaOperationPlanner :=
  planner.push (.alterColumn ⟨before, after, kind⟩)

def planDrops (planner : SchemaOperationPlanner) : List ColumnRemoval → SchemaOperationPlanner
  | [] => planner
  | change :: rest =>
    let before := rules.mapColumnSchema change.beforeColumnSchema
    planDrops
      { planner.push (.dropColumn before change.reason) with
        occupiedDestinationNames := planner.occupiedDestinationNames.erase before.name } rest

def collectRenames : List ColumnMetadataChange → OrderedMap Int PendingRename →
    OrderedMap String Int → OrderedMap Int PendingRename × OrderedMap String Int
  | [], pending, waiting => (pending, waiting)
  | change :: rest, pending, waiting =>
    if !change.nameChanged ||
        rules.equivalent change.beforeColumnSchema.name change.afterColumnSchema.name then
      collectRenames rest pending waiting
    else
      let ordinalPosition := change.beforeColumnSchema.ordinalPosition
      let afterName := rules.mapName change.afterColumnSchema.name
      collectRenames rest
        (pending.insert ordinalPosition
          ⟨rules.mapColumnSchema change.beforeColumnSchema, afterName⟩)
        (waiting.insert afterName ordinalPosition)

def emitReady (waiting : OrderedMap String Int) (st : RenameState) (ordinalPosition : Int) :
    Except SchemaPlanError RenameState :=
  let ready := st.readyRenames.erase ordinalPosition
  match st.pendingRenames.get? ordinalPosition with
  | none => .error (.readyRenameNotPending ordinalPosition)
  | some rename =>
    let pending := st.pendingRenames.erase ordinalPosition
    let before := rename.beforeColumnSchema
    let planner := st.planner.pushAlteration before { before with name := rename.afterName } .rename
    .ok
      { st with
        planner := { planner with
          occupiedDestinationNames :=
            insert rename.afterName (planner.occupiedDestinationNames.erase before.name) }
        pendingRenames := pending
        readyRenames :=
          match waiting.get? before.name with
          | some waitingOrdinal =>
            if (pending.get? waitingOrdinal).isSome then ready.insert waitingOrdinal () else ready
          | none => ready }

def breakCycle (waiting : OrderedMap String Int) (st : RenameState) (ordinalPosition : Int)
    (rename : PendingRename) : Except SchemaPlanError RenameState :=
  let before := rename.beforeColumnSchema
  if st.pendingRenames.entries.any fun entry =>
      entry.2.beforeColumnSchema.name = rename.afterName then
    let reserved := st.planner.reservedDestinationNames
    let (name, sequence) :=
      nextTemporaryName reserved ordinalPosition reserved.card st.temporaryNameSequence
    let temporary := { before with name := name }
    let planner := st.planner.pushAlteration before temporary .rename
    .ok
      { planner := { planner with
          occupiedDestinationNames :=
            insert name (planner.occupiedDestinationNames.erase before.name)
          reservedDestinationNames := insert name reserved }
        pendingRenames := st.pendingRenames.insert ordinalPosition ⟨temporary, rename.afterName⟩
        readyRenames :=
          match waiting.get? before.name with
          | some waitingOrdinal => st.readyRenames.insert waitingOrdinal ()
          | none => st.readyRenames
        temporaryNameSequence := sequence }
  else .error (.blockedRenameAfterName before.name rename.afterName)

def renameRound (waiting : OrderedMap String Int) (st : RenameState) :
    Except SchemaPlanError RenameState :=
  match st.readyRenames.entries, st.pendingRenames.entries with
  | (ordinalPosition, _) :: _, _ => emitReady waiting st ordinalPosition
  | [], (ordinalPosition, rename) :: _ => breakCycle waiting st ordinalPosition rename
  | [], [] => .ok st

/-- `none` if the loop has not ended after this many rounds. -/
def renameLoop (waiting : OrderedMap String Int) :
    Nat → RenameState → Option (Except SchemaPlanError RenameState)
  | rounds, st =>
    if st.pendingRenames.entries.isEmpty then some (.ok st)
    else
      match rounds with
      | 0 => none
      | rounds + 1 =>
        match renameRound waiting st with
        | .error e => some (.error e)
        | .ok st' => renameLoop waiting rounds st'

def planRenames (rounds : Nat) (planner : SchemaOperationPlanner)
    (alteredColumns : List ColumnMetadataChange) :
    Option (Except SchemaPlanError SchemaOperationPlanner) :=
  let (pending, waiting) := collectRenames rules alteredColumns .empty .empty
  let ready := (pending.retain fun _ rename =>
    rename.afterName ∉ planner.occupiedDestinationNames).mapValues fun _ _ => ()
  (renameLoop waiting rounds ⟨planner, pending, ready, 0⟩).map (·.map (·.planner))

def planAdditions (planner : SchemaOperationPlanner) (addedColumns : List ColumnAddition) :
    SchemaOperationPlanner :=
  { planner with
    operations := planner.operations ++ addedColumns.map fun change =>
      .addColumn (rules.mapColumnSchema change.afterColumnSchema) change.reason }

def columnSchemaAfterRenames (change : ColumnMetadataChange) : ColumnSchema :=
  { rules.mapColumnSchema change.beforeColumnSchema with
    name := rules.mapName change.afterColumnSchema.name }

def alterationsOf (change : ColumnMetadataChange) (before : ColumnSchema) : List ColumnAlteration :=
  let after := rules.mapColumnSchema change.afterColumnSchema
  let typed := { before with typ := after.typ, modifier := after.modifier }
  let before₁ := if change.dataTypeChanged then typed else before
  let nulled := { before₁ with nullable := after.nullable }
  let before₂ := if change.nullabilityChanged then nulled else before₁
  (if change.dataTypeChanged then [⟨before, typed, .type⟩] else []) ++
    (if change.nullabilityChanged then [⟨before₁, nulled, .nullability⟩] else []) ++
    (if change.defaultChanged then
      [⟨before₂, { before₂ with defaultExpression := after.defaultExpression }, .default⟩] else [])

def planAlterations (planner : SchemaOperationPlanner)
    (alteredColumns : List ColumnMetadataChange) : SchemaOperationPlanner :=
  { planner with
    operations := planner.operations ++ alteredColumns.flatMap fun change =>
      (alterationsOf rules change (columnSchemaAfterRenames rules change)).map .alterColumn }

def plan (rounds : Nat) (planner : SchemaOperationPlanner) (diff : SchemaDiff) :
    Option (Except SchemaPlanError (List SchemaOperation)) :=
  (planRenames rules rounds (planner.planDrops rules diff.droppedColumns) diff.alteredColumns).map
    (·.map fun planner =>
      ((planner.planAdditions rules diff.addedColumns).planAlterations rules
        diff.alteredColumns).operations)

end SchemaOperationPlanner

structure SchemaPlan where
  diff : SchemaDiff
  orderedOperations : List SchemaOperation
  columnNameMapping : ColumnNameMapping
deriving DecidableEq

/-- `plan_schema_change`, with a bound on the rounds of the rename loop. -/
def planSchemaChange (rules : NameRules) (rounds : Nat) (before after : ReplicatedTableSchema) :
    Option (Except SchemaPlanError SchemaPlan) :=
  let diff := before.diff after
  match SchemaOperationPlanner.new rules (before.columnSchemas.map (·.name))
      (after.columnSchemas.map (·.name)) with
  | .error e => some (.error e)
  | .ok planner =>
    (planner.plan rules rounds diff).map
      (·.map fun operations => ⟨diff, operations, rules.mapping⟩)

def renameAlterations (operations : List SchemaOperation) : List ColumnAlteration :=
  operations.filterMap fun
    | .alterColumn alteration => if alteration.kind = .rename then some alteration else none
    | _ => none

/-- More renames were planned than the two versions need. -/
def SchemaPlan.hasRenameCycles (toLowercase : String → String) (plan : SchemaPlan) : Bool :=
  let rules : NameRules := ⟨plan.columnNameMapping, toLowercase⟩
  let endpointRenameCount := (plan.diff.alteredColumns.filter fun change =>
    change.nameChanged &&
      !rules.equivalent change.beforeColumnSchema.name change.afterColumnSchema.name).length
  let plannedRenameCount := (renameAlterations plan.orderedOperations).length
  endpointRenameCount < plannedRenameCount

/-! ## Execution -/

abbrev Columns := OrderedMap Int ColumnSchema

namespace Columns

def names (columns : Columns) : Finset String := (columns.entries.map (·.2.name)).toFinset

/-- `none` if the column is not there in the expected state, or a new name is taken. -/
def apply (columns : Columns) : SchemaOperation → Option Columns
  | .dropColumn before _ =>
    if columns.get? before.ordinalPosition = some before then
      some (columns.erase before.ordinalPosition)
    else none
  | .addColumn after _ =>
    if columns.get? after.ordinalPosition = none ∧ after.name ∉ columns.names then
      some (columns.insert after.ordinalPosition after)
    else none
  | .alterColumn alteration =>
    let before := alteration.beforeColumnSchema
    let after := alteration.afterColumnSchema
    if alteration.isValid ∧ columns.get? before.ordinalPosition = some before ∧
        (alteration.kind = .rename → after.name ∉ columns.names) then
      some (columns.insert after.ordinalPosition after)
    else none

def applyAll (columns : Columns) (operations : List SchemaOperation) : Option Columns :=
  operations.foldlM apply columns

/-- Without the position in the primary key, which no operation changes. -/
def withoutKeys (columns : Columns) : Columns :=
  columns.mapValues fun _ column => { column with primaryKeyOrdinalPosition := none }

end Columns

def ReplicatedTableSchema.destinationColumns (rules : NameRules) (schema : ReplicatedTableSchema) :
    Columns :=
  schema.columnSchemas.foldl
    (fun columns column => columns.insert column.ordinalPosition (rules.mapColumnSchema column))
    .empty

end Etl
