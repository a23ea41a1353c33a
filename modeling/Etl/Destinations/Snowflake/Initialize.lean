import Etl.Destinations.TableName
import Etl.SchemaPlan
import Etl.Store.StateStore

/-!
# Setting up Snowflake tables

The destination records that it creates a table, creates it, opens a channel and records that it is
ready. Calls for one source table take turns. Table names are in upper case, so two source tables
may ask for one Snowflake table. `advance` is what a call does up to its next await; the results are
about every interleaving, with errors, cancelled calls and restarts.
-/

namespace Etl.Snowflake

/-! ## Names and columns -/

/-- Character by character; `special` is the mapping outside ASCII. -/
def toUppercase (special : Char → List Char) (s : String) : String :=
  String.ofList (s.toList.flatMap fun c => if c.toNat < 128 then [c.toUpper] else special c)

def snowflakeTableName (special : Char → List Char) (tableName : TableName) :
    Except EtlError String := do
  return toUppercase special (← tryStringifyTableName tableName)

def validateDestinationColumnNames (columnNames : List String) : Except EtlError Unit :=
  match collectUniqueColumnNames ⟨.identity, id⟩ .after columnNames .empty with
  | .error _ => .error ⟨.sourceSchemaError, "Source column names collide in the destination"⟩
  | .ok _ => .ok ()

def cdcOperationColumn : String := "_cdc_operation"

def cdcSequenceColumn : String := "_cdc_sequence_number"

def validateNoCdcCollisions (columnNames : List String) : Except EtlError Unit :=
  if columnNames.any fun name => name = cdcOperationColumn ∨ name = cdcSequenceColumn then
    .error ⟨.configError, "Snowflake configuration error"⟩
  else .ok ()

def tableColumnNames (columnNames : List String) : List String :=
  columnNames ++ [cdcOperationColumn, cdcSequenceColumn]

def validateColumnNames (expected actual : List String) : Except EtlError Unit :=
  if expected ⊆ actual ∧ actual ⊆ expected then .ok ()
  else .error ⟨.corruptedTableSchema, "Snowflake table schema is incompatible"⟩

end Etl.Snowflake

namespace Etl.DestinationTableMetadata

def replicationMask (metadata : DestinationTableMetadata) : ReplicationMask :=
  match metadata.tableSchema with
  | .creating _ replicationMask => replicationMask
  | .applying _ replicationMask _ _ => replicationMask
  | .applied _ replicationMask => replicationMask

def isApplied (metadata : DestinationTableMetadata) : Bool :=
  match metadata.tableSchema with
  | .applied _ _ => true
  | _ => false

def isCreating (metadata : DestinationTableMetadata) : Bool :=
  match metadata.tableSchema with
  | .creating _ _ => true
  | _ => false

def toApplied (metadata : DestinationTableMetadata) : DestinationTableMetadata :=
  { metadata with tableSchema := .applied metadata.snapshotId metadata.replicationMask }

def ensureMatches (metadata : DestinationTableMetadata) (schema : ReplicatedTableSchema) :
    Except EtlError Unit :=
  if metadata.snapshotId = schema.tableSchema.snapshotId ∧
      metadata.replicationMask = schema.replicationMask then .ok ()
  else
    .error ⟨.destinationSchemaRewind, "Destination metadata does not match the received schema"⟩

def newCreating (tableId : String) (schema : ReplicatedTableSchema) : DestinationTableMetadata :=
  ⟨tableId, .creating schema.tableSchema.snapshotId schema.replicationMask⟩

end Etl.DestinationTableMetadata

namespace Etl.Snowflake

/-! ## Calls -/

inductive Purpose where
  | create (metadata : DestinationTableMetadata)
  | existing (tableName : String)

def Purpose.tableName (current : String) : Purpose → String
  | .create _ => current
  | .existing tableName => tableName

inductive Phase where
  /-- For the metadata, before the gate. -/
  | reading
  | waiting
  /-- For the metadata, behind the gate. -/
  | gated
  | probing
  | recording
  | preparing (purpose : Purpose)
  | locking (purpose : Purpose)
  | creating (metadata : DestinationTableMetadata)
  | validating (purpose : Purpose)
  | opening (purpose : Purpose)
  | publishing (metadata : DestinationTableMetadata)
  | returned (result : Except EtlError Unit)

structure Call where
  tableId : TableId
  tableName : String
  phase : Phase

/-- An await that ends with an error, and whether the request took effect all the same. -/
structure Fault where
  error : EtlError
  landed : Bool

structure World where
  metadata : TableId → Option DestinationTableMetadata
  tables : String → Option (List String)
  /-- The tables with a cached channel. -/
  channels : TableId → Bool
  /-- The call that holds the gate. -/
  gates : TableId → Option Nat
  /-- The call with the write lock of `channels`. -/
  writer : Option Nat
  calls : Nat → Option Call

namespace World

section

variable (world : World) (i : Nat) (call : Call)

def setPhase (phase : Phase) : World :=
  { world with calls := Function.update world.calls i (some { call with phase := phase }) }

def release : World :=
  { world with
    gates := fun tableId => if world.gates tableId = some i then none else world.gates tableId
    writer := if world.writer = some i then none else world.writer }

def finish (result : Except EtlError Unit) : World :=
  (world.release i).setPhase i call (.returned result)

def check (result : Except EtlError Unit) (phase : Phase) : World :=
  match result with
  | .error error => world.finish i call (.error error)
  | .ok () => world.setPhase i call phase

def prepared : Purpose → World
  | .create metadata => world.setPhase i call (.publishing metadata)
  | .existing _ => world.finish i call (.ok ())

def setMetadata (tableId : TableId) (metadata : DestinationTableMetadata) : World :=
  { world with metadata := Function.update world.metadata tableId (some metadata) }

def createTable (tableName : String) (columnNames : List String) : World :=
  { world with
    tables := Function.update world.tables tableName
      (some ((world.tables tableName).getD columnNames)) }

end

section

variable (schemas : TableId → ReplicatedTableSchema)

def columnNames (tableId : TableId) : List String :=
  (schemas tableId).columnSchemas.map (·.name)

variable (world : World) (i : Nat) (call : Call)

def proceed : Option DestinationTableMetadata → World
  | none => world.setPhase i call .probing
  | some metadata =>
    if metadata.isApplied then
      world.check i call (metadata.ensureMatches (schemas call.tableId))
        (.preparing (.existing metadata.tableId))
    else if metadata.isCreating then
      match metadata.ensureMatches (schemas call.tableId) with
      | .error error => world.finish i call (.error error)
      | .ok () =>
        if metadata.tableId ≠ call.tableName then
          world.finish i call (.error ⟨.corruptedTableSchema,
            "Interrupted Snowflake table setup metadata does not match current table"⟩)
        else world.setPhase i call (.preparing (.create metadata))
    else
      world.finish i call (.error ⟨.invalidState, "Snowflake table schema is still being applied"⟩)

def resume : World :=
  match call.phase with
  | .reading =>
    match world.metadata call.tableId with
    | some metadata =>
      if metadata.isApplied then
        world.check i call (metadata.ensureMatches (schemas call.tableId))
          (.preparing (.existing metadata.tableId))
      else world.setPhase i call .waiting
    | none => world.setPhase i call .waiting
  | .waiting =>
    match world.gates call.tableId with
    | some _ => world
    | none =>
      { world with gates := Function.update world.gates call.tableId (some i) }.check i call
        (validateNoCdcCollisions (columnNames schemas call.tableId)) .gated
  | .gated => world.proceed schemas i call (world.metadata call.tableId)
  | .probing =>
    match world.tables call.tableName with
    | some _ => world.finish i call (.error ⟨.destinationTableAlreadyExists,
        "Snowflake destination table already exists"⟩)
    | none => world.setPhase i call .recording
  | .recording =>
    let metadata := .newCreating call.tableName (schemas call.tableId)
    (world.setMetadata call.tableId metadata).setPhase i call (.preparing (.create metadata))
  | .preparing purpose =>
    if world.writer.isSome then world
    else if world.channels call.tableId then world.prepared i call purpose
    else world.setPhase i call (.locking purpose)
  | .locking purpose =>
    if world.writer.isSome then world
    else if world.channels call.tableId then world.prepared i call purpose
    else
      { world with writer := some i }.check i call
        (validateNoCdcCollisions (columnNames schemas call.tableId))
        (match purpose with
        | .create metadata => .creating metadata
        | .existing tableName => .validating (.existing tableName))
  | .creating metadata =>
    let columnNames := tableColumnNames (columnNames schemas call.tableId)
    (world.createTable call.tableName columnNames).setPhase i call (.validating (.create metadata))
  | .validating purpose =>
    match world.tables (purpose.tableName call.tableName) with
    | none => world.finish i call (.error ⟨.destinationError, "Snowflake SQL execution failed"⟩)
    | some actual =>
      world.check i call
        (validateColumnNames (tableColumnNames (columnNames schemas call.tableId)) actual)
        (.opening purpose)
  | .opening purpose =>
    { world with
      channels := Function.update world.channels call.tableId true
      writer := none }.prepared i call purpose
  | .publishing metadata =>
    (world.setMetadata call.tableId metadata.toApplied).finish i call (.ok ())
  | .returned _ => world

def effect : World :=
  match call.phase with
  | .recording =>
    world.setMetadata call.tableId (.newCreating call.tableName (schemas call.tableId))
  | .creating _ =>
    world.createTable call.tableName (tableColumnNames (columnNames schemas call.tableId))
  | .publishing metadata => world.setMetadata call.tableId metadata.toApplied
  | _ => world

def fail (fault : Fault) : World :=
  match call.phase with
  | .returned _ => world
  | _ =>
    (if fault.landed then world.effect schemas call else world).finish i call (.error fault.error)

def cancel (landed : Bool) : World :=
  let world := (if landed then world.effect schemas call else world).release i
  { world with calls := Function.update world.calls i none }

def begin (special : Char → List Char) (tableId : TableId) : World :=
  match validateDestinationColumnNames (columnNames schemas tableId) with
  | .error error => world.setPhase i ⟨tableId, "", .reading⟩ (.returned (.error error))
  | .ok () =>
    match snowflakeTableName special (schemas tableId).tableSchema.name with
    | .error error => world.setPhase i ⟨tableId, "", .reading⟩ (.returned (.error error))
    | .ok tableName => world.setPhase i ⟨tableId, tableName, .reading⟩ .reading

end

end World

inductive Move where
  | begin (i : Nat) (tableId : TableId)
  | advance (i : Nat)
  | fail (i : Nat) (fault : Fault)
  | cancel (i : Nat) (landed : Bool)
  /-- What is not stored is lost. -/
  | restart

section Runs

variable (special : Char → List Char) (schemas : TableId → ReplicatedTableSchema)
  (ids : Set TableId)

def World.step (world : World) : Move → World
  | .begin i tableId =>
    match world.calls i with
    | none => world.begin schemas i special tableId
    | some _ => world
  | .advance i =>
    match world.calls i with
    | none => world
    | some call => world.resume schemas i call
  | .fail i fault =>
    match world.calls i with
    | none => world
    | some call => world.fail schemas i call fault
  | .cancel i landed =>
    match world.calls i with
    | none => world
    | some call => world.cancel schemas i call landed
  | .restart =>
    ⟨world.metadata, world.tables, fun _ => false, fun _ => none, none, fun _ => none⟩

def Move.Within : Move → Prop
  | .begin _ tableId => tableId ∈ ids
  | _ => True

def World.initial (tables : String → Option (List String)) : World :=
  ⟨fun _ => none, tables, fun _ => false, fun _ => none, none, fun _ => none⟩

inductive World.Reachable : World → Prop where
  | initial (tables : String → Option (List String)) : Reachable (.initial tables)
  | step {world : World} (h : Reachable world) (move : Move) (hmove : move.Within ids) :
      Reachable (world.step special schemas move)

end Runs

def World.Exclusive (world : World) : Prop :=
  ∀ a b metadata metadata', a ≠ b → world.metadata a = some metadata →
    world.metadata b = some metadata' → metadata.isApplied → metadata'.isApplied →
    metadata.tableId ≠ metadata'.tableId

structure Admissible (special : Char → List Char) (schema : ReplicatedTableSchema)
    (tableName : String) : Prop where
  columns : validateDestinationColumnNames (schema.columnSchemas.map (·.name)) = .ok ()
  name : snowflakeTableName special schema.tableSchema.name = .ok tableName
  reserved : validateNoCdcCollisions (schema.columnSchemas.map (·.name)) = .ok ()

/-- Two source tables that pass the checks under one name, with the same columns. -/
def Clash (special : Char → List Char) (a b : ReplicatedTableSchema) : Prop :=
  ∃ tableName, Admissible special a tableName ∧ Admissible special b tableName ∧
    ∀ name, name ∈ tableColumnNames (a.columnSchemas.map (·.name)) ↔
      name ∈ tableColumnNames (b.columnSchemas.map (·.name))

/-! ## Without a clash -/

section Invariant

variable {special : Char → List Char} {schemas : TableId → ReplicatedTableSchema}
  {ids : Set TableId} {world : World} {i : Nat} {call : Call}

def Validated (schemas : TableId → ReplicatedTableSchema) (tables : String → Option (List String))
    (tableId : TableId) (tableName : String) : Prop :=
  ∃ actual, tables tableName = some actual ∧
    ∀ name, name ∈ tableColumnNames (World.columnNames schemas tableId) ↔ name ∈ actual

def Purpose.Ok (special : Char → List Char) (schema : ReplicatedTableSchema) (tableName : String) :
    Purpose → Prop
  | .create metadata => Admissible special schema tableName ∧ metadata.tableId = tableName
  | .existing name => Admissible special schema tableName ∧ name = tableName

def Call.Ok (special : Char → List Char) (schemas : TableId → ReplicatedTableSchema)
    (tables : String → Option (List String)) (call : Call) : Prop :=
  match call.phase with
  | .reading | .waiting =>
    validateDestinationColumnNames (World.columnNames schemas call.tableId) = .ok () ∧
      snowflakeTableName special (schemas call.tableId).tableSchema.name = .ok call.tableName
  | .gated | .probing | .recording => Admissible special (schemas call.tableId) call.tableName
  | .preparing purpose | .locking purpose | .validating purpose =>
    purpose.Ok special (schemas call.tableId) call.tableName
  | .creating metadata =>
    (Purpose.create metadata).Ok special (schemas call.tableId) call.tableName
  | .opening purpose => purpose.Ok special (schemas call.tableId) call.tableName ∧
      Validated schemas tables call.tableId call.tableName
  | .publishing metadata =>
    (Purpose.create metadata).Ok special (schemas call.tableId) call.tableName ∧
      Validated schemas tables call.tableId call.tableName
  | .returned _ => True

lemma Purpose.Ok.admissible {schema : ReplicatedTableSchema} {tableName : String}
    {purpose : Purpose} (h : purpose.Ok special schema tableName) :
    Admissible special schema tableName := by
  cases purpose with
  | create metadata => exact h.1
  | existing name => exact h.1

lemma Purpose.Ok.tableName_eq {schema : ReplicatedTableSchema} {tableName : String}
    {purpose : Purpose} (h : purpose.Ok special schema tableName) :
    purpose.tableName tableName = tableName := by
  cases purpose with
  | create metadata => rfl
  | existing name => exact h.2

structure World.Inv (special : Char → List Char) (schemas : TableId → ReplicatedTableSchema)
    (ids : Set TableId) (world : World) : Prop where
  metadata : ∀ tableId metadata, world.metadata tableId = some metadata →
    tableId ∈ ids ∧ Admissible special (schemas tableId) metadata.tableId
  applied : ∀ tableId metadata, world.metadata tableId = some metadata → metadata.isApplied →
    Validated schemas world.tables tableId metadata.tableId
  channels : ∀ tableId, world.channels tableId = true → ∀ tableName,
    snowflakeTableName special (schemas tableId).tableSchema.name = .ok tableName →
      Validated schemas world.tables tableId tableName
  calls : ∀ i call, world.calls i = some call →
    call.tableId ∈ ids ∧ call.Ok special schemas world.tables

lemma validateColumnNames_eq_ok {expected actual : List String}
    (h : validateColumnNames expected actual = .ok ()) (name : String) :
    name ∈ expected ↔ name ∈ actual := by
  unfold validateColumnNames at h
  split_ifs at h with hsame
  exact ⟨fun hmem => hsame.1 hmem, fun hmem => hsame.2 hmem⟩

namespace World.Inv

lemma setPhase (h : world.Inv special schemas ids) (hid : call.tableId ∈ ids) {phase : Phase}
    (hok : Call.Ok special schemas world.tables { call with phase := phase }) :
    (world.setPhase i call phase).Inv special schemas ids where
  metadata := h.metadata
  applied := h.applied
  channels := h.channels
  calls := by
    refine (Function.forall_update_iff _ fun _ state => ∀ call : Call, state = some call →
      call.tableId ∈ ids ∧ call.Ok special schemas world.tables).2 ⟨?_, fun j _ => h.calls j⟩
    rintro _ ⟨⟩
    exact ⟨hid, hok⟩

lemma finish (h : world.Inv special schemas ids) (hid : call.tableId ∈ ids)
    (result : Except EtlError Unit) : (world.finish i call result).Inv special schemas ids :=
  have hrelease : (world.release i).Inv special schemas ids :=
    ⟨h.metadata, h.applied, h.channels, h.calls⟩
  hrelease.setPhase hid trivial

lemma check (h : world.Inv special schemas ids) (hid : call.tableId ∈ ids)
    {result : Except EtlError Unit} {phase : Phase}
    (hok : result = .ok () → Call.Ok special schemas world.tables { call with phase := phase }) :
    (world.check i call result phase).Inv special schemas ids := by
  cases result with
  | error error => exact h.finish hid _
  | ok value => exact h.setPhase hid (hok rfl)

lemma prepared (h : world.Inv special schemas ids) (hid : call.tableId ∈ ids) {purpose : Purpose}
    (hok : purpose.Ok special (schemas call.tableId) call.tableName)
    (hvalidated : Validated schemas world.tables call.tableId call.tableName) :
    (world.prepared i call purpose).Inv special schemas ids := by
  cases purpose with
  | create metadata => exact h.setPhase hid ⟨hok, hvalidated⟩
  | existing tableName => exact h.finish hid _

lemma setMetadata (h : world.Inv special schemas ids) {tableId : TableId} (hid : tableId ∈ ids)
    {metadata : DestinationTableMetadata}
    (hadmissible : Admissible special (schemas tableId) metadata.tableId)
    (happlied : metadata.isApplied → Validated schemas world.tables tableId metadata.tableId) :
    (world.setMetadata tableId metadata).Inv special schemas ids where
  metadata := by
    refine (Function.forall_update_iff _ fun tableId stored =>
      ∀ metadata : DestinationTableMetadata, stored = some metadata → tableId ∈ ids ∧
        Admissible special (schemas tableId) metadata.tableId).2
        ⟨?_, fun other _ => h.metadata other⟩
    rintro _ ⟨⟩
    exact ⟨hid, hadmissible⟩
  applied := by
    refine (Function.forall_update_iff _ fun tableId stored =>
      ∀ metadata : DestinationTableMetadata, stored = some metadata → metadata.isApplied →
        Validated schemas world.tables tableId metadata.tableId).2
        ⟨?_, fun other _ => h.applied other⟩
    rintro _ ⟨⟩
    exact happlied
  channels := h.channels
  calls := h.calls

lemma createTable (h : world.Inv special schemas ids) (tableName : String)
    (columnNames : List String) :
    (world.createTable tableName columnNames).Inv special schemas ids := by
  have hmono : ∀ tableId name, Validated schemas world.tables tableId name →
      Validated schemas (world.createTable tableName columnNames).tables tableId name := by
    rintro tableId name ⟨actual, htable, hsame⟩
    refine ⟨actual, ?_, hsame⟩
    by_cases hname : name = tableName
    · subst hname
      simp [World.createTable, htable]
    · simpa [World.createTable, hname] using htable
  refine ⟨h.metadata, fun id m hm happlied => hmono _ _ (h.applied id m hm happlied),
    fun id hid name hname => hmono _ _ (h.channels id hid name hname), fun i call hcall => ?_⟩
  obtain ⟨hid, hok⟩ := h.calls i call hcall
  refine ⟨hid, ?_⟩
  unfold Call.Ok at hok ⊢
  split at hok
  all_goals first | exact hok | exact ⟨hok.1, hmono _ _ hok.2⟩

lemma effect (h : world.Inv special schemas ids) (hid : call.tableId ∈ ids)
    (hok : call.Ok special schemas world.tables) :
    (world.effect schemas call).Inv special schemas ids := by
  unfold Call.Ok at hok
  unfold World.effect
  split
  · rename_i hphase
    rw [hphase] at hok
    exact h.setMetadata hid hok nofun
  · exact h.createTable _ _
  · rename_i metadata hphase
    rw [hphase] at hok
    obtain ⟨⟨hadmissible, hname⟩, hvalidated⟩ := hok
    exact h.setMetadata hid (hname ▸ hadmissible) fun _ => hname ▸ hvalidated
  · exact h

lemma proceed (h : world.Inv special schemas ids) (hid : call.tableId ∈ ids)
    (hok : Admissible special (schemas call.tableId) call.tableName) :
    (world.proceed schemas i call (world.metadata call.tableId)).Inv special schemas ids := by
  have hname : ∀ metadata, world.metadata call.tableId = some metadata →
      metadata.tableId = call.tableName := fun metadata hmetadata =>
    Except.ok.inj ((h.metadata _ _ hmetadata).2.name.symm.trans hok.name)
  unfold World.proceed
  split
  · exact h.setPhase hid hok
  · rename_i metadata hmetadata
    split
    · exact h.check hid fun _ => ⟨hok, hname metadata hmetadata⟩
    · split
      · split
        · exact h.finish hid _
        · split
          · exact h.finish hid _
          · exact h.setPhase hid ⟨hok, hname metadata hmetadata⟩
      · exact h.finish hid _

lemma resume (h : world.Inv special schemas ids) (hcall : world.calls i = some call) :
    (world.resume schemas i call).Inv special schemas ids := by
  obtain ⟨hid, hok⟩ := h.calls i call hcall
  obtain ⟨tableId, tableName, phase⟩ := call
  cases phase with
  | reading =>
    simp only [World.resume]
    split
    · rename_i metadata hmetadata
      have hadmissible := (h.metadata tableId metadata hmetadata).2
      have hname : metadata.tableId = tableName :=
        Except.ok.inj (hadmissible.name.symm.trans hok.2)
      split
      · exact h.check hid fun _ => ⟨hname ▸ hadmissible, hname⟩
      · exact h.setPhase hid hok
    · exact h.setPhase hid hok
  | waiting =>
    simp only [World.resume]
    split
    · exact h
    · have hgate : World.Inv special schemas ids
          { world with gates := Function.update world.gates tableId (some i) } :=
        ⟨h.metadata, h.applied, h.channels, h.calls⟩
      exact hgate.check hid fun hreserved => ⟨hok.1, hok.2, hreserved⟩
  | gated => exact h.proceed hid hok
  | probing =>
    simp only [World.resume]
    split
    · exact h.finish hid _
    · exact h.setPhase hid hok
  | recording => exact (h.effect hid hok).setPhase hid ⟨hok, rfl⟩
  | preparing purpose =>
    simp only [World.resume]
    split_ifs with hwriter hchannel
    · exact h
    · exact h.prepared hid hok (h.channels tableId hchannel tableName hok.admissible.name)
    · exact h.setPhase hid hok
  | locking purpose =>
    simp only [World.resume]
    split_ifs with hwriter hchannel
    · exact h
    · exact h.prepared hid hok (h.channels tableId hchannel tableName hok.admissible.name)
    · have hlock : World.Inv special schemas ids { world with writer := some i } :=
        ⟨h.metadata, h.applied, h.channels, h.calls⟩
      refine hlock.check hid fun _ => ?_
      cases purpose with
      | create metadata => exact hok
      | existing name => exact hok
  | creating metadata => exact (h.effect hid hok).setPhase hid hok
  | validating purpose =>
    simp only [World.resume]
    split
    · exact h.finish hid _
    · rename_i actual hactual
      rw [hok.tableName_eq] at hactual
      exact h.check hid fun hsame => ⟨hok, actual, hactual, validateColumnNames_eq_ok hsame⟩
  | opening purpose =>
    have hopen : World.Inv special schemas ids { world with
        channels := Function.update world.channels tableId true
        writer := none } := by
      refine ⟨h.metadata, h.applied, ?_, h.calls⟩
      refine (Function.forall_update_iff _ fun tableId isOpen => isOpen = true → ∀ tableName,
        snowflakeTableName special (schemas tableId).tableSchema.name = .ok tableName →
          Validated schemas world.tables tableId tableName).2 ⟨?_, fun other _ => h.channels other⟩
      intro _ name hname
      cases hok.1.admissible.name.symm.trans hname
      exact hok.2
    exact hopen.prepared hid hok.1 hok.2
  | publishing metadata => exact (h.effect hid hok).finish hid _
  | returned result => exact h

lemma step (h : world.Inv special schemas ids) {move : Move} (hmove : move.Within ids) :
    (world.step special schemas move).Inv special schemas ids := by
  cases move with
  | begin i tableId =>
    have hid : tableId ∈ ids := hmove
    simp only [World.step]
    split
    · unfold World.begin
      split
      · refine h.setPhase ?_ trivial
        exact hid
      · rename_i hcolumns
        split
        · refine h.setPhase ?_ trivial
          exact hid
        · rename_i tableName hname
          refine h.setPhase ?_ ⟨hcolumns, hname⟩
          exact hid
    · exact h
  | advance i =>
    simp only [World.step]
    split
    · exact h
    · rename_i call hcall
      exact h.resume hcall
  | fail i fault =>
    simp only [World.step]
    split
    · exact h
    · rename_i call hcall
      obtain ⟨hid, hok⟩ := h.calls i call hcall
      unfold World.fail
      split
      · exact h
      · split
        · exact (h.effect hid hok).finish hid _
        · exact h.finish hid _
  | cancel i landed =>
    simp only [World.step]
    split
    · exact h
    · rename_i call hcall
      obtain ⟨hid, hok⟩ := h.calls i call hcall
      have hlanded : World.Inv special schemas ids
          (if landed then world.effect schemas call else world) := by
        split
        · exact h.effect hid hok
        · exact h
      refine ⟨hlanded.metadata, hlanded.applied, hlanded.channels, ?_⟩
      exact (Function.forall_update_iff _ fun _ state => ∀ call : Call, state = some call →
        call.tableId ∈ ids ∧ call.Ok special schemas _).2 ⟨nofun, fun j _ => hlanded.calls j⟩
  | restart => exact ⟨h.metadata, h.applied, nofun, nofun⟩

end World.Inv

lemma World.Reachable.inv (h : world.Reachable special schemas ids) :
    world.Inv special schemas ids := by
  induction h with
  | initial tables => exact ⟨nofun, nofun, nofun, nofun⟩
  | step h move hmove ih => exact ih.step hmove

lemma World.Inv.exclusive (h : world.Inv special schemas ids)
    (hclash : ∀ a ∈ ids, ∀ b ∈ ids, a ≠ b → ¬ Clash special (schemas a) (schemas b)) :
    world.Exclusive := by
  intro a b metadata metadata' hne ha hb happliedA happliedB hsame
  obtain ⟨hida, hadmissibleA⟩ := h.metadata a metadata ha
  obtain ⟨hidb, hadmissibleB⟩ := h.metadata b metadata' hb
  obtain ⟨actual, htable, hcolumnsA⟩ := h.applied a metadata ha happliedA
  obtain ⟨actual', htable', hcolumnsB⟩ := h.applied b metadata' hb happliedB
  rw [← hsame, htable, Option.some.injEq] at htable'
  subst htable'
  refine hclash a hida b hidb hne ⟨metadata.tableId, hadmissibleA, hsame ▸ hadmissibleB, ?_⟩
  exact fun name => (hcolumnsA name).trans (hcolumnsB name).symm

end Invariant

/-! ## With a clash -/

section Race

variable {special : Char → List Char} {schemas : TableId → ReplicatedTableSchema}
  {ids : Set TableId} {world : World} {i : Nat} {tableId : TableId} {tableName : String}

lemma World.Reachable.advance (h : world.Reachable special schemas ids) {call : Call}
    (hcall : world.calls i = some call) :
    (world.resume schemas i call).Reachable special schemas ids := by
  have hstep := h.step (.advance i) trivial
  rwa [World.step, hcall] at hstep

lemma World.Reachable.probe (h : world.Reachable special schemas ids) (hid : tableId ∈ ids)
    (hadmissible : Admissible special (schemas tableId) tableName) (hfree : world.calls i = none)
    (hmetadata : world.metadata tableId = none) (hgate : world.gates tableId = none)
    (htable : world.tables tableName = none) :
    World.Reachable special schemas ids
      { world with
        gates := Function.update world.gates tableId (some i)
        calls := Function.update world.calls i (some ⟨tableId, tableName, .recording⟩) } := by
  have hbegin := h.step (.begin i tableId) hid
  simp only [World.step, hfree, World.begin, World.columnNames, hadmissible.columns,
    hadmissible.name, World.setPhase] at hbegin
  have hread := hbegin.advance (i := i) (Function.update_self ..)
  simp only [World.resume, hmetadata, World.setPhase, Function.update_idem] at hread
  have hgated := hread.advance (i := i) (Function.update_self ..)
  simp only [World.resume, hgate, World.check, World.columnNames, hadmissible.reserved,
    World.setPhase, Function.update_idem] at hgated
  have hprobe := hgated.advance (i := i) (Function.update_self ..)
  simp only [World.resume, hmetadata, World.proceed, World.setPhase, Function.update_idem] at hprobe
  have hrecord := hprobe.advance (i := i) (Function.update_self ..)
  simpa only [World.resume, htable, World.setPhase, Function.update_idem] using hrecord

lemma World.Reachable.publish (h : world.Reachable special schemas ids)
    (hadmissible : Admissible special (schemas tableId) tableName)
    (hcall : world.calls i = some ⟨tableId, tableName, .recording⟩) (hwriter : world.writer = none)
    (hchannel : world.channels tableId = false)
    (htable : validateColumnNames (tableColumnNames (columnNames schemas tableId))
      ((world.tables tableName).getD (tableColumnNames (columnNames schemas tableId))) = .ok ()) :
    ∃ world' : World, world'.Reachable special schemas ids ∧
      world'.metadata = Function.update world.metadata tableId
        (some (DestinationTableMetadata.newCreating tableName (schemas tableId)).toApplied) ∧
      world'.tables = (world.createTable tableName
        (tableColumnNames (columnNames schemas tableId))).tables ∧
      world'.channels = Function.update world.channels tableId true ∧ world'.writer = none ∧
      ∀ j, j ≠ i → world'.calls j = world.calls j := by
  have hrecord := h.advance hcall
  simp only [World.resume, World.setPhase, World.setMetadata] at hrecord
  have hprepare := hrecord.advance (i := i) (Function.update_self ..)
  simp only [World.resume, hwriter, hchannel, World.setPhase, Function.update_idem,
    Option.isSome_none, Bool.false_eq_true, if_false] at hprepare
  have hlock := hprepare.advance (i := i) (Function.update_self ..)
  simp only [World.resume, hchannel, World.setPhase, Function.update_idem, Option.isSome_none,
    Bool.false_eq_true, if_false, World.check, columnNames, hadmissible.reserved] at hlock
  have hcreate := hlock.advance (i := i) (Function.update_self ..)
  simp only [World.resume, World.createTable, World.setPhase, Function.update_idem] at hcreate
  have hvalidate := hcreate.advance (i := i) (Function.update_self ..)
  simp only [World.resume, Purpose.tableName, Function.update_self, World.check, htable,
    World.setPhase, Function.update_idem] at hvalidate
  have hopen := hvalidate.advance (i := i) (Function.update_self ..)
  simp only [World.resume, World.prepared, World.setPhase, Function.update_idem] at hopen
  have hpublish := hopen.advance (i := i) (Function.update_self ..)
  simp only [World.resume, World.setMetadata, World.finish, World.release, World.setPhase,
    Function.update_idem] at hpublish
  exact ⟨_, hpublish, rfl, rfl, rfl, rfl, fun j hj => Function.update_of_ne hj ..⟩

lemma validateColumnNames_of_same {expected actual : List String}
    (h : ∀ name, name ∈ expected ↔ name ∈ actual) : validateColumnNames expected actual = .ok () :=
  if_pos ⟨fun name => (h name).1, fun name => (h name).2⟩

lemma exists_reachable_shared {a b : TableId} (ha : a ∈ ids) (hb : b ∈ ids) (hne : a ≠ b)
    (hadmissibleA : Admissible special (schemas a) tableName)
    (hadmissibleB : Admissible special (schemas b) tableName)
    (hsame : ∀ name, name ∈ tableColumnNames (World.columnNames schemas b) ↔
      name ∈ tableColumnNames (World.columnNames schemas a)) :
    ∃ world : World, world.Reachable special schemas ids ∧
      world.metadata a =
        some (DestinationTableMetadata.newCreating tableName (schemas a)).toApplied ∧
      world.metadata b =
        some (DestinationTableMetadata.newCreating tableName (schemas b)).toApplied := by
  have hstart : (World.initial fun _ => none).Reachable special schemas ids := .initial _
  have hlookA := hstart.probe (i := 0) ha hadmissibleA rfl rfl rfl rfl
  have hlookB := hlookA.probe (i := 1) hb hadmissibleB (by simp [World.initial]) rfl
    (by simp [World.initial, hne.symm]) rfl
  obtain ⟨world, hreachable, hmetadata, htables, hchannels, hwriter, hcalls⟩ :=
    hlookB.publish (i := 0) hadmissibleA (by simp) rfl rfl
      (validateColumnNames_of_same fun name => by simp [World.initial])
  obtain ⟨world', hreachable', hmetadata', -⟩ :=
    hreachable.publish (i := 1) hadmissibleB
      (by rw [hcalls 1 one_ne_zero]; simp) hwriter
      (by rw [hchannels, Function.update_of_ne hne.symm]; rfl)
      (validateColumnNames_of_same fun name => by
        simpa [htables, World.createTable, World.initial] using hsame name)
  refine ⟨world', hreachable', ?_, ?_⟩
  · rw [hmetadata', Function.update_of_ne hne, hmetadata, Function.update_self]
  · rw [hmetadata', Function.update_self]

end Race

/-- No two source tables ever share a Snowflake table exactly if no two of them clash. -/
theorem initialize_exclusive_iff (special : Char → List Char)
    (schemas : TableId → ReplicatedTableSchema) (ids : Set TableId) :
    (∀ world : World, world.Reachable special schemas ids → world.Exclusive) ↔
      ∀ a ∈ ids, ∀ b ∈ ids, a ≠ b → ¬ Clash special (schemas a) (schemas b) := by
  constructor
  · rintro hexclusive a ha b hb hne ⟨tableName, hadmissibleA, hadmissibleB, hsame⟩
    obtain ⟨world, hreachable, hmetadataA, hmetadataB⟩ :=
      exists_reachable_shared ha hb hne hadmissibleA hadmissibleB fun name => (hsame name).symm
    exact hexclusive world hreachable a b _ _ hne hmetadataA hmetadataB rfl rfl rfl
  · exact fun hclash world hreachable => hreachable.inv.exclusive hclash

def oneColumn (tableId : TableId) (name : String) : ReplicatedTableSchema :=
  .fromMasks ⟨tableId, ⟨"public", name⟩, [⟨"id", .text, -1, 1, some 1, false, none⟩], ⟨0, 0⟩⟩
    ⟨[1]⟩ ⟨[1]⟩

lemma admissible_oneColumn (special : Char → List Char) (tableId : TableId) {name : String}
    (hname : name = "users" ∨ name = "USERS") :
    Admissible special (oneColumn tableId name) "PUBLIC_USERS" where
  columns := show validateDestinationColumnNames ["id"] = .ok () by decide
  name := by
    rcases hname with rfl | rfl
    · have hencoded : tryStringifyTableName ⟨"public", "users"⟩ = .ok "public_users" := by
        decide +kernel
      change snowflakeTableName special ⟨"public", "users"⟩ = _
      rw [snowflakeTableName, hencoded]
      rfl
    · have hencoded : tryStringifyTableName ⟨"public", "USERS"⟩ = .ok "public_USERS" := by
        decide +kernel
      change snowflakeTableName special ⟨"public", "USERS"⟩ = _
      rw [snowflakeTableName, hencoded]
      rfl
  reserved := show validateNoCdcCollisions ["id"] = .ok () by decide

/-- The tables `public.users` and `public."USERS"` are both ready under `PUBLIC_USERS`. -/
theorem users_share_table :
    let schemas : TableId → ReplicatedTableSchema := fun tableId =>
      oneColumn tableId (if tableId = 1 then "users" else "USERS")
    ∀ special : Char → List Char, ∃ world : World, world.Reachable special schemas {1, 2} ∧
      world.metadata 1 = some ⟨"PUBLIC_USERS", .applied ⟨0, 0⟩ ⟨[1]⟩⟩ ∧
      world.metadata 2 = some ⟨"PUBLIC_USERS", .applied ⟨0, 0⟩ ⟨[1]⟩⟩ := by
  intro schemas special
  exact exists_reachable_shared (by simp) (by simp) (by decide)
    (admissible_oneColumn special 1 (.inl rfl)) (admissible_oneColumn special 2 (.inr rfl))
    fun _ => Iff.rfl

end Etl.Snowflake
