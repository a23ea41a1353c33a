import Etl.Error
import Etl.Postgres.Schema

/-!
# Replicated table schemas

A schema version with two masks: which columns are replicated, and which of them identify a row.
Masks made from names are checked; `fromMasks` checks nothing, so `Fits` has to be proved.
-/

namespace Etl

def validateMaskColumnNames (tableSchema : TableSchema) (columnNames : List String) : Bool :=
  columnNames.all fun name => tableSchema.columnSchemas.any fun column => column.name = name

def buildMaskBytes (tableSchema : TableSchema) (columnNames : List String) : List UInt8 :=
  tableSchema.columnSchemas.map fun column => if column.name ∈ columnNames then 1 else 0

structure ReplicationMask where
  bytes : List UInt8
deriving DecidableEq

structure IdentityMask where
  bytes : List UInt8
deriving DecidableEq

namespace ReplicationMask

/-- `ReplicationMask::try_build`; `none` stands for `SchemaError::UnknownReplicatedColumns`. -/
def tryBuild (tableSchema : TableSchema) (columnNames : List String) : Option ReplicationMask :=
  if validateMaskColumnNames tableSchema columnNames then
    some ⟨buildMaskBytes tableSchema columnNames⟩
  else none

def all (tableSchema : TableSchema) : ReplicationMask :=
  ⟨tableSchema.columnSchemas.map fun _ => 1⟩

def replicatedCount (mask : ReplicationMask) : Nat := mask.bytes.count 1

end ReplicationMask

def IdentityMask.tryBuild (tableSchema : TableSchema) (columnNames : List String) :
    Option IdentityMask :=
  if validateMaskColumnNames tableSchema columnNames then
    some ⟨buildMaskBytes tableSchema columnNames⟩
  else none

/-- A schema version with the masks of one relation. What the source caches next to them is a
function of these. -/
structure ReplicatedTableSchema where
  tableSchema : TableSchema
  replicationMask : ReplicationMask
  identityMask : IdentityMask
deriving DecidableEq

namespace ReplicatedTableSchema

def fromMasks (tableSchema : TableSchema) (replicationMask : ReplicationMask)
    (identityMask : IdentityMask) : ReplicatedTableSchema :=
  ⟨tableSchema, replicationMask, identityMask⟩

def id (schema : ReplicatedTableSchema) : TableId := schema.tableSchema.id

/-- The number of set bytes in the mask, whatever the number of columns. -/
def replicatedColumnCount (schema : ReplicatedTableSchema) : Nat :=
  schema.replicationMask.replicatedCount

def columnSchemas (schema : ReplicatedTableSchema) : List ColumnSchema :=
  (schema.tableSchema.columnSchemas.zip schema.replicationMask.bytes).filterMap
    fun p => if p.2 = 1 then some p.1 else none

/-- Both masks have one binary entry per column, and identity columns are replicated. -/
structure Fits (schema : ReplicatedTableSchema) : Prop where
  replication_length : schema.replicationMask.bytes.length = schema.tableSchema.columnSchemas.length
  identity_length : schema.identityMask.bytes.length = schema.tableSchema.columnSchemas.length
  replication_binary : ∀ b ∈ schema.replicationMask.bytes, b ≤ 1
  identity_binary : ∀ b ∈ schema.identityMask.bytes, b ≤ 1
  identity_subset : ∀ p ∈ schema.replicationMask.bytes.zip schema.identityMask.bytes,
    ¬ (p.2 = 1 ∧ p.1 = 0)

end ReplicatedTableSchema

structure IdentityMessage where
  primaryKeyAttnums : List Int
  relreplident : String
  replicaIdentityIndexAttnums : List Int
deriving DecidableEq

namespace IdentityMessage

def buildIdentityMaskFromAttnums (tableSchema : TableSchema) (replicationMask : ReplicationMask)
    (attnums : List Int) : IdentityMask :=
  ⟨(tableSchema.columnSchemas.zip replicationMask.bytes).map fun p =>
    if p.2 = 1 ∧ p.1.ordinalPosition ∈ attnums then 1 else 0⟩

def buildIdentityMask (identity : IdentityMessage) (tableSchema : TableSchema)
    (replicationMask : ReplicationMask) : Except EtlError IdentityMask :=
  if identity.relreplident = "f" then .ok ⟨replicationMask.bytes⟩
  else if identity.relreplident = "d" then
    .ok (buildIdentityMaskFromAttnums tableSchema replicationMask identity.primaryKeyAttnums)
  else if identity.relreplident = "i" then
    .ok (buildIdentityMaskFromAttnums tableSchema replicationMask
      identity.replicaIdentityIndexAttnums)
  else if identity.relreplident = "n" then .ok ⟨tableSchema.columnSchemas.map fun _ => 0⟩
  else .error ⟨.conversionError, "Invalid replica identity metadata"⟩

end IdentityMessage

section Masks

variable {tableSchema : TableSchema} {names replicated identity : List String}

@[simp] lemma length_buildMaskBytes :
    (buildMaskBytes tableSchema names).length = tableSchema.columnSchemas.length := by
  simp [buildMaskBytes]

lemma buildMaskBytes_le_one : ∀ b ∈ buildMaskBytes tableSchema names, b ≤ 1 := by
  intro b hb
  simp only [buildMaskBytes, List.mem_map] at hb
  obtain ⟨column, -, rfl⟩ := hb
  split <;> decide

lemma fits_fromMasks_buildMaskBytes (hsub : ∀ name ∈ identity, name ∈ replicated) :
    (ReplicatedTableSchema.fromMasks tableSchema ⟨buildMaskBytes tableSchema replicated⟩
      ⟨buildMaskBytes tableSchema identity⟩).Fits where
  replication_length := length_buildMaskBytes
  identity_length := length_buildMaskBytes
  replication_binary := buildMaskBytes_le_one
  identity_binary := buildMaskBytes_le_one
  identity_subset := by
    intro p hp
    simp only [ReplicatedTableSchema.fromMasks, buildMaskBytes, List.zip_map', List.mem_map] at hp
    obtain ⟨column, -, rfl⟩ := hp
    rintro ⟨hid, hrep⟩
    have hmem : column.name ∈ identity := by
      by_contra hnot
      simp [hnot] at hid
    simp [hsub _ hmem] at hrep

lemma exists_buildIdentityMask_eq_map {identity : IdentityMessage} {identityMask : IdentityMask}
    (h : identity.buildIdentityMask tableSchema ⟨buildMaskBytes tableSchema replicated⟩ =
      .ok identityMask) :
    ∃ isKey : ColumnSchema → Prop, ∃ _ : DecidablePred isKey,
      identityMask.bytes = tableSchema.columnSchemas.map fun column =>
        if column.name ∈ replicated ∧ isKey column then 1 else 0 := by
  have hattnums : ∀ attnums, (IdentityMessage.buildIdentityMaskFromAttnums tableSchema
      ⟨buildMaskBytes tableSchema replicated⟩ attnums).bytes =
        tableSchema.columnSchemas.map fun column =>
          if column.name ∈ replicated ∧ column.ordinalPosition ∈ attnums then 1 else 0 := by
    intro attnums
    have hzip : tableSchema.columnSchemas.zip (buildMaskBytes tableSchema replicated) =
        tableSchema.columnSchemas.map fun column =>
          (column, if column.name ∈ replicated then 1 else 0) := by
      have hmap := List.zip_map' (f := id) (l := tableSchema.columnSchemas)
        (g := fun column => if column.name ∈ replicated then (1 : UInt8) else 0)
      simpa [buildMaskBytes] using hmap
    simp only [IdentityMessage.buildIdentityMaskFromAttnums, hzip, List.map_map]
    refine List.map_congr_left fun column _ => ?_
    by_cases hmem : column.name ∈ replicated <;> simp [hmem]
  unfold IdentityMessage.buildIdentityMask at h
  split_ifs at h <;> cases h
  · exact ⟨fun _ => True, inferInstance, by simp [buildMaskBytes]⟩
  · exact ⟨_, inferInstance, hattnums _⟩
  · exact ⟨_, inferInstance, hattnums _⟩
  · exact ⟨fun _ => False, inferInstance, by simp⟩

lemma fits_fromMasks_buildIdentityMask {identity : IdentityMessage} {identityMask : IdentityMask}
    (h : identity.buildIdentityMask tableSchema ⟨buildMaskBytes tableSchema replicated⟩ =
      .ok identityMask) :
    (ReplicatedTableSchema.fromMasks tableSchema ⟨buildMaskBytes tableSchema replicated⟩
      identityMask).Fits := by
  obtain ⟨isKey, _, hbytes⟩ := exists_buildIdentityMask_eq_map h
  constructor
  case replication_length => exact length_buildMaskBytes
  case replication_binary => exact buildMaskBytes_le_one
  case identity_length => simp [ReplicatedTableSchema.fromMasks, hbytes]
  case identity_binary =>
    intro b hb
    simp only [ReplicatedTableSchema.fromMasks, hbytes, List.mem_map] at hb
    obtain ⟨column, -, rfl⟩ := hb
    split <;> decide
  case identity_subset =>
    intro p hp
    simp only [ReplicatedTableSchema.fromMasks, hbytes, buildMaskBytes, List.zip_map',
      List.mem_map] at hp
    obtain ⟨column, -, rfl⟩ := hp
    by_cases hmem : column.name ∈ replicated <;> simp [hmem]

end Masks

end Etl
