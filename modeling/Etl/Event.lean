import Etl.Schema

/-!
# Events and logical replication messages

The messages an apply loop receives and the events it makes of them. How a tuple becomes a row is a
parameter (`RowCodec`): the loop only decides with which schema.
-/

namespace Etl

/-! ## Rows -/

inductive TupleData where
  | null
  | unchangedToast
  | text (bytes : ByteArray)
  | binary (bytes : ByteArray)
deriving DecidableEq

abbrev Tuple := List TupleData

/-- A row of decoded values by their text image; `none` is SQL null. -/
structure TableRow where
  values : List (Option String)
deriving DecidableEq

inductive OldTableRow where
  | key (row : TableRow)
  | full (row : TableRow)
deriving DecidableEq

inductive UpdatedTableRow where
  | full (row : TableRow)
  | partialRow (totalColumns : Nat) (row : TableRow) (missingColumnIndexes : List Nat)
deriving DecidableEq

/-! ## Events -/

structure RelationEvent where
  replicatedTableSchema : ReplicatedTableSchema
deriving DecidableEq

inductive Event where
  | begin (commitLsn : PgLsn) (txOrdinal : Nat) (timestamp : Int) (xid : Nat)
  | commit (commitLsn : PgLsn) (txOrdinal : Nat) (flags : Int) (endLsn : PgLsn) (timestamp : Int)
  | insert (commitLsn : PgLsn) (txOrdinal : Nat) (schema : ReplicatedTableSchema)
      (tableRow : TableRow)
  | update (commitLsn : PgLsn) (txOrdinal : Nat) (schema : ReplicatedTableSchema)
      (updatedTableRow : UpdatedTableRow) (oldTableRow : Option OldTableRow)
  | delete (commitLsn : PgLsn) (txOrdinal : Nat) (schema : ReplicatedTableSchema)
      (oldTableRow : Option OldTableRow)
  | truncate (commitLsn : PgLsn) (txOrdinal : Nat) (options : Int)
      (truncatedTables : List ReplicatedTableSchema)
  | relation (event : RelationEvent)
deriving DecidableEq

def Event.hasTableId (tableId : TableId) : Event → Bool
  | .insert _ _ schema _ => schema.id = tableId
  | .update _ _ schema _ _ => schema.id = tableId
  | .delete _ _ schema _ => schema.id = tableId
  | .truncate _ _ _ tables => tables.any fun schema => schema.id = tableId
  | .relation event => event.replicatedTableSchema.id = tableId
  | _ => false

def Event.committed? : Event → Option PgLsn
  | .commit commitLsn _ _ _ _ => some commitLsn
  | _ => none

structure EventSequenceKey where
  commitLsn : PgLsn
  txOrdinal : Nat
deriving DecidableEq

def EventSequenceKey.asU128 (key : EventSequenceKey) : Nat :=
  (key.commitLsn.val.val <<< 64) ||| key.txOrdinal

lemma EventSequenceKey.asU128_lt {a b : EventSequenceKey} (ha : a.txOrdinal < 2 ^ 64)
    (hb : b.txOrdinal < 2 ^ 64)
    (h : a.commitLsn < b.commitLsn ∨ a.commitLsn = b.commitLsn ∧ a.txOrdinal < b.txOrdinal) :
    a.asU128 < b.asU128 := by
  rw [asU128, asU128, ← Nat.shiftLeft_add_eq_or_of_lt ha, ← Nat.shiftLeft_add_eq_or_of_lt hb,
    Nat.shiftLeft_eq, Nat.shiftLeft_eq]
  rcases h with hlt | ⟨heq, hlt⟩
  · have hlt' : a.commitLsn.val.val < b.commitLsn.val.val := hlt
    omega
  · rw [heq]
    omega

def Event.schema? : Event → Option ReplicatedTableSchema
  | .insert _ _ schema _ => some schema
  | .update _ _ schema _ _ => some schema
  | .delete _ _ schema _ => some schema
  | .relation event => some event.replicatedTableSchema
  | _ => none

def Event.eventSequenceKey? : Event → Option EventSequenceKey
  | .begin commitLsn txOrdinal _ _ => some ⟨commitLsn, txOrdinal⟩
  | .commit commitLsn txOrdinal _ _ _ => some ⟨commitLsn, txOrdinal⟩
  | .insert commitLsn txOrdinal _ _ => some ⟨commitLsn, txOrdinal⟩
  | .update commitLsn txOrdinal _ _ _ => some ⟨commitLsn, txOrdinal⟩
  | .delete commitLsn txOrdinal _ _ => some ⟨commitLsn, txOrdinal⟩
  | .truncate commitLsn txOrdinal _ _ => some ⟨commitLsn, txOrdinal⟩
  | .relation _ => none

/-! ## Protocol messages -/

structure RelationColumn where
  name : String
  /-- Bit 0 of the column flags. -/
  isKey : Bool
deriving DecidableEq

structure RelationBody where
  relId : TableId
  identityFull : Bool
  columns : List RelationColumn
deriving DecidableEq

def parseReplicatedColumnNames (relation : RelationBody) : List String :=
  relation.columns.map (·.name)

def parseReplicaIdentityColumnNames (relation : RelationBody) : List String :=
  if relation.identityFull then relation.columns.map (·.name)
  else (relation.columns.filter (·.isKey)).map (·.name)

lemma mem_parseReplicatedColumnNames_of_identity {relation : RelationBody} {name : String}
    (h : name ∈ parseReplicaIdentityColumnNames relation) :
    name ∈ parseReplicatedColumnNames relation := by
  unfold parseReplicaIdentityColumnNames at h
  unfold parseReplicatedColumnNames
  split at h
  · exact h
  · obtain ⟨column, hcolumn, rfl⟩ := List.mem_map.1 h
    exact List.mem_map_of_mem (List.mem_of_mem_filter hcolumn)

def ddlMessageTag : String := "supabase_etl_ddl"

structure SchemaChangeMessage where
  commandTag : String
  publicationName : Option String
  oid : TableId
  name : TableName
  columns : List ColumnSchema
deriving DecidableEq

namespace SchemaChangeMessage

def appliesToPublication (message : SchemaChangeMessage) (publicationName : String) : Bool :=
  if message.commandTag = "ALTER PUBLICATION" then message.publicationName = some publicationName
  else true

def intoTableSchema (message : SchemaChangeMessage) (snapshotId : SnapshotId) : TableSchema :=
  ⟨message.oid, message.name, message.columns, snapshotId⟩

end SchemaChangeMessage

structure MessageBody where
  /-- The prefix that names the producer. -/
  tag : String
  messageLsn : PgLsn
  /-- `none` if it is not a schema change message. -/
  content : Option SchemaChangeMessage
deriving DecidableEq

structure UpdateBody where
  relId : TableId
  oldTuple : Option Tuple
  keyTuple : Option Tuple
  newTuple : Tuple
deriving DecidableEq

structure DeleteBody where
  relId : TableId
  oldTuple : Option Tuple
  keyTuple : Option Tuple
deriving DecidableEq

inductive LogicalReplicationMessage where
  | begin (finalLsn : PgLsn) (timestamp : Int) (xid : Nat)
  | commit (flags : Int) (commitLsn endLsn : PgLsn) (timestamp : Int)
  | relation (body : RelationBody)
  | insert (relId : TableId) (tuple : Tuple)
  | update (body : UpdateBody)
  | delete (body : DeleteBody)
  | truncate (options : Int) (relIds : List TableId)
  | message (body : MessageBody)
  | origin
  | typeInfo
deriving DecidableEq

def LogicalReplicationMessage.relId? : LogicalReplicationMessage → Option TableId
  | .relation body => some body.relId
  | .insert relId _ => some relId
  | .update body => some body.relId
  | .delete body => some body.relId
  | _ => none

inductive ReplicationMessage where
  | xLogData (walStart walEnd : PgLsn) (data : LogicalReplicationMessage)
  | primaryKeepAlive (walEnd : PgLsn) (reply : Bool)
deriving DecidableEq

structure RowCodec where
  convertTupleToRow : ReplicatedTableSchema → Tuple → Except EtlError TableRow
  normalizeKeyTupleToRow : ReplicatedTableSchema → Tuple → Except EtlError TableRow
  convertUpdateTuple : ReplicatedTableSchema → Tuple → Option OldTableRow →
    Except EtlError UpdatedTableRow

namespace RowCodec

variable (codec : RowCodec)

def parseInsert (schema : ReplicatedTableSchema) (commitLsn : PgLsn) (txOrdinal : Nat)
    (tuple : Tuple) : Except EtlError Event := do
  let row ← codec.convertTupleToRow schema tuple
  return .insert commitLsn txOrdinal schema row

/-- A full image if there is one, else the key image. -/
def parseOldRow (schema : ReplicatedTableSchema) (oldTuple keyTuple : Option Tuple) :
    Except EtlError (Option OldTableRow) :=
  match oldTuple, keyTuple with
  | some tuple, _ => do return some (.full (← codec.convertTupleToRow schema tuple))
  | none, some tuple => do return some (.key (← codec.normalizeKeyTupleToRow schema tuple))
  | none, none => return none

def parseUpdate (schema : ReplicatedTableSchema) (commitLsn : PgLsn) (txOrdinal : Nat)
    (body : UpdateBody) : Except EtlError Event := do
  let oldRow ← codec.parseOldRow schema body.oldTuple body.keyTuple
  let row ← codec.convertUpdateTuple schema body.newTuple oldRow
  return .update commitLsn txOrdinal schema row oldRow

def parseDelete (schema : ReplicatedTableSchema) (commitLsn : PgLsn) (txOrdinal : Nat)
    (body : DeleteBody) : Except EtlError Event := do
  let oldRow ← codec.parseOldRow schema body.oldTuple body.keyTuple
  return .delete commitLsn txOrdinal schema oldRow

end RowCodec

end Etl
