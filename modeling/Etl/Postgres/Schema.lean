import Etl.Postgres.Lsn

/-!
# Table schemas

The store keeps column types under names. A type without one is written as `UNKNOWN(...)` and read
back as `TEXT`.
-/

namespace Etl

structure TableId where
  val : Fin (2 ^ 32)
deriving DecidableEq, Repr

namespace TableId

instance : LinearOrder TableId :=
  LinearOrder.lift' TableId.val (fun a b h => by cases a; cases b; simpa using h)

instance (n : Nat) : OfNat TableId n := ⟨⟨Fin.ofNat _ n⟩⟩

instance : Inhabited TableId := ⟨0⟩

end TableId

def typeNames : List String :=
  ["BOOL", "CHAR", "INT2", "INT2_VECTOR", "INT4", "INT8", "REGPROC", "FLOAT4", "FLOAT8", "TEXT",
   "TID", "XID", "CID", "VARCHAR", "TIMESTAMP", "TIMESTAMPTZ", "DATE", "TIME", "TIMETZ", "BYTEA",
   "UUID", "JSON", "JSONB", "NAME", "BPCHAR", "NUMERIC", "MONEY", "INTERVAL", "INET", "CIDR",
   "MACADDR", "MACADDR8", "BIT", "VARBIT", "POINT", "LSEG", "PATH", "BOX", "POLYGON", "LINE",
   "CIRCLE", "OID", "OID_VECTOR", "XML", "PG_NODE_TREE", "ACLITEM", "REFCURSOR", "REGPROCEDURE",
   "REGOPER", "REGOPERATOR", "REGCLASS", "REGTYPE", "TXID_SNAPSHOT", "PG_LSN", "JSONPATH",
   "REGNAMESPACE", "REGROLE", "REGCOLLATION", "PG_BRIN_BLOOM_SUMMARY",
   "PG_BRIN_MINMAX_MULTI_SUMMARY", "PG_MCV_LIST", "PG_SNAPSHOT", "XID8", "TSVECTOR", "TSQUERY",
   "GTSVECTOR", "REGCONFIG", "REGDICTIONARY", "BOOL_ARRAY", "BYTEA_ARRAY", "CHAR_ARRAY",
   "NAME_ARRAY", "INT2_ARRAY", "INT2_VECTOR_ARRAY", "INT4_ARRAY", "INT8_ARRAY", "REGPROC_ARRAY",
   "FLOAT4_ARRAY", "FLOAT8_ARRAY", "OID_ARRAY", "OID_VECTOR_ARRAY", "TEXT_ARRAY", "TID_ARRAY",
   "XID_ARRAY", "CID_ARRAY", "BPCHAR_ARRAY", "VARCHAR_ARRAY", "TIME_ARRAY", "TIMESTAMP_ARRAY",
   "TIMESTAMPTZ_ARRAY", "DATE_ARRAY", "TIMETZ_ARRAY", "INTERVAL_ARRAY", "UUID_ARRAY", "JSON_ARRAY",
   "JSONB_ARRAY", "NUMERIC_ARRAY", "MONEY_ARRAY", "XML_ARRAY", "ACLITEM_ARRAY", "INET_ARRAY",
   "CIDR_ARRAY", "MACADDR_ARRAY", "MACADDR8_ARRAY", "CSTRING_ARRAY", "REFCURSOR_ARRAY",
   "REGPROCEDURE_ARRAY", "REGOPER_ARRAY", "REGOPERATOR_ARRAY", "REGCLASS_ARRAY", "REGTYPE_ARRAY",
   "RECORD_ARRAY", "TXID_SNAPSHOT_ARRAY", "BIT_ARRAY", "VARBIT_ARRAY", "POINT_ARRAY", "LSEG_ARRAY",
   "PATH_ARRAY", "BOX_ARRAY", "POLYGON_ARRAY", "LINE_ARRAY", "CIRCLE_ARRAY", "PG_LSN_ARRAY",
   "TS_VECTOR_ARRAY", "TSQUERY_ARRAY", "GTS_VECTOR_ARRAY", "REGCONFIG_ARRAY",
   "REGDICTIONARY_ARRAY", "JSONPATH_ARRAY", "REGNAMESPACE_ARRAY", "REGROLE_ARRAY",
   "REGCOLLATION_ARRAY", "PG_SNAPSHOT_ARRAY", "XID8_ARRAY", "INT4_RANGE", "INT8_RANGE",
   "NUM_RANGE", "TS_RANGE", "TSTZ_RANGE", "DATE_RANGE", "INT4MULTI_RANGE", "INT8MULTI_RANGE",
   "NUMMULTI_RANGE", "TSMULTI_RANGE", "TSTZMULTI_RANGE", "DATEMULTI_RANGE", "INT4_RANGE_ARRAY",
   "INT8_RANGE_ARRAY", "NUM_RANGE_ARRAY", "TS_RANGE_ARRAY", "TSTZ_RANGE_ARRAY",
   "DATE_RANGE_ARRAY", "INT4MULTI_RANGE_ARRAY", "INT8MULTI_RANGE_ARRAY", "NUMMULTI_RANGE_ARRAY",
   "TSMULTI_RANGE_ARRAY", "TSTZMULTI_RANGE_ARRAY", "DATEMULTI_RANGE_ARRAY"]

/-- A mapped type, or another one known by name only. -/
inductive PgType where
  | mapped (name : String) (mem : name ∈ typeNames)
  | other (name : String)
deriving DecidableEq

def PgType.text : PgType := .mapped "TEXT" (by simp [typeNames])

def postgresTypeToString : PgType → String
  | .mapped name _ => name
  | .other name => "UNKNOWN(" ++ name ++ ")"

def stringToPostgresType (name : String) : PgType :=
  if h : name ∈ typeNames then .mapped name h else .text

def PgType.isMapped : PgType → Bool
  | .mapped _ _ => true
  | .other _ => false

def isArrayType : PgType → Bool
  | .mapped name _ => name.endsWith "_ARRAY"
  | .other name => name.startsWith "_"

lemma stringToPostgresType_toString_iff (typ : PgType) :
    stringToPostgresType (postgresTypeToString typ) = typ ↔ typ.isMapped := by
  cases typ with
  | mapped name mem => simp [postgresTypeToString, stringToPostgresType, mem, PgType.isMapped]
  | other name =>
    by_cases h : "UNKNOWN(" ++ name ++ ")" ∈ typeNames <;>
      simp [postgresTypeToString, stringToPostgresType, PgType.isMapped, PgType.text, h]

structure ColumnSchema where
  name : String
  typ : PgType
  modifier : Int
  ordinalPosition : Int
  primaryKeyOrdinalPosition : Option Int
  nullable : Bool
  defaultExpression : Option String
deriving DecidableEq

structure TableName where
  schema : String
  name : String
deriving DecidableEq

structure TableSchema where
  id : TableId
  name : TableName
  columnSchemas : List ColumnSchema
  snapshotId : SnapshotId
deriving DecidableEq

end Etl
