import Etl.Error
import Etl.Lib.Text
import Etl.Postgres.Schema

/-!
# Destination table names

Schema and table name with their underscores doubled, joined by a single one. No two source tables
get the same identifier (`tryStringifyTableName_injective`).
-/

namespace Etl

def unsupportedSqlIdentifierChars : List Char := ['"', ';']

def validateTableNameComponentForUnderscoreEncoding (value : String) : Except EtlError Unit :=
  if value.toList.head? = some '_' ∨ value.toList.getLast? = some '_' then
    .error ⟨.validationError, "Destination table name cannot use leading or trailing underscores"⟩
  else if value.toList = [] then
    .error ⟨.validationError, "Destination table name component cannot be empty"⟩
  else if value.toList.any (unsupportedSqlIdentifierChars.contains ·) then
    .error ⟨.validationError,
      "Destination table name contains an unsupported SQL identifier character"⟩
  else .ok ()

def stringifyTableNameComponent (value : String) : Except EtlError String := do
  validateTableNameComponentForUnderscoreEncoding value
  return String.ofList (Text.doubled '_' value.toList)

def tryStringifyTableName (tableName : TableName) : Except EtlError String := do
  let escapedSchema ← stringifyTableNameComponent tableName.schema
  let escapedTable ← stringifyTableNameComponent tableName.name
  return escapedSchema ++ "_" ++ escapedTable

lemma stringifyTableNameComponent_eq_ok {value encoded : String}
    (h : stringifyTableNameComponent value = .ok encoded) :
    (value.toList ≠ [] ∧ value.toList.head? ≠ some '_') ∧
      encoded = String.ofList (Text.doubled '_' value.toList) := by
  obtain ⟨_, hvalid, htext⟩ := Except.exists_of_bind_eq_ok h
  unfold validateTableNameComponentForUnderscoreEncoding at hvalid
  split at hvalid
  · cases hvalid
  · next hends =>
    split at hvalid
    · cases hvalid
    · next hne => exact ⟨⟨hne, fun hhead => hends (.inl hhead)⟩, (Except.ok.inj htext).symm⟩

lemma tryStringifyTableName_eq_ok {tableName : TableName} {encoded : String}
    (h : tryStringifyTableName tableName = .ok encoded) :
    (tableName.name.toList ≠ [] ∧ tableName.name.toList.head? ≠ some '_') ∧
      encoded.toList = Text.doubled '_' tableName.schema.toList ++
        '_' :: Text.doubled '_' tableName.name.toList := by
  obtain ⟨schema, hschema, h⟩ := Except.exists_of_bind_eq_ok h
  obtain ⟨table, htable, h⟩ := Except.exists_of_bind_eq_ok h
  obtain ⟨-, rfl⟩ := stringifyTableNameComponent_eq_ok hschema
  obtain ⟨hhead, rfl⟩ := stringifyTableNameComponent_eq_ok htable
  refine ⟨hhead, ?_⟩
  rw [← Except.ok.inj h]
  simp

lemma eq_of_tryStringifyTableName {a b : TableName} {encoded : String}
    (ha : tryStringifyTableName a = .ok encoded) (hb : tryStringifyTableName b = .ok encoded) :
    a.schema = b.schema ∧ a.name = b.name := by
  obtain ⟨⟨-, hheada⟩, htexta⟩ := tryStringifyTableName_eq_ok ha
  obtain ⟨⟨-, hheadb⟩, htextb⟩ := tryStringifyTableName_eq_ok hb
  rw [← Text.head?_doubled '_'] at hheada hheadb
  obtain ⟨hschema, hname⟩ := Text.doubled_append_inj hheada hheadb (htexta.symm.trans htextb)
  exact ⟨String.toList_inj.1 hschema,
    String.toList_inj.1 (Text.doubled_injective '_' hname)⟩

/-- Two source tables with one identifier are the same. -/
theorem tryStringifyTableName_injective {a b : TableName} {encoded : String}
    (ha : tryStringifyTableName a = .ok encoded) (hb : tryStringifyTableName b = .ok encoded) :
    a.schema = b.schema ∧ a.name = b.name :=
  eq_of_tryStringifyTableName ha hb

/-- Underscores inside both parts are kept apart from the joint. -/
theorem tryStringifyTableName_injective_underscores :
    tryStringifyTableName ⟨"a_b", "c_d"⟩ = .ok "a__b_c__d" ∧
      ∀ b, tryStringifyTableName b = .ok "a__b_c__d" → "a_b" = b.schema ∧ "c_d" = b.name :=
  have h : tryStringifyTableName ⟨"a_b", "c_d"⟩ = .ok "a__b_c__d" := by decide +kernel
  ⟨h, fun _ hb => tryStringifyTableName_injective h hb⟩

end Etl
