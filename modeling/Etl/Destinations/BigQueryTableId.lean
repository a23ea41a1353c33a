import Etl.Destinations.TableName
import Etl.Postgres.Lsn

/-!
# Sequenced table names

Each generation of a table has the table's name with a sequence number. Underscores inside a source
name are doubled, so no two names meet (`sequenced_names_disjoint`).
-/

namespace Etl.BigQuery

structure SequencedBigQueryTableId where
  base : List Char
  sequence : Fin (2 ^ 64)
deriving DecidableEq

namespace SequencedBigQueryTableId

def display (id : SequencedBigQueryTableId) : List Char :=
  id.base ++ '_' :: Text.render 10 id.sequence

def fromStr (tableId : List Char) : Except EtlError SequencedBigQueryTableId :=
  match Text.rsplitOnce? '_' tableId with
  | none =>
    .error ⟨.destinationTableNameInvalid, "Invalid sequenced BigQuery table ID format"⟩
  | some (tableName, sequenceStr) =>
    if tableName.isEmpty ∨ sequenceStr.isEmpty then
      .error ⟨.destinationTableNameInvalid, "Invalid sequenced BigQuery table ID format"⟩
    else
      match (PgLsn.parseU64? 10 sequenceStr).map PgLsn.val with
      | none =>
        .error ⟨.destinationTableNameInvalid, "Invalid sequence number in BigQuery table ID"⟩
      | some sequence => .ok ⟨tableName, sequence⟩

def belongsToBase (id : SequencedBigQueryTableId) (base : List Char) : Bool := id.base == base

def parseForBase (tableId base : List Char) : Option SequencedBigQueryTableId :=
  (fromStr tableId).toOption.filter (·.belongsToBase base)

lemma notMem_render (n : Nat) : '_' ∉ Text.render 10 n :=
  Text.notMem_render (by norm_num) (by norm_num) (by decide) n

lemma fromStr_display {id : SequencedBigQueryTableId} (h : id.base ≠ []) :
    fromStr id.display = .ok id := by
  have hne : Text.render 10 id.sequence ≠ [] := by
    intro hnil
    have hparse := Text.parse?_render (b := 10) (by norm_num) (by norm_num) id.sequence
    simp [hnil, Text.parse?] at hparse
  have hsequence := PgLsn.map_parseU64?_render id.sequence
  simp [fromStr, display, Text.rsplitOnce?_append _ (notMem_render _), h, hne, hsequence]

lemma exists_of_parseForBase {tableId base : List Char} {id : SequencedBigQueryTableId}
    (h : parseForBase tableId base = some id) :
    id.base = base ∧ fromStr tableId = .ok id ∧
      ∃ digits, tableId = base ++ '_' :: digits ∧ '_' ∉ digits := by
  obtain ⟨hread, hbase⟩ := Option.filter_eq_some_iff.1 h
  have hok : fromStr tableId = .ok id := by
    cases hfrom : fromStr tableId with
    | error e => simp [hfrom, Except.toOption] at hread
    | ok id' => simpa [hfrom, Except.toOption] using hread
  have hbase : id.base = base := by simpa [belongsToBase] using hbase
  refine ⟨hbase, hok, ?_⟩
  unfold fromStr at hok
  split at hok
  · cases hok
  · next name digits hsplit =>
    split at hok
    · cases hok
    split at hok
    · cases hok
    · cases hok
      obtain ⟨heq, hdigits⟩ := Text.eq_append_of_rsplitOnce? hsplit
      exact ⟨digits, hbase ▸ heq, hdigits⟩

end SequencedBigQueryTableId

open SequencedBigQueryTableId

section Names

variable {s t : TableName} {base base' : String}

lemma append_ne_base (hs : tryStringifyTableName s = .ok base)
    (ht : tryStringifyTableName t = .ok base') {digits : List Char} (hdigits : '_' ∉ digits) :
    base.toList ++ '_' :: digits ≠ base'.toList := by
  obtain ⟨⟨hne, hhead⟩, htext⟩ := tryStringifyTableName_eq_ok hs
  obtain ⟨⟨-, hhead'⟩, htext'⟩ := tryStringifyTableName_eq_ok ht
  rw [← Text.head?_doubled '_'] at hhead hhead'
  have hne : Text.doubled '_' s.name.toList ≠ [] := fun h =>
    hne (Text.doubled_injective '_' (by simpa using h))
  intro h
  rw [htext, htext', List.append_assoc, List.cons_append] at h
  -- the schemas end at the first single underscore of both sides; the suffix brings a second one
  have hstart : (Text.doubled '_' s.name.toList ++ '_' :: digits).head? ≠ some '_' := by
    rwa [List.head?_append_of_ne_nil _ hne]
  obtain ⟨-, hrest⟩ := Text.doubled_append_inj hstart hhead' h
  exact Text.doubled_append_ne (fun h => hdigits (List.mem_of_mem_head? h)) _ hrest

lemma base_ne_nil (hs : tryStringifyTableName s = .ok base) : base.toList ≠ [] := by
  rw [(tryStringifyTableName_eq_ok hs).2]
  simp

lemma display_inj (hs : tryStringifyTableName s = .ok base)
    (ht : tryStringifyTableName t = .ok base') {m n : Fin (2 ^ 64)}
    (h : display ⟨base.toList, m⟩ = display ⟨base'.toList, n⟩) : s = t ∧ m = n := by
  have hread := @fromStr_display ⟨base.toList, m⟩ (base_ne_nil hs)
  rw [h, @fromStr_display ⟨base'.toList, n⟩ (base_ne_nil ht)] at hread
  obtain ⟨hbase, rfl⟩ : base'.toList = base.toList ∧ n = m := by simpa using hread
  obtain rfl := String.toList_inj.1 hbase
  obtain ⟨hschema, hname⟩ := eq_of_tryStringifyTableName hs ht
  refine ⟨?_, rfl⟩
  cases s
  cases t
  simp_all

end Names

/-- The names of all generations of all accepted tables are read back, differ from one another and
from every base name, and among them a base table finds its own generations only. -/
theorem sequenced_names_disjoint {s t : TableName} {base base' : String}
    (hs : tryStringifyTableName s = .ok base) (ht : tryStringifyTableName t = .ok base')
    (m n : Fin (2 ^ 64)) :
    fromStr (display ⟨base.toList, m⟩) = .ok ⟨base.toList, m⟩ ∧
      (display ⟨base.toList, m⟩ = display ⟨base'.toList, n⟩ → s = t ∧ m = n) ∧
      display ⟨base.toList, m⟩ ≠ base'.toList ∧
      (∀ id, parseForBase (display ⟨base.toList, m⟩) base'.toList = some id →
        s = t ∧ id = ⟨base.toList, m⟩) ∧
      parseForBase base.toList base'.toList = none := by
  have hread := @fromStr_display ⟨base.toList, m⟩ (base_ne_nil hs)
  refine ⟨hread, display_inj hs ht, append_ne_base hs ht (notMem_render _), fun id hid => ?_, ?_⟩
  · obtain ⟨hbase, hok, -⟩ := exists_of_parseForBase hid
    obtain rfl : id = ⟨base.toList, m⟩ := Except.ok.inj (hok.symm.trans hread)
    obtain rfl := String.toList_inj.1 hbase
    exact ⟨(display_inj (m := m) (n := m) hs ht rfl).1, rfl⟩
  · by_contra hsome
    obtain ⟨id, hid⟩ := Option.ne_none_iff_exists'.1 hsome
    obtain ⟨-, -, digits, heq, hdigits⟩ := exists_of_parseForBase hid
    exact append_ne_base ht hs hdigits heq.symm

/-- A table whose name is a number does not meet the generations of another. -/
theorem sequenced_names_disjoint_digits :
    tryStringifyTableName ⟨"a", "1"⟩ = .ok "a_1" ∧
      tryStringifyTableName ⟨"a_1", "b"⟩ = .ok "a__1_b" ∧
      display ⟨"a_1".toList, 0⟩ ≠ "a__1_b".toList :=
  have hs : tryStringifyTableName ⟨"a", "1"⟩ = .ok "a_1" := by decide +kernel
  have ht : tryStringifyTableName ⟨"a_1", "b"⟩ = .ok "a__1_b" := by decide +kernel
  ⟨hs, ht, (sequenced_names_disjoint hs ht 0 0).2.2.1⟩

end Etl.BigQuery
