import Etl.Schema.Identity

/-!
# What a source table holds

The rows of a source table, the changes to them and the events sent for a change. An old row is sent
as far as the replica identity describes it; an update without one has not changed its identity.
-/

namespace Etl

abbrev SourceRows := List (Option String) → Option TableRow

def SourceRows.ofRows (schema : ReplicatedTableSchema) (rows : List TableRow) : SourceRows :=
  fun key => rows.find? fun row => schema.primaryKeyOf row = key

inductive RowChange where
  | insert (row : TableRow)
  | update (old new : TableRow)
  | delete (old : TableRow)
deriving DecidableEq

namespace RowChange

variable (schema : ReplicatedTableSchema)

def apply (rows : SourceRows) : RowChange → SourceRows
  | .insert row => Function.update rows (schema.primaryKeyOf row) (some row)
  | .update old new =>
    Function.update (Function.update rows (schema.primaryKeyOf old) none)
      (schema.primaryKeyOf new) (some new)
  | .delete old => Function.update rows (schema.primaryKeyOf old) none

/-- The table has the row to replace, and room for the new one. -/
def Allowed (rows : SourceRows) : RowChange → Prop
  | .insert row => schema.HasWidth row ∧ rows (schema.primaryKeyOf row) = none
  | .update old new =>
    schema.HasWidth old ∧ schema.HasWidth new ∧ rows (schema.primaryKeyOf old) = some old ∧
      (schema.primaryKeyOf new = schema.primaryKeyOf old ∨ rows (schema.primaryKeyOf new) = none)
  | .delete old => schema.HasWidth old ∧ rows (schema.primaryKeyOf old) = some old

instance (rows : SourceRows) : (change : RowChange) → Decidable (change.Allowed schema rows)
  | .insert _ => inferInstanceAs (Decidable (_ ∧ _))
  | .update _ _ => inferInstanceAs (Decidable (_ ∧ _ ∧ _ ∧ (_ ∨ _)))
  | .delete _ => inferInstanceAs (Decidable (_ ∧ _))

def AllAllowed (rows : SourceRows) : List RowChange → Prop
  | [] => True
  | change :: changes => change.Allowed schema rows ∧ AllAllowed (change.apply schema rows) changes

instance decidableAllAllowed : (rows : SourceRows) → (changes : List RowChange) →
    Decidable (AllAllowed schema rows changes)
  | _, [] => isTrue trivial
  | rows, change :: changes =>
    @instDecidableAnd _ _ _ (decidableAllAllowed (change.apply schema rows) changes)

def KeepsKey : RowChange → Prop
  | .update old new => schema.primaryKeyOf new = schema.primaryKeyOf old
  | _ => True

end RowChange

variable {schema : ReplicatedTableSchema}

lemma RowChange.keyed_apply {rows : SourceRows}
    (change : RowChange) (h : ∀ key row, rows key = some row → schema.primaryKeyOf row = key) :
    ∀ key row, change.apply schema rows key = some row → schema.primaryKeyOf row = key := by
  have hset : ∀ {rows : SourceRows} (new : TableRow),
      (∀ key row, rows key = some row → schema.primaryKeyOf row = key) → ∀ key row,
      Function.update rows (schema.primaryKeyOf new) (some new) key = some row →
        schema.primaryKeyOf row = key := by
    intro rows new h key row hrow
    by_cases hkey : key = schema.primaryKeyOf new
    · subst hkey
      rw [Function.update_self] at hrow
      cases hrow
      rfl
    · rw [Function.update_of_ne hkey] at hrow
      exact h key row hrow
  have hremove : ∀ old key row, Function.update rows old none key = some row →
      schema.primaryKeyOf row = key := by
    intro old key row hrow
    by_cases hkey : key = old
    · simp [hkey] at hrow
    · rw [Function.update_of_ne hkey] at hrow
      exact h key row hrow
  cases change with
  | insert row => exact hset row h
  | update old new => exact hset new (hremove _)
  | delete old => exact hremove _

lemma RowChange.AllAllowed.getElem? {rows : SourceRows}
    {changes : List RowChange} (h : AllAllowed schema rows changes) {n : Nat} {change : RowChange}
    (hget : changes[n]? = some change) :
    change.Allowed schema ((changes.take n).foldl (RowChange.apply schema) rows) := by
  induction changes generalizing rows n with
  | nil => simp at hget
  | cons first changes ih =>
    cases n with
    | zero =>
      cases hget
      exact h.1
    | succ n => exact ih h.2 hget

/-! ## Events of a change -/

inductive OldImage (schema : ReplicatedTableSchema) (old : TableRow) : OldTableRow → Prop
  | key : OldImage schema old (.key ⟨schema.identityOf old⟩)
  | full : OldImage schema old (.full old)

/-- A new row is sent in full, or in part where large values have not changed. -/
inductive Emits (schema : ReplicatedTableSchema) : RowChange → Event → Prop
  | insert (commitLsn : PgLsn) (txOrdinal : Nat) (row : TableRow) :
      Emits schema (.insert row) (.insert commitLsn txOrdinal schema row)
  | update (commitLsn : PgLsn) (txOrdinal : Nat) (old new : TableRow) (updated : UpdatedTableRow)
      (image : Option OldTableRow) :
      (∀ row, updated = .full row → row = new) →
      (∀ oldRow, image = some oldRow → OldImage schema old oldRow) →
      (image = none → schema.identityOf old = schema.identityOf new) →
      Emits schema (.update old new) (.update commitLsn txOrdinal schema updated image)
  | delete (commitLsn : PgLsn) (txOrdinal : Nat) (old : TableRow) (image : OldTableRow) :
      OldImage schema old image →
      Emits schema (.delete old) (.delete commitLsn txOrdinal schema (some image))

def EventSequenceKey.Before (a b : EventSequenceKey) : Prop :=
  a.commitLsn < b.commitLsn ∨ a.commitLsn = b.commitLsn ∧ a.txOrdinal < b.txOrdinal

instance (a b : EventSequenceKey) : Decidable (a.Before b) :=
  inferInstanceAs (Decidable (_ ∨ _))

def rowsAfterChanges (schema : ReplicatedTableSchema) (copied : List TableRow)
    (changes : List RowChange) : SourceRows :=
  changes.foldl (RowChange.apply schema) (SourceRows.ofRows schema copied)

/-- The rows of a copy, and the later changes with their events. A destination takes a table only
with all its key columns, so these tell rows apart. -/
structure SourceHistory where
  schema : ReplicatedTableSchema
  copied : List TableRow
  changes : List (RowChange × Event)
  fits : schema.Fits
  ordinals : (schema.columnSchemas.map (·.ordinalPosition)).Nodup
  copied_width : ∀ row ∈ copied, schema.HasWidth row
  copied_keys : (copied.map schema.primaryKeyOf).Nodup
  allowed : RowChange.AllAllowed schema (SourceRows.ofRows schema copied) (changes.map Prod.fst)
  emitted : ∀ p ∈ changes, Emits schema p.1 p.2
  increasing : (changes.filterMap (·.2.eventSequenceKey?)).Pairwise EventSequenceKey.Before
  bounded : ∀ key ∈ changes.filterMap (·.2.eventSequenceKey?), key.txOrdinal < 2 ^ 64
  positive : ∀ key ∈ changes.filterMap (·.2.eventSequenceKey?), EventSequenceKey.Before ⟨0, 0⟩ key

namespace SourceHistory

variable (history : SourceHistory)

def events : List Event := history.changes.map Prod.snd

def rowsAfter (n : Nat) : SourceRows :=
  rowsAfterChanges history.schema history.copied ((history.changes.take n).map Prod.fst)

variable {history}

lemma rowsAfter_zero : history.rowsAfter 0 = SourceRows.ofRows history.schema history.copied :=
  rfl

variable {n : Nat} {change : RowChange} {event : Event}

lemma rowsAfter_succ (h : history.changes[n]? = some (change, event)) :
    history.rowsAfter (n + 1) = change.apply history.schema (history.rowsAfter n) := by
  rw [rowsAfter, List.take_add_one, h]
  simp [rowsAfterChanges, rowsAfter]

lemma allowed_getElem? (h : history.changes[n]? = some (change, event)) :
    change.Allowed history.schema (history.rowsAfter n) := by
  have hget : (history.changes.map Prod.fst)[n]? = some change := by simp [h]
  simpa [rowsAfter, rowsAfterChanges, List.map_take] using
    RowChange.AllAllowed.getElem? history.allowed hget

lemma primaryKeyOf_of_rowsAfter {key : List (Option String)} {row : TableRow}
    (h : history.rowsAfter n key = some row) : history.schema.primaryKeyOf row = key := by
  have hkeyed : ∀ (changes : List RowChange) (rows : SourceRows),
      (∀ key row, rows key = some row → history.schema.primaryKeyOf row = key) →
      ∀ key row, changes.foldl (RowChange.apply history.schema) rows key = some row →
        history.schema.primaryKeyOf row = key := by
    intro changes
    induction changes with
    | nil => exact fun rows hrows => hrows
    | cons change changes ih => exact fun rows hrows => ih _ (change.keyed_apply hrows)
  refine hkeyed _ _ (fun key row hrow => ?_) key row h
  simpa using List.find?_some hrow

variable {p : RowChange × Event}

lemma exists_allowed (h : p ∈ history.changes) : ∃ rows, p.1.Allowed history.schema rows := by
  obtain ⟨n, hn⟩ := List.getElem?_of_mem h
  exact ⟨_, allowed_getElem? hn⟩

lemma mem_sequenceKeys {key : EventSequenceKey} (hp : p ∈ history.changes)
    (hkey : p.2.eventSequenceKey? = some key) :
    key ∈ history.changes.filterMap (·.2.eventSequenceKey?) :=
  List.mem_filterMap.2 ⟨p, hp, hkey⟩

lemma before_of_mem_take {earlier : RowChange × Event} {key key' : EventSequenceKey}
    (h : history.changes[n]? = some p) (hearlier : earlier ∈ history.changes.take n)
    (hkey' : earlier.2.eventSequenceKey? = some key') (hkey : p.2.eventSequenceKey? = some key) :
    key'.Before key := by
  obtain ⟨hn, hget⟩ := List.getElem?_eq_some_iff.1 h
  have hincreasing := history.increasing
  rw [← List.take_append_drop n history.changes, List.filterMap_append,
    List.pairwise_append] at hincreasing
  refine hincreasing.2.2 key' (List.mem_filterMap.2 ⟨earlier, hearlier, hkey'⟩) key ?_
  refine List.mem_filterMap.2 ⟨p, ?_, hkey⟩
  rw [← List.getElem_cons_drop hn, hget]
  exact List.mem_cons_self

lemma emits_getElem?
    (h : history.changes[n]? = some (change, event)) : Emits history.schema change event :=
  history.emitted _ (List.mem_of_getElem? h)

end SourceHistory

lemma Emits.exists_eventSequenceKey? {change : RowChange}
    {event : Event} (h : Emits schema change event) : ∃ key, event.eventSequenceKey? = some key := by
  cases h <;> exact ⟨_, rfl⟩

def sampleTable : ReplicatedTableSchema where
  tableSchema :=
    { id := 1
      name := ⟨"public", "users"⟩
      columnSchemas :=
        [⟨"id", .text, -1, 1, some 1, false, none⟩, ⟨"name", .text, -1, 2, none, true, none⟩]
      snapshotId := ⟨0, 0⟩ }
  replicationMask := ⟨[1, 1]⟩
  identityMask := ⟨[1, 0]⟩

lemma nodup_ordinals_sampleTable :
    (sampleTable.columnSchemas.map (·.ordinalPosition)).Nodup := by
  decide

lemma fits_sampleTable : sampleTable.Fits :=
  ⟨rfl, rfl, by simp [sampleTable], by simp [sampleTable], by simp [sampleTable]⟩

lemma hasWidth_sampleRow :
    ∀ row ∈ [(⟨[some "1", some "a"]⟩ : TableRow)], sampleTable.HasWidth row := by
  decide

lemma nodup_keys_sampleRow :
    ([(⟨[some "1", some "a"]⟩ : TableRow)].map sampleTable.primaryKeyOf).Nodup := by
  decide

end Etl
