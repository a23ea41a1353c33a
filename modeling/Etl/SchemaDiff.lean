import Etl.Schema

/-!
# Schema differences

A column is identified by its ordinal position, so that it may be renamed. Both versions are put
into ordinal order and merged once.
-/

namespace Etl

inductive ColumnNameMapping where
  | identity
  | unicodeLowercase
  | asciiLowercase
deriving DecidableEq

structure NameRules where
  mapping : ColumnNameMapping
  toLowercase : String → String

namespace NameRules

variable (rules : NameRules)

def mapName (name : String) : String :=
  match rules.mapping with
  | .identity => name
  | .unicodeLowercase => rules.toLowercase name
  | .asciiLowercase => name.map Char.toLower

def equivalent (left right : String) : Bool := rules.mapName left = rules.mapName right

def mapColumnSchema (columnSchema : ColumnSchema) : ColumnSchema :=
  { columnSchema with name := rules.mapName columnSchema.name }

end NameRules

/-! ## Changes -/

structure ColumnMetadataChange where
  beforeColumnSchema : ColumnSchema
  afterColumnSchema : ColumnSchema
deriving DecidableEq

namespace ColumnMetadataChange

variable (change : ColumnMetadataChange)

def nameChanged : Bool := change.beforeColumnSchema.name ≠ change.afterColumnSchema.name

def dataTypeChanged : Bool :=
  change.beforeColumnSchema.typ ≠ change.afterColumnSchema.typ ||
    change.beforeColumnSchema.modifier ≠ change.afterColumnSchema.modifier

def nullabilityChanged : Bool :=
  change.beforeColumnSchema.nullable ≠ change.afterColumnSchema.nullable

def defaultChanged : Bool :=
  change.beforeColumnSchema.defaultExpression ≠ change.afterColumnSchema.defaultExpression

def primaryKeyChanged : Bool :=
  change.beforeColumnSchema.primaryKeyOrdinalPosition ≠
    change.afterColumnSchema.primaryKeyOrdinalPosition

def hasChanges : Bool :=
  change.nameChanged || change.dataTypeChanged || change.nullabilityChanged ||
    change.defaultChanged || change.primaryKeyChanged

def between (before after : ColumnSchema) : Option ColumnMetadataChange :=
  if hasChanges ⟨before, after⟩ then some ⟨before, after⟩ else none

lemma between_eq_some {before after : ColumnSchema} {change : ColumnMetadataChange}
    (h : between before after = some change) : change = ⟨before, after⟩ := by
  unfold between at h
  split at h
  · exact (Option.some.inj h).symm
  · cases h

lemma eq_of_between_eq_none {before after : ColumnSchema}
    (h : between before after = none) (hordinal : before.ordinalPosition = after.ordinalPosition) :
    before = after := by
  unfold between at h
  split at h
  · cases h
  · rename_i hsame
    simp only [hasChanges, nameChanged, dataTypeChanged, nullabilityChanged, defaultChanged,
      primaryKeyChanged, Bool.or_eq_true, decide_eq_true_eq, not_or, ne_eq, not_not] at hsame
    obtain ⟨⟨⟨⟨hname, htyp, hmodifier⟩, hnullable⟩, hdefault⟩, hkey⟩ := hsame
    cases before
    cases after
    simp_all

end ColumnMetadataChange

inductive ColumnPresenceChangeReason where
  | tableSchema
  | replicationMask
deriving DecidableEq

structure ColumnAddition where
  afterColumnSchema : ColumnSchema
  reason : ColumnPresenceChangeReason
deriving DecidableEq

structure ColumnRemoval where
  beforeColumnSchema : ColumnSchema
  reason : ColumnPresenceChangeReason
deriving DecidableEq

structure SchemaDiff where
  addedColumns : List ColumnAddition
  droppedColumns : List ColumnRemoval
  alteredColumns : List ColumnMetadataChange
deriving DecidableEq

/-! ## The difference of two versions -/

def ordinals (columns : List ColumnSchema) : List Int := columns.map (·.ordinalPosition)

def sortByOrdinal (columns : List ColumnSchema) : List ColumnSchema :=
  if columns.Pairwise (fun a b => a.ordinalPosition ≤ b.ordinalPosition) then columns
  else columns.mergeSort fun a b => decide (a.ordinalPosition ≤ b.ordinalPosition)

def presenceChangeReason (tableOrdinals : List Int) (column : ColumnSchema) :
    ColumnPresenceChangeReason :=
  if column.ordinalPosition ∈ tableOrdinals then .replicationMask else .tableSchema

def mergeColumns (beforeTableOrdinals afterTableOrdinals : List Int) :
    List ColumnSchema → List ColumnSchema → SchemaDiff
  | [], after =>
    ⟨after.map fun column => ⟨column, presenceChangeReason beforeTableOrdinals column⟩, [], []⟩
  | before, [] =>
    ⟨[], before.map fun column => ⟨column, presenceChangeReason afterTableOrdinals column⟩, []⟩
  | b :: before, a :: after =>
    if b.ordinalPosition < a.ordinalPosition then
      let rest := mergeColumns beforeTableOrdinals afterTableOrdinals before (a :: after)
      { rest with
        droppedColumns := ⟨b, presenceChangeReason afterTableOrdinals b⟩ :: rest.droppedColumns }
    else if a.ordinalPosition < b.ordinalPosition then
      let rest := mergeColumns beforeTableOrdinals afterTableOrdinals (b :: before) after
      { rest with
        addedColumns := ⟨a, presenceChangeReason beforeTableOrdinals a⟩ :: rest.addedColumns }
    else
      let rest := mergeColumns beforeTableOrdinals afterTableOrdinals before after
      { rest with
        alteredColumns := (ColumnMetadataChange.between b a).toList ++ rest.alteredColumns }
termination_by before after => before.length + after.length

def ReplicatedTableSchema.diff (before after : ReplicatedTableSchema) : SchemaDiff :=
  mergeColumns (ordinals before.tableSchema.columnSchemas)
    (ordinals after.tableSchema.columnSchemas)
    (sortByOrdinal before.columnSchemas) (sortByOrdinal after.columnSchemas)

/-! ## What the difference consists of -/

lemma perm_sortByOrdinal (columns : List ColumnSchema) :
    (sortByOrdinal columns).Perm columns := by
  unfold sortByOrdinal
  split
  · exact .refl _
  · exact List.mergeSort_perm ..

lemma pairwise_sortByOrdinal {columns : List ColumnSchema} (h : (ordinals columns).Nodup) :
    (sortByOrdinal columns).Pairwise fun a b => a.ordinalPosition < b.ordinalPosition := by
  have hle : (sortByOrdinal columns).Pairwise
      fun a b => a.ordinalPosition ≤ b.ordinalPosition := by
    unfold sortByOrdinal
    split
    · assumption
    · have htrans : ∀ a b c : ColumnSchema, decide (a.ordinalPosition ≤ b.ordinalPosition) →
          decide (b.ordinalPosition ≤ c.ordinalPosition) →
            decide (a.ordinalPosition ≤ c.ordinalPosition) := by
        simp only [decide_eq_true_eq]
        omega
      have htotal : ∀ a b : ColumnSchema, decide (a.ordinalPosition ≤ b.ordinalPosition) ||
          decide (b.ordinalPosition ≤ a.ordinalPosition) := by
        simp only [Bool.or_eq_true, decide_eq_true_eq]
        omega
      simpa using List.pairwise_mergeSort htrans htotal columns
  have hnodup : (ordinals (sortByOrdinal columns)).Nodup :=
    ((perm_sortByOrdinal columns).map _).nodup_iff.2 h
  have hne := List.pairwise_map.1 hnodup
  exact (hle.and hne).imp fun hab => lt_of_le_of_ne hab.1 hab.2

section Merge

abbrev InOrder (columns : List ColumnSchema) : Prop :=
  columns.Pairwise fun a b => a.ordinalPosition < b.ordinalPosition

variable {beforeTable afterTable : List Int} {before after : List ColumnSchema}

lemma notMem_ordinals_of_lt {columns : List ColumnSchema} {ordinal : Int}
    (h : ∀ c ∈ columns, ordinal < c.ordinalPosition) : ordinal ∉ ordinals columns := by
  simp only [ordinals, List.mem_map, not_exists, not_and]
  intro c hc heq
  exact absurd (h c hc) (by omega)

lemma notMem_ordinals_cons {a : ColumnSchema} {columns : List ColumnSchema}
    (h : InOrder (a :: columns)) {ordinal : Int} (hlt : ordinal < a.ordinalPosition) :
    ordinal ∉ ordinals (a :: columns) := by
  refine notMem_ordinals_of_lt fun c hc => ?_
  rcases List.mem_cons.1 hc with rfl | hc
  · exact hlt
  · exact hlt.trans ((List.pairwise_cons.1 h).1 c hc)

lemma droppedColumns_mergeColumns (hbefore : InOrder before) (hafter : InOrder after) :
    (mergeColumns beforeTable afterTable before after).droppedColumns.map (·.beforeColumnSchema) =
      before.filter fun b => b.ordinalPosition ∉ ordinals after := by
  fun_induction mergeColumns beforeTable afterTable before after with
  | case1 => rfl
  | case2 before => simp [ordinals, Function.comp_def]
  | case3 b before a after hlt rest ih =>
    have hnot := notMem_ordinals_cons hafter hlt
    rw [List.filter_cons_of_pos (by simpa using hnot), ← ih hbefore.of_cons hafter]
    rfl
  | case4 b before a after hnlt hlt rest ih =>
    rw [ih hbefore hafter.of_cons]
    refine List.filter_congr fun c hc => ?_
    have hne : c.ordinalPosition ≠ a.ordinalPosition := by
      intro heq
      exact notMem_ordinals_cons hbefore hlt (heq ▸ List.mem_map_of_mem hc)
    simp [ordinals, hne]
  | case5 b before a after hnlt hngt rest ih =>
    have heq : b.ordinalPosition = a.ordinalPosition := by omega
    rw [List.filter_cons_of_neg (by simp [ordinals, heq]), ih hbefore.of_cons hafter.of_cons]
    refine List.filter_congr fun c hc => ?_
    have hne : c.ordinalPosition ≠ a.ordinalPosition := by
      have := (List.pairwise_cons.1 hbefore).1 c hc
      omega
    simp [ordinals, hne]

lemma addedColumns_mergeColumns (hbefore : InOrder before) (hafter : InOrder after) :
    (mergeColumns beforeTable afterTable before after).addedColumns.map (·.afterColumnSchema) =
      after.filter fun a => a.ordinalPosition ∉ ordinals before := by
  fun_induction mergeColumns beforeTable afterTable before after with
  | case1 after => simp [ordinals, Function.comp_def]
  | case2 => rfl
  | case3 b before a after hlt rest ih =>
    rw [ih hbefore.of_cons hafter]
    refine List.filter_congr fun c hc => ?_
    have hne : c.ordinalPosition ≠ b.ordinalPosition := by
      intro heq
      exact notMem_ordinals_cons hafter hlt (heq ▸ List.mem_map_of_mem hc)
    simp [ordinals, hne]
  | case4 b before a after hnlt hlt rest ih =>
    have hnot := notMem_ordinals_cons hbefore hlt
    rw [List.filter_cons_of_pos (by simpa using hnot), ← ih hbefore hafter.of_cons]
    rfl
  | case5 b before a after hnlt hngt rest ih =>
    have heq : a.ordinalPosition = b.ordinalPosition := by omega
    rw [List.filter_cons_of_neg (by simp [ordinals, heq]), ih hbefore.of_cons hafter.of_cons]
    refine List.filter_congr fun c hc => ?_
    have hne : c.ordinalPosition ≠ b.ordinalPosition := by
      have := (List.pairwise_cons.1 hafter).1 c hc
      omega
    simp [ordinals, hne]

lemma mem_alteredColumns_mergeColumns (hbefore : InOrder before) (hafter : InOrder after)
    {change : ColumnMetadataChange} :
    change ∈ (mergeColumns beforeTable afterTable before after).alteredColumns ↔
      ∃ b ∈ before, ∃ a ∈ after, b.ordinalPosition = a.ordinalPosition ∧
        ColumnMetadataChange.between b a = some change := by
  fun_induction mergeColumns beforeTable afterTable before after with
  | case1 => simp
  | case2 => simp
  | case3 b before a after hlt rest ih =>
    rw [show (_ : SchemaDiff).alteredColumns = rest.alteredColumns from rfl,
      ih hbefore.of_cons hafter]
    have hnot := notMem_ordinals_cons hafter hlt
    simp only [ordinals, List.mem_map, not_exists, not_and] at hnot
    constructor
    · rintro ⟨c, hc, h⟩
      exact ⟨c, List.mem_cons_of_mem _ hc, h⟩
    · rintro ⟨c, hc, d, hd, heq, h⟩
      rcases List.mem_cons.1 hc with rfl | hc
      · exact absurd heq.symm (hnot d hd)
      · exact ⟨c, hc, d, hd, heq, h⟩
  | case4 b before a after hnlt hlt rest ih =>
    rw [show (_ : SchemaDiff).alteredColumns = rest.alteredColumns from rfl,
      ih hbefore hafter.of_cons]
    have hnot := notMem_ordinals_cons hbefore hlt
    simp only [ordinals, List.mem_map, not_exists, not_and] at hnot
    constructor
    · rintro ⟨c, hc, d, hd, h⟩
      exact ⟨c, hc, d, List.mem_cons_of_mem _ hd, h⟩
    · rintro ⟨c, hc, d, hd, heq, h⟩
      rcases List.mem_cons.1 hd with rfl | hd
      · exact absurd heq (hnot c hc)
      · exact ⟨c, hc, d, hd, heq, h⟩
  | case5 b before a after hnlt hngt rest ih =>
    have heq : b.ordinalPosition = a.ordinalPosition := by omega
    simp only [List.mem_append, Option.mem_toList, ih hbefore.of_cons hafter.of_cons, rest]
    constructor
    · rintro (h | ⟨c, hc, d, hd, h⟩)
      · exact ⟨b, List.mem_cons_self, a, List.mem_cons_self, heq, h⟩
      · exact ⟨c, List.mem_cons_of_mem _ hc, d, List.mem_cons_of_mem _ hd, h⟩
    · rintro ⟨c, hc, d, hd, hcd, h⟩
      have hb := (List.pairwise_cons.1 hbefore).1
      have ha := (List.pairwise_cons.1 hafter).1
      rcases List.mem_cons.1 hc with rfl | hc <;> rcases List.mem_cons.1 hd with rfl | hd
      · exact .inl h
      · exact absurd (ha d hd) (by omega)
      · exact absurd (hb c hc) (by omega)
      · exact .inr ⟨c, hc, d, hd, hcd, h⟩

lemma sublist_alteredColumns_mergeColumns :
    ((mergeColumns beforeTable afterTable before after).alteredColumns.map
      (·.beforeColumnSchema)).Sublist before := by
  fun_induction mergeColumns beforeTable afterTable before after with
  | case1 => exact .slnil
  | case2 before => exact List.nil_sublist before
  | case3 b before a after hlt rest ih => exact ih.cons b
  | case4 b before a after hnlt hlt rest ih => exact ih
  | case5 b before a after hnlt hngt rest ih =>
    rcases hchange : ColumnMetadataChange.between b a with _ | change
    · exact ih.cons b
    · rw [ColumnMetadataChange.between_eq_some hchange]
      exact ih.cons_cons b

end Merge

end Etl
