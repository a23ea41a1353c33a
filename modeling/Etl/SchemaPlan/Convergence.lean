import Etl.SchemaPlan.Renames

/-!
# Plans converge

`Describes` says what a difference means for the columns of a destination. The four phases of a plan
are followed one after the other.
-/

namespace Etl

/-- A difference between the columns `old` and `new` of a destination. -/
structure Describes (rules : NameRules) (diff : SchemaDiff) (old new : Columns) : Prop where
  dropped : ∀ d ∈ diff.droppedColumns,
    old.get? d.beforeColumnSchema.ordinalPosition = some (rules.mapColumnSchema d.beforeColumnSchema) ∧
      new.get? d.beforeColumnSchema.ordinalPosition = none
  nodup_dropped : (diff.droppedColumns.map (·.beforeColumnSchema.ordinalPosition)).Nodup
  mem_dropped : ∀ {o}, (old.get? o).isSome → new.get? o = none →
    o ∈ diff.droppedColumns.map (·.beforeColumnSchema.ordinalPosition)
  added : ∀ a ∈ diff.addedColumns,
    old.get? a.afterColumnSchema.ordinalPosition = none ∧
      new.get? a.afterColumnSchema.ordinalPosition = some (rules.mapColumnSchema a.afterColumnSchema)
  nodup_added : (diff.addedColumns.map (·.afterColumnSchema.ordinalPosition)).Nodup
  mem_added : ∀ {o}, old.get? o = none → (new.get? o).isSome →
    o ∈ diff.addedColumns.map (·.afterColumnSchema.ordinalPosition)
  altered : ∀ c ∈ diff.alteredColumns,
    old.get? c.beforeColumnSchema.ordinalPosition = some (rules.mapColumnSchema c.beforeColumnSchema) ∧
      new.get? c.beforeColumnSchema.ordinalPosition = some (rules.mapColumnSchema c.afterColumnSchema)
  nodup_altered : (diff.alteredColumns.map (·.beforeColumnSchema.ordinalPosition)).Nodup
  unaltered : ∀ {o b a}, old.get? o = some b → new.get? o = some a →
    o ∉ diff.alteredColumns.map (·.beforeColumnSchema.ordinalPosition) → b = a

def renamedColumns (old new : Columns) : Columns :=
  (old.retain fun o _ => (new.get? o).isSome).mapValues fun o c =>
    { c with name := ((new.get? o).map (·.name)).getD c.name }

section Renamed

variable {old new : Columns} {o : Int} {b a c : ColumnSchema}

lemma get?_renamedColumns_eq_some_iff :
    (renamedColumns old new).get? o = some c ↔
      ∃ b a, old.get? o = some b ∧ new.get? o = some a ∧ c = { b with name := a.name } := by
  rw [renamedColumns, OrderedMap.get?_mapValues, OrderedMap.get?_retain]
  rcases old.get? o with _ | b <;> rcases new.get? o with _ | a <;>
    simp [Option.filter, eq_comm]

lemma get?_renamedColumns_of_some (hb : old.get? o = some b) (ha : new.get? o = some a) :
    (renamedColumns old new).get? o = some { b with name := a.name } :=
  get?_renamedColumns_eq_some_iff.2 ⟨b, a, hb, ha, rfl⟩

lemma sound_renamedColumns (hold : old.Sound) (hnew : new.Sound) :
    (renamedColumns old new).Sound where
  keyed {o c} h := by
    obtain ⟨b, a, hb, -, rfl⟩ := get?_renamedColumns_eq_some_iff.1 h
    have hkey := hold.keyed hb
    exact hkey
  distinct {o o' c c'} h h' hname := by
    obtain ⟨b, a, -, ha, rfl⟩ := get?_renamedColumns_eq_some_iff.1 h
    obtain ⟨b', a', -, ha', rfl⟩ := get?_renamedColumns_eq_some_iff.1 h'
    exact hnew.distinct ha ha' hname

end Renamed

/-! ## Drops -/

namespace Columns

variable {columns : Columns} {c : ColumnSchema}

lemma apply_drop (hget : columns.get? c.ordinalPosition = some c)
    (reason : ColumnPresenceChangeReason) :
    columns.apply (.dropColumn c reason) = some (columns.erase c.ordinalPosition) := by
  simp [apply, hget]

lemma Sound.erase (hsound : columns.Sound) (o : Int) : Sound (OrderedMap.erase columns o) where
  keyed {o' d} h := by
    rw [OrderedMap.get?_erase] at h
    split_ifs at h
    exact hsound.keyed h
  distinct {o₁ o₂ d d'} h h' hname := by
    rw [OrderedMap.get?_erase] at h h'
    split_ifs at h h'
    exact hsound.distinct h h' hname

lemma names_erase (hsound : columns.Sound) (hget : columns.get? c.ordinalPosition = some c) :
    names (OrderedMap.erase columns c.ordinalPosition) = columns.names.erase c.name := by
  ext name
  simp only [mem_names, Finset.mem_erase, OrderedMap.get?_erase]
  constructor
  · rintro ⟨o, d, h, rfl⟩
    split_ifs at h with ho
    exact ⟨fun heq => ho (hsound.distinct h hget heq), o, d, h, rfl⟩
  · rintro ⟨hne, o, d, h, rfl⟩
    have ho : o ≠ c.ordinalPosition := by
      rintro rfl
      rw [hget] at h
      cases h
      exact hne rfl
    exact ⟨o, d, by rw [if_neg ho, h], rfl⟩

end Columns

section Drops

variable {rules : NameRules} {start columns : Columns} {planner : SchemaOperationPlanner}

structure Tracks (start : Columns) (planner : SchemaOperationPlanner) (columns : Columns) : Prop where
  executed : start.applyAll planner.operations = some columns
  sound : columns.Sound
  occupied : planner.occupiedDestinationNames = columns.names

lemma Tracks.planDrops (h : Tracks start planner columns) {drops : List ColumnRemoval}
    (hget : ∀ d ∈ drops, columns.get? d.beforeColumnSchema.ordinalPosition =
      some (rules.mapColumnSchema d.beforeColumnSchema))
    (hnodup : (drops.map (·.beforeColumnSchema.ordinalPosition)).Nodup) :
    ∃ columns', Tracks start (planner.planDrops rules drops) columns' ∧
      (planner.planDrops rules drops).reservedDestinationNames = planner.reservedDestinationNames ∧
      ∀ o, columns'.get? o =
        if o ∈ drops.map (·.beforeColumnSchema.ordinalPosition) then none else columns.get? o := by
  induction drops generalizing planner columns with
  | nil => exact ⟨columns, h, rfl, fun o => by simp⟩
  | cons d drops ih =>
    obtain ⟨hd, hdrops⟩ := List.nodup_cons.1 hnodup
    have hhead := hget d List.mem_cons_self
    set before := rules.mapColumnSchema d.beforeColumnSchema with hbefore
    have hordinal : before.ordinalPosition = d.beforeColumnSchema.ordinalPosition := rfl
    rw [← hordinal] at hhead
    have hstep : Tracks start
        { planner.push (.dropColumn before d.reason) with
          occupiedDestinationNames := planner.occupiedDestinationNames.erase before.name }
        (columns.erase before.ordinalPosition) :=
      { executed := Columns.applyAll_concat h.executed (Columns.apply_drop hhead d.reason)
        sound := h.sound.erase _
        occupied := by rw [Columns.names_erase h.sound hhead, ← h.occupied] }
    obtain ⟨columns', htracks, hreserved, hlookup⟩ := ih hstep (fun d' hd' => by
      rw [OrderedMap.get?_erase, if_neg]
      · exact hget d' (List.mem_cons_of_mem _ hd')
      · intro heq
        exact hd (List.mem_map.2 ⟨d', hd', heq⟩)) hdrops
    refine ⟨columns', htracks, hreserved, fun o => ?_⟩
    rw [hlookup, OrderedMap.get?_erase, hordinal]
    by_cases ho : o = d.beforeColumnSchema.ordinalPosition <;> simp [ho]

end Drops

/-! ## Renames -/

section Renames

open SchemaOperationPlanner

variable {rules : NameRules} {diff : SchemaDiff} {old new : Columns}

def renames (rules : NameRules) (changes : List ColumnMetadataChange) : List ColumnMetadataChange :=
  changes.filter fun change =>
    change.nameChanged &&
      !rules.equivalent change.beforeColumnSchema.name change.afterColumnSchema.name

lemma collectRenames_eq (changes : List ColumnMetadataChange)
    (pending : OrderedMap Int PendingRename) (waiting : OrderedMap String Int) :
    collectRenames rules changes pending waiting =
      ((renames rules changes).foldl (fun m change =>
          m.insert change.beforeColumnSchema.ordinalPosition
            ⟨rules.mapColumnSchema change.beforeColumnSchema,
              rules.mapName change.afterColumnSchema.name⟩) pending,
        (renames rules changes).foldl (fun m change =>
          m.insert (rules.mapName change.afterColumnSchema.name)
            change.beforeColumnSchema.ordinalPosition) waiting) := by
  induction changes generalizing pending waiting with
  | nil => rfl
  | cons change changes ih =>
    rw [collectRenames]
    split
    · rename_i hskip
      have hcons : renames rules (change :: changes) = renames rules changes :=
        List.filter_cons_of_neg (by revert hskip; simp; grind)
      rw [ih, hcons]
    · rename_i hkeep
      have hcons : renames rules (change :: changes) = change :: renames rules changes :=
        List.filter_cons_of_pos (by revert hkeep; simp)
      rw [ih, hcons]
      rfl

lemma mapName_eq_of_notMem_renames {changes : List ColumnMetadataChange}
    {change : ColumnMetadataChange} (hchange : change ∈ changes)
    (hnot : change ∉ renames rules changes) :
    rules.mapName change.beforeColumnSchema.name = rules.mapName change.afterColumnSchema.name := by
  by_contra hne
  refine hnot (List.mem_filter.2 ⟨hchange, ?_⟩)
  have hchanged : change.beforeColumnSchema.name ≠ change.afterColumnSchema.name := fun heq =>
    hne (congrArg rules.mapName heq)
  simp [ColumnMetadataChange.nameChanged, NameRules.equivalent, hne, hchanged]

lemma mem_alteredColumns_of_mem_renames {changes : List ColumnMetadataChange}
    {change : ColumnMetadataChange} (h : change ∈ renames rules changes) : change ∈ changes :=
  (List.mem_filter.1 h).1

lemma Describes.nodup_renames (h : Describes rules diff old new) :
    ((renames rules diff.alteredColumns).map (·.beforeColumnSchema.ordinalPosition)).Nodup :=
  h.nodup_altered.sublist (List.filter_sublist.map _)

lemma Describes.get?_collectRenames (h : Describes rules diff old new) {o : Int}
    {r : PendingRename} :
    (collectRenames rules diff.alteredColumns .empty .empty).1.get? o = some r ↔
      ∃ change ∈ renames rules diff.alteredColumns,
        change.beforeColumnSchema.ordinalPosition = o ∧
        (⟨rules.mapColumnSchema change.beforeColumnSchema,
          rules.mapName change.afterColumnSchema.name⟩ : PendingRename) = r := by
  rw [collectRenames_eq]
  exact OrderedMap.get?_foldl_insert_empty _ _ h.nodup_renames

lemma Describes.renaming (h : Describes rules diff old new) (hnew : new.Sound)
    {start columns : Columns} {planner : SchemaOperationPlanner}
    (htracks : Tracks start planner columns)
    (hreserved : old.names ∪ new.names ⊆ planner.reservedDestinationNames)
    (hcolumns : ∀ o, columns.get? o = if (new.get? o).isSome then old.get? o else none) :
    let collected := collectRenames rules diff.alteredColumns .empty .empty
    Renaming start (renamedColumns old new) collected.2
      ⟨planner, collected.1, (collected.1.retain fun _ rename =>
        rename.afterName ∉ planner.occupiedDestinationNames).mapValues fun _ _ => (), 0⟩
      columns := by
  have hmem : ∀ {change}, change ∈ renames rules diff.alteredColumns →
      change ∈ diff.alteredColumns := mem_alteredColumns_of_mem_renames
  have hordinals := h.nodup_renames
  have hnames : ((renames rules diff.alteredColumns).map
      fun change => rules.mapName change.afterColumnSchema.name).Nodup := by
    refine (List.Nodup.of_map _ hordinals).map_on fun x hx y hy heq => ?_
    have hordinal := hnew.distinct (h.altered x (hmem hx)).2 (h.altered y (hmem hy)).2 heq
    exact List.inj_on_of_nodup_map hordinals hx hy hordinal
  intro collected
  have hcollected : collected = _ := collectRenames_eq diff.alteredColumns .empty .empty
  have hpending : ∀ {o r}, collected.1.get? o = some r ↔ _ := h.get?_collectRenames
  have hwaiting : ∀ {name o}, collected.2.get? name = some o ↔
      ∃ change ∈ renames rules diff.alteredColumns,
        rules.mapName change.afterColumnSchema.name = name ∧
        change.beforeColumnSchema.ordinalPosition = o := by
    intro name o
    rw [hcollected]
    exact OrderedMap.get?_foldl_insert_empty _ _ hnames
  constructor
  case executed => exact htracks.executed
  case sound => exact htracks.sound
  case occupied => exact htracks.occupied
  case reserved =>
    refine fun name hname => hreserved ?_
    rcases Finset.mem_union.1 hname with hname | hname
    · obtain ⟨o, c, hc, rfl⟩ := Columns.mem_names.1 hname
      rw [hcolumns] at hc
      split_ifs at hc
      exact Finset.mem_union_left _ (Columns.mem_names.2 ⟨o, c, hc, rfl⟩)
    · obtain ⟨o, c, hc, rfl⟩ := Columns.mem_names.1 hname
      obtain ⟨b, a, -, ha, rfl⟩ := get?_renamedColumns_eq_some_iff.1 hc
      exact Finset.mem_union_right _ (Columns.mem_names.2 ⟨o, a, ha, rfl⟩)
  case pending =>
    intro o r hr
    obtain ⟨change, hchange, rfl, rfl⟩ := hpending.1 hr
    obtain ⟨hb, ha⟩ := h.altered change (hmem hchange)
    exact ⟨by rw [hcolumns, ha]; exact hb, get?_renamedColumns_of_some hb ha⟩
  case settled =>
    intro o hnone
    rw [hcolumns]
    rcases ha : new.get? o with _ | a
    · refine (Option.eq_none_iff_forall_ne_some.2 fun c hc => ?_).symm
      obtain ⟨-, a, -, ha', -⟩ := get?_renamedColumns_eq_some_iff.1 hc
      rw [ha] at ha'
      cases ha'
    rcases hb : old.get? o with _ | b
    · refine (Option.eq_none_iff_forall_ne_some.2 fun c hc => ?_).symm
      obtain ⟨b, -, hb', -⟩ := get?_renamedColumns_eq_some_iff.1 hc
      rw [hb] at hb'
      cases hb'
    rw [get?_renamedColumns_of_some hb ha]
    suffices hname : b.name = a.name by
      rw [← hname]
      rfl
    by_cases ho : o ∈ diff.alteredColumns.map (·.beforeColumnSchema.ordinalPosition)
    · obtain ⟨change, hchange, rfl⟩ := List.mem_map.1 ho
      have hnot : change ∉ renames rules diff.alteredColumns := fun hrename => by
        have hsome := hpending.2 ⟨change, hrename, rfl, rfl⟩
        rw [hnone] at hsome
        cases hsome
      obtain ⟨hb', ha'⟩ := h.altered change hchange
      rw [hb] at hb'
      rw [ha] at ha'
      cases hb'
      cases ha'
      exact mapName_eq_of_notMem_renames hchange hnot
    · rw [h.unaltered hb ha ho]
  case waits =>
    intro name o hname
    obtain ⟨change, hchange, rfl, rfl⟩ := hwaiting.1 hname
    obtain ⟨hb, ha⟩ := h.altered change (hmem hchange)
    exact ⟨_, get?_renamedColumns_of_some hb ha, rfl⟩
  case waited =>
    intro o r hr
    obtain ⟨change, hchange, rfl, rfl⟩ := hpending.1 hr
    exact hwaiting.2 ⟨change, hchange, rfl, rfl⟩
  case ready =>
    intro o
    rw [← htracks.occupied, OrderedMap.get?_mapValues, OrderedMap.get?_retain]
    rcases collected.1.get? o with _ | r
    · simp
    · by_cases hfree : r.afterName ∈ planner.occupiedDestinationNames <;>
        simp [Option.filter, hfree]

end Renames

/-! ## Additions -/

section Additions

variable {rules : NameRules} {columns new : Columns}

def Columns.NamedAs (columns new : Columns) : Prop :=
  ∀ {o c}, columns.get? o = some c → ∃ a, new.get? o = some a ∧ a.name = c.name

lemma namedAs_renamedColumns (old new : Columns) : (renamedColumns old new).NamedAs new := by
  intro o c h
  obtain ⟨b, a, -, ha, rfl⟩ := get?_renamedColumns_eq_some_iff.1 h
  exact ⟨a, ha, rfl⟩

lemma Columns.apply_add (hnew : new.Sound) (hnamed : columns.NamedAs new) {c : ColumnSchema}
    (hc : new.get? c.ordinalPosition = some c) (hnone : columns.get? c.ordinalPosition = none)
    (reason : ColumnPresenceChangeReason) :
    columns.apply (.addColumn c reason) = some (columns.insert c.ordinalPosition c) := by
  have hfree : c.name ∉ columns.names := by
    intro hname
    obtain ⟨o, d, hd, heq⟩ := mem_names.1 hname
    obtain ⟨a, ha, hda⟩ := hnamed hd
    obtain rfl := hnew.distinct ha hc (hda.trans heq)
    rw [hnone] at hd
    cases hd
  simp [apply, hnone, hfree]

lemma Columns.exists_applyAll_additions (hnew : new.Sound) (hnamed : columns.NamedAs new)
    {added : List ColumnAddition}
    (hadded : ∀ a ∈ added, columns.get? a.afterColumnSchema.ordinalPosition = none ∧
      new.get? a.afterColumnSchema.ordinalPosition =
        some (rules.mapColumnSchema a.afterColumnSchema))
    (hnodup : (added.map (·.afterColumnSchema.ordinalPosition)).Nodup) :
    ∃ columns', columns.applyAll (added.map fun a =>
        .addColumn (rules.mapColumnSchema a.afterColumnSchema) a.reason) = some columns' ∧
      ∀ o, columns'.get? o =
        if o ∈ added.map (·.afterColumnSchema.ordinalPosition) then new.get? o
        else columns.get? o := by
  induction added generalizing columns with
  | nil => exact ⟨columns, rfl, fun o => by simp⟩
  | cons a added ih =>
    obtain ⟨ha, hrest⟩ := List.nodup_cons.1 hnodup
    obtain ⟨hnone, hsome⟩ := hadded a List.mem_cons_self
    set after := rules.mapColumnSchema a.afterColumnSchema with hafter
    have hordinal : after.ordinalPosition = a.afterColumnSchema.ordinalPosition := rfl
    rw [← hordinal] at hnone hsome
    have hnamed' : NamedAs (columns.insert after.ordinalPosition after) new := by
      intro o c hc
      rw [OrderedMap.get?_insert] at hc
      split_ifs at hc with ho
      · cases hc
        exact ⟨after, ho ▸ hsome, rfl⟩
      · exact hnamed hc
    obtain ⟨columns', hrun, hlookup⟩ := ih hnamed' (fun a' ha' => by
      obtain ⟨hnone', hsome'⟩ := hadded a' (List.mem_cons_of_mem _ ha')
      refine ⟨?_, hsome'⟩
      rw [OrderedMap.get?_insert, if_neg, hnone']
      intro heq
      exact ha (List.mem_map.2 ⟨a', ha', heq⟩)) hrest
    refine ⟨columns', ?_, fun o => ?_⟩
    · rw [List.map_cons, applyAll_cons, apply_add hnew hnamed hsome hnone]
      exact hrun
    · rw [hlookup, OrderedMap.get?_insert, hordinal]
      by_cases ho : o = a.afterColumnSchema.ordinalPosition
      · subst ho
        simp [← hordinal, hsome]
      · simp [ho]

end Additions

/-! ## Alterations -/

section Alterations

open SchemaOperationPlanner

variable {rules : NameRules} {columns : Columns}

lemma Columns.applyAll_alteration {o : Int} {before after : ColumnSchema}
    {kind : ColumnAlterationKind} (hordinal : before.ordinalPosition = o)
    (hget : columns.get? o = some before) (hkind : kind ≠ .rename) (cond : Bool)
    (hvalid : cond → ColumnAlteration.isValid ⟨before, after, kind⟩) :
    columns.applyAll ((if cond then [⟨before, after, kind⟩] else []).map .alterColumn) =
      some (columns.insert o (if cond then after else before)) := by
  subst hordinal
  rcases cond with _ | _
  · simp only [Bool.false_eq_true, if_false, OrderedMap.insert_of_get? hget]
    rfl
  · have hordinal : before.ordinalPosition = after.ordinalPosition := by
      have hstep := hvalid rfl
      simp only [ColumnAlteration.isValid, Bool.and_eq_true, decide_eq_true_eq] at hstep
      exact hstep.1.1
    rw [hordinal] at hget ⊢
    simp only [if_true, List.map_cons, List.map_nil, applyAll_cons, apply, hvalid rfl, hordinal,
      hget, hkind, false_imp_iff, and_self]
    rfl

def alteredColumn (rules : NameRules) (change : ColumnMetadataChange) : ColumnSchema :=
  { rules.mapColumnSchema change.afterColumnSchema with
    ordinalPosition := change.beforeColumnSchema.ordinalPosition
    primaryKeyOrdinalPosition := change.beforeColumnSchema.primaryKeyOrdinalPosition }

lemma Columns.applyAll_alterationsOf {change : ColumnMetadataChange}
    (hget : columns.get? change.beforeColumnSchema.ordinalPosition =
      some (columnSchemaAfterRenames rules change)) :
    columns.applyAll ((alterationsOf rules change
        (columnSchemaAfterRenames rules change)).map .alterColumn) =
      some (columns.insert change.beforeColumnSchema.ordinalPosition
        (alteredColumn rules change)) := by
  set o := change.beforeColumnSchema.ordinalPosition
  let after := rules.mapColumnSchema change.afterColumnSchema
  let before := columnSchemaAfterRenames rules change
  let typed := { before with typ := after.typ, modifier := after.modifier }
  let before₁ := if change.dataTypeChanged then typed else before
  let nulled := { before₁ with nullable := after.nullable }
  let before₂ := if change.nullabilityChanged then nulled else before₁
  let defaulted := { before₂ with defaultExpression := after.defaultExpression }
  have hbefore₁ : before₁.ordinalPosition = o ∧
      before₁.nullable = change.beforeColumnSchema.nullable := by
    simp only [before₁]
    split <;> exact ⟨rfl, rfl⟩
  have hbefore₂ : before₂.ordinalPosition = o ∧
      before₂.defaultExpression = change.beforeColumnSchema.defaultExpression := by
    simp only [before₂, nulled, before₁]
    split <;> split <;> exact ⟨rfl, rfl⟩
  have htype : columns.applyAll
      ((if change.dataTypeChanged then [⟨before, typed, .type⟩] else []).map .alterColumn) =
        some (columns.insert o before₁) := by
    refine applyAll_alteration rfl hget (by decide) _ fun hchanged => ?_
    have hne : before ≠ typed := by
      intro heq
      have htyp : change.beforeColumnSchema.typ = change.afterColumnSchema.typ :=
        congrArg (·.typ) heq
      have hmodifier : change.beforeColumnSchema.modifier = change.afterColumnSchema.modifier :=
        congrArg (·.modifier) heq
      simp [ColumnMetadataChange.dataTypeChanged, htyp, hmodifier] at hchanged
    simp [ColumnAlteration.isValid, ColumnAlteration.expectedAfter, hne, typed]
  have hnull : applyAll (columns.insert o before₁)
      ((if change.nullabilityChanged then [⟨before₁, nulled, .nullability⟩] else []).map
        .alterColumn) = some ((columns.insert o before₁).insert o before₂) := by
    refine applyAll_alteration hbefore₁.1 (OrderedMap.get?_insert_self ..) (by decide) _
      fun hchanged => ?_
    have hne : before₁ ≠ nulled := by
      intro heq
      have hnullable : before₁.nullable = change.afterColumnSchema.nullable :=
        congrArg (·.nullable) heq
      simp [ColumnMetadataChange.nullabilityChanged, ← hbefore₁.2, hnullable] at hchanged
    simp [ColumnAlteration.isValid, ColumnAlteration.expectedAfter, hne, nulled]
  have hdefault : applyAll ((columns.insert o before₁).insert o before₂)
      ((if change.defaultChanged then [⟨before₂, defaulted, .default⟩] else []).map
        .alterColumn) = some (((columns.insert o before₁).insert o before₂).insert o
          (if change.defaultChanged then defaulted else before₂)) := by
    refine applyAll_alteration hbefore₂.1 (OrderedMap.get?_insert_self ..) (by decide) _
      fun hchanged => ?_
    have hne : before₂ ≠ defaulted := by
      intro heq
      have hexpression : before₂.defaultExpression = change.afterColumnSchema.defaultExpression :=
        congrArg (·.defaultExpression) heq
      simp [ColumnMetadataChange.defaultChanged, ← hbefore₂.2, hexpression] at hchanged
    simp [ColumnAlteration.isValid, ColumnAlteration.expectedAfter, hne, defaulted]
  have hfinal : (if change.defaultChanged then defaulted else before₂) =
      alteredColumn rules change := by
    -- a field that is not altered did not change
    simp only [defaulted, before₂, nulled, before₁, typed, before, after, alteredColumn,
      columnSchemaAfterRenames, NameRules.mapColumnSchema]
    split_ifs with hdefaultChanged hnullChanged hdataChanged <;>
      simp_all [ColumnMetadataChange.defaultChanged, ColumnMetadataChange.nullabilityChanged,
        ColumnMetadataChange.dataTypeChanged]
  change columns.applyAll (List.map .alterColumn (_ ++ _ ++ _)) = _
  rw [List.map_append, List.map_append, applyAll_append, applyAll_append, htype, Option.bind_some,
    hnull, Option.bind_some, hdefault, hfinal, OrderedMap.insert_insert_self,
    OrderedMap.insert_insert_self]

lemma Columns.exists_applyAll_alterations {changes : List ColumnMetadataChange}
    (hget : ∀ change ∈ changes, columns.get? change.beforeColumnSchema.ordinalPosition =
      some (columnSchemaAfterRenames rules change))
    (hnodup : (changes.map (·.beforeColumnSchema.ordinalPosition)).Nodup) :
    ∃ columns', columns.applyAll (changes.flatMap fun change =>
        (alterationsOf rules change (columnSchemaAfterRenames rules change)).map .alterColumn) =
          some columns' ∧
      (∀ change ∈ changes, columns'.get? change.beforeColumnSchema.ordinalPosition =
        some (alteredColumn rules change)) ∧
      ∀ o, o ∉ changes.map (·.beforeColumnSchema.ordinalPosition) →
        columns'.get? o = columns.get? o := by
  induction changes generalizing columns with
  | nil => exact ⟨columns, rfl, by simp, fun _ _ => rfl⟩
  | cons change changes ih =>
    obtain ⟨hchange, hchanges⟩ := List.nodup_cons.1 hnodup
    have hother : ∀ other ∈ changes, other.beforeColumnSchema.ordinalPosition ≠
        change.beforeColumnSchema.ordinalPosition := fun other hmem heq =>
      hchange (List.mem_map.2 ⟨other, hmem, heq⟩)
    have hhead := applyAll_alterationsOf (hget change List.mem_cons_self)
    obtain ⟨columns', hrun, haltered, hframe⟩ := ih (fun other hmem => by
      rw [OrderedMap.get?_insert, if_neg (hother other hmem)]
      exact hget other (List.mem_cons_of_mem _ hmem)) hchanges
    refine ⟨columns', ?_, ?_, ?_⟩
    · rw [List.flatMap_cons, applyAll_append, hhead]
      exact hrun
    · intro other hmem
      rcases List.mem_cons.1 hmem with rfl | hmem
      · rw [hframe _ hchange, OrderedMap.get?_insert_self]
      · exact haltered other hmem
    · intro o ho
      obtain ⟨hne, hrest⟩ := not_or.1 (List.mem_cons.not.1 ho)
      rw [hframe o hrest, OrderedMap.get?_insert, if_neg hne]

end Alterations

/-! ## The plan -/

section Plan

open SchemaOperationPlanner

variable {rules : NameRules} {diff : SchemaDiff} {old new : Columns}

lemma get?_withoutKeys (columns : Columns) (o : Int) :
    columns.withoutKeys.get? o =
      (columns.get? o).map fun c => { c with primaryKeyOrdinalPosition := none } :=
  OrderedMap.get?_mapValues ..

lemma Describes.get?_kept (h : Describes rules diff old new) (o : Int) :
    (if o ∈ diff.droppedColumns.map (·.beforeColumnSchema.ordinalPosition) then none
      else old.get? o) = if (new.get? o).isSome then old.get? o else none := by
  by_cases ho : o ∈ diff.droppedColumns.map (·.beforeColumnSchema.ordinalPosition)
  · obtain ⟨d, hd, rfl⟩ := List.mem_map.1 ho
    rw [if_pos ho, (h.dropped d hd).2]
    rfl
  · rw [if_neg ho]
    split_ifs with hnew
    · rfl
    · by_contra hsome
      have hnone : new.get? o = none := Option.not_isSome_iff_eq_none.1 hnew
      exact ho (h.mem_dropped (Option.isSome_iff_ne_none.2 hsome) hnone)

lemma Describes.get?_grown (h : Describes rules diff old new) {o : Int} :
    (if o ∈ diff.addedColumns.map (·.afterColumnSchema.ordinalPosition) then new.get? o
      else (renamedColumns old new).get? o) =
        match old.get? o, new.get? o with
        | some b, some a => some { b with name := a.name }
        | none, a => a
        | some _, none => none := by
  by_cases ho : o ∈ diff.addedColumns.map (·.afterColumnSchema.ordinalPosition)
  · obtain ⟨a, ha, rfl⟩ := List.mem_map.1 ho
    rw [if_pos ho, (h.added a ha).1]
  · rw [if_neg ho]
    refine Option.ext fun c => ?_
    rw [get?_renamedColumns_eq_some_iff]
    rcases hb : old.get? o with _ | b <;> rcases ha : new.get? o with _ | a
    · simp
    · exact absurd (h.mem_added hb (by rw [ha]; rfl)) ho
    · simp
    · simp [eq_comm]

lemma Describes.exists_plan_eq (h : Describes rules diff old new) (hold : old.Sound)
    (hnew : new.Sound) {rounds : Nat} (hrounds : 2 * old.size + 1 ≤ rounds) {reserved : Finset String}
    (hreserved : old.names ∪ new.names ⊆ reserved) :
    ∃ operations columns, plan rules rounds ⟨[], old.names, reserved⟩ diff = some (.ok operations) ∧
      old.applyAll operations = some columns ∧ columns.withoutKeys = new.withoutKeys := by
  -- drops
  have hstart : Tracks old ⟨[], old.names, reserved⟩ old := ⟨rfl, hold, rfl⟩
  obtain ⟨kept, htracks, hreserved', hkept⟩ :=
    hstart.planDrops (fun d hd => (h.dropped d hd).1) h.nodup_dropped
  have hcommon : ∀ o, kept.get? o = if (new.get? o).isSome then old.get? o else none := fun o =>
    (hkept o).trans (h.get?_kept o)
  -- renames
  have hrenaming := h.renaming hnew htracks (hreserved' ▸ hreserved) hcommon
  have hsize : kept.size ≤ old.size := by
    refine OrderedMap.size_le_of_isSome fun o ho => ?_
    rw [hcommon] at ho
    split_ifs at ho
    · exact ho
    · cases ho
  have hleft := hrenaming.roundsLeft_le
  obtain ⟨st, hloop, hrenamed⟩ :=
    hrenaming.exists_renameLoop_eq (sound_renamedColumns hold hnew)
      (hleft.trans (by omega : _ ≤ rounds))
  have hrenames : planRenames rules rounds (planDrops rules ⟨[], old.names, reserved⟩
      diff.droppedColumns) diff.alteredColumns = some (.ok st.planner) :=
    congrArg (Option.map (Except.map RenameState.planner)) hloop
  -- additions
  have hadded : ∀ a ∈ diff.addedColumns,
      (renamedColumns old new).get? a.afterColumnSchema.ordinalPosition = none ∧
        new.get? a.afterColumnSchema.ordinalPosition =
          some (rules.mapColumnSchema a.afterColumnSchema) := by
    intro a ha
    obtain ⟨hnone, hsome⟩ := h.added a ha
    refine ⟨Option.eq_none_iff_forall_ne_some.2 fun c hc => ?_, hsome⟩
    obtain ⟨b, -, hb, -⟩ := get?_renamedColumns_eq_some_iff.1 hc
    rw [hnone] at hb
    cases hb
  obtain ⟨grown, hadditions, hgrown⟩ := Columns.exists_applyAll_additions hnew
    (namedAs_renamedColumns old new) hadded h.nodup_added
  have hgrown' := fun o => (hgrown o).trans h.get?_grown
  -- alterations
  have haltered : ∀ change ∈ diff.alteredColumns,
      grown.get? change.beforeColumnSchema.ordinalPosition =
        some (columnSchemaAfterRenames rules change) := by
    intro change hchange
    obtain ⟨hb, ha⟩ := h.altered change hchange
    rw [hgrown', hb, ha]
    rfl
  obtain ⟨columns, halterations, hfinal, hframe⟩ :=
    Columns.exists_applyAll_alterations haltered h.nodup_altered
  refine ⟨_, columns, by rw [plan, hrenames]; rfl, ?_, ?_⟩
  · simp only [planAlterations, planAdditions]
    rw [Columns.applyAll_append, Columns.applyAll_append, hrenamed, Option.bind_some, hadditions,
      Option.bind_some, halterations]
  · refine OrderedMap.ext_get? fun o => ?_
    rw [get?_withoutKeys, get?_withoutKeys]
    by_cases ho : o ∈ diff.alteredColumns.map (·.beforeColumnSchema.ordinalPosition)
    · obtain ⟨change, hchange, rfl⟩ := List.mem_map.1 ho
      have ha := (h.altered change hchange).2
      have hordinal := hnew.keyed ha
      rw [hfinal change hchange, ha, alteredColumn, ← hordinal]
      rfl
    · rw [hframe o ho, hgrown']
      rcases hb : old.get? o with _ | b <;> rcases ha : new.get? o with _ | a
      · rfl
      · rfl
      · rfl
      · rw [h.unaltered hb ha ho]

end Plan

/-! ## Two versions of a table -/

section Versions

variable {rules : NameRules} {schema before after : ReplicatedTableSchema}

lemma get?_destinationColumns_eq_some_iff (hordinals : (ordinals schema.columnSchemas).Nodup)
    {o : Int} {c : ColumnSchema} :
    (schema.destinationColumns rules).get? o = some c ↔
      ∃ column ∈ schema.columnSchemas, column.ordinalPosition = o ∧
        rules.mapColumnSchema column = c :=
  OrderedMap.get?_foldl_insert_empty _ _ hordinals

lemma get?_destinationColumns_eq_none_iff (hordinals : (ordinals schema.columnSchemas).Nodup)
    {o : Int} :
    (schema.destinationColumns rules).get? o = none ↔ o ∉ ordinals schema.columnSchemas := by
  constructor
  · intro hnone hmem
    obtain ⟨column, hcolumn, rfl⟩ := List.mem_map.1 hmem
    have hsome : (schema.destinationColumns rules).get? column.ordinalPosition = some _ :=
      (get?_destinationColumns_eq_some_iff hordinals).2 ⟨column, hcolumn, rfl, rfl⟩
    rw [hnone] at hsome
    cases hsome
  · intro hnot
    refine Option.eq_none_iff_forall_ne_some.2 fun c hc => hnot ?_
    obtain ⟨column, hcolumn, rfl, -⟩ := (get?_destinationColumns_eq_some_iff hordinals).1 hc
    exact List.mem_map_of_mem hcolumn

lemma sound_destinationColumns (hordinals : (ordinals schema.columnSchemas).Nodup)
    (hnames : (schema.columnSchemas.map fun column => rules.mapName column.name).Nodup) :
    (schema.destinationColumns rules).Sound where
  keyed {o c} h := by
    obtain ⟨column, -, rfl, rfl⟩ := (get?_destinationColumns_eq_some_iff hordinals).1 h
    rfl
  distinct {o o' c c'} h h' hname := by
    obtain ⟨column, hcolumn, rfl, rfl⟩ := (get?_destinationColumns_eq_some_iff hordinals).1 h
    obtain ⟨column', hcolumn', rfl, rfl⟩ := (get?_destinationColumns_eq_some_iff hordinals).1 h'
    rw [List.inj_on_of_nodup_map hnames hcolumn hcolumn' hname]

lemma mem_names_destinationColumns (hordinals : (ordinals schema.columnSchemas).Nodup)
    {name : String} :
    name ∈ (schema.destinationColumns rules).names ↔
      name ∈ schema.columnSchemas.map fun column => rules.mapName column.name := by
  simp only [Columns.mem_names, get?_destinationColumns_eq_some_iff hordinals, List.mem_map]
  constructor
  · rintro ⟨o, c, ⟨column, hcolumn, -, rfl⟩, rfl⟩
    exact ⟨column, hcolumn, rfl⟩
  · rintro ⟨column, hcolumn, rfl⟩
    exact ⟨_, _, ⟨column, hcolumn, rfl, rfl⟩, rfl⟩

lemma collectUniqueColumnNames_eq (endpoint : SchemaEndpoint) (names : List String)
    (collected : OrderedMap String String)
    (hnodup : (names.map rules.mapName).Nodup)
    (hnew : ∀ name ∈ names, collected.get? (rules.mapName name) = none) :
    ∃ all, collectUniqueColumnNames rules endpoint names collected = .ok all ∧
      ∀ name, name ∈ all.keys ↔ name ∈ collected.keys ∨ name ∈ names.map rules.mapName := by
  induction names generalizing collected with
  | nil => exact ⟨collected, rfl, by simp⟩
  | cons name names ih =>
    obtain ⟨hname, hnames⟩ := List.nodup_cons.1 hnodup
    obtain ⟨all, hall, hkeys⟩ := ih (collected.insert (rules.mapName name) name) hnames
      fun other hother => by
        rw [OrderedMap.get?_insert, if_neg]
        · exact hnew other (List.mem_cons_of_mem _ hother)
        · intro heq
          exact hname (heq ▸ List.mem_map_of_mem hother)
    refine ⟨all, ?_, fun other => ?_⟩
    · rw [collectUniqueColumnNames, hnew name List.mem_cons_self]
      exact hall
    · rw [hkeys, OrderedMap.mem_keys_iff, OrderedMap.get?_insert, OrderedMap.mem_keys_iff,
        List.map_cons, List.mem_cons]
      split_ifs with ho
      · simp [ho]
      · simp [ho]

lemma exists_new_eq (hbefore : (ordinals before.columnSchemas).Nodup)
    (hafter : (ordinals after.columnSchemas).Nodup)
    (hbeforeNames : (before.columnSchemas.map fun column => rules.mapName column.name).Nodup)
    (hafterNames : (after.columnSchemas.map fun column => rules.mapName column.name).Nodup) :
    SchemaOperationPlanner.new rules (before.columnSchemas.map (·.name))
        (after.columnSchemas.map (·.name)) =
      .ok ⟨[], (before.destinationColumns rules).names,
        (before.destinationColumns rules).names ∪ (after.destinationColumns rules).names⟩ := by
  have hcollect : ∀ (endpoint : SchemaEndpoint) (schema : ReplicatedTableSchema),
      (ordinals schema.columnSchemas).Nodup →
      (schema.columnSchemas.map fun column => rules.mapName column.name).Nodup →
      ∃ all, collectUniqueColumnNames rules endpoint (schema.columnSchemas.map (·.name)) .empty =
        .ok all ∧ all.keys.toFinset = (schema.destinationColumns rules).names := by
    intro endpoint schema hordinals hnames
    obtain ⟨all, hall, hkeys⟩ := collectUniqueColumnNames_eq endpoint
      (schema.columnSchemas.map (·.name)) .empty
      (by rw [List.map_map]; exact hnames) fun _ _ => rfl
    refine ⟨all, hall, Finset.ext fun name => ?_⟩
    rw [List.mem_toFinset, hkeys, mem_names_destinationColumns hordinals, List.map_map]
    simp [OrderedMap.keys, OrderedMap.empty]
  obtain ⟨beforeNames, hbeforeEq, hbeforeKeys⟩ := hcollect .before before hbefore hbeforeNames
  obtain ⟨afterNames, hafterEq, hafterKeys⟩ := hcollect .after after hafter hafterNames
  rw [SchemaOperationPlanner.new, hbeforeEq, hafterEq, ← hbeforeKeys, ← hafterKeys]
  rfl

lemma describes_diff (hbefore : (ordinals before.columnSchemas).Nodup)
    (hafter : (ordinals after.columnSchemas).Nodup) :
    Describes rules (before.diff after) (before.destinationColumns rules)
      (after.destinationColumns rules) := by
  have hb := pairwise_sortByOrdinal hbefore
  have ha := pairwise_sortByOrdinal hafter
  have hpb := perm_sortByOrdinal before.columnSchemas
  have hpa := perm_sortByOrdinal after.columnSchemas
  have hob : ∀ {o}, o ∈ ordinals (sortByOrdinal before.columnSchemas) ↔
      o ∈ ordinals before.columnSchemas := (hpb.map _).mem_iff
  have hoa : ∀ {o}, o ∈ ordinals (sortByOrdinal after.columnSchemas) ↔
      o ∈ ordinals after.columnSchemas := (hpa.map _).mem_iff
  have hdropped : (before.diff after).droppedColumns.map (·.beforeColumnSchema) =
      (sortByOrdinal before.columnSchemas).filter fun b =>
        b.ordinalPosition ∉ ordinals (sortByOrdinal after.columnSchemas) :=
    droppedColumns_mergeColumns hb ha
  have hadded : (before.diff after).addedColumns.map (·.afterColumnSchema) =
      (sortByOrdinal after.columnSchemas).filter fun a =>
        a.ordinalPosition ∉ ordinals (sortByOrdinal before.columnSchemas) :=
    addedColumns_mergeColumns hb ha
  have haltered : ∀ {change}, change ∈ (before.diff after).alteredColumns ↔ _ := fun {change} =>
    mem_alteredColumns_mergeColumns hb ha
  have hmemDropped : ∀ c, c ∈ (before.diff after).droppedColumns.map (·.beforeColumnSchema) ↔
      c ∈ before.columnSchemas ∧ c.ordinalPosition ∉ ordinals after.columnSchemas := by
    intro c
    rw [hdropped, List.mem_filter, hpb.mem_iff, decide_eq_true_iff, hoa]
  have hmemAdded : ∀ c, c ∈ (before.diff after).addedColumns.map (·.afterColumnSchema) ↔
      c ∈ after.columnSchemas ∧ c.ordinalPosition ∉ ordinals before.columnSchemas := by
    intro c
    rw [hadded, List.mem_filter, hpa.mem_iff, decide_eq_true_iff, hob]
  have hsortedBefore : (ordinals (sortByOrdinal before.columnSchemas)).Nodup :=
    (hpb.map _).nodup_iff.2 hbefore
  have hsortedAfter : (ordinals (sortByOrdinal after.columnSchemas)).Nodup :=
    (hpa.map _).nodup_iff.2 hafter
  constructor
  case dropped =>
    intro d hd
    obtain ⟨hcolumn, hnot⟩ := (hmemDropped _).1 (List.mem_map_of_mem hd)
    exact ⟨(get?_destinationColumns_eq_some_iff hbefore).2 ⟨_, hcolumn, rfl, rfl⟩,
      (get?_destinationColumns_eq_none_iff hafter).2 hnot⟩
  case nodup_dropped =>
    have hsub := congrArg ordinals hdropped
    rw [ordinals, List.map_map] at hsub
    rw [show (fun x : ColumnRemoval => x.beforeColumnSchema.ordinalPosition) =
      (·.ordinalPosition) ∘ (·.beforeColumnSchema) from rfl, hsub]
    exact hsortedBefore.sublist (List.filter_sublist.map _)
  case mem_dropped =>
    intro o hsome hnone
    obtain ⟨c, hc⟩ := Option.isSome_iff_exists.1 hsome
    obtain ⟨column, hcolumn, rfl, -⟩ := (get?_destinationColumns_eq_some_iff hbefore).1 hc
    have hnot := (get?_destinationColumns_eq_none_iff hafter).1 hnone
    obtain ⟨d, hd, rfl⟩ := List.mem_map.1 ((hmemDropped column).2 ⟨hcolumn, hnot⟩)
    exact List.mem_map.2 ⟨d, hd, rfl⟩
  case added =>
    intro a ha
    obtain ⟨hcolumn, hnot⟩ := (hmemAdded _).1 (List.mem_map_of_mem ha)
    exact ⟨(get?_destinationColumns_eq_none_iff hbefore).2 hnot,
      (get?_destinationColumns_eq_some_iff hafter).2 ⟨_, hcolumn, rfl, rfl⟩⟩
  case nodup_added =>
    have hsub := congrArg ordinals hadded
    rw [ordinals, List.map_map] at hsub
    rw [show (fun x : ColumnAddition => x.afterColumnSchema.ordinalPosition) =
      (·.ordinalPosition) ∘ (·.afterColumnSchema) from rfl, hsub]
    exact hsortedAfter.sublist (List.filter_sublist.map _)
  case mem_added =>
    intro o hnone hsome
    obtain ⟨c, hc⟩ := Option.isSome_iff_exists.1 hsome
    obtain ⟨column, hcolumn, rfl, -⟩ := (get?_destinationColumns_eq_some_iff hafter).1 hc
    have hnot := (get?_destinationColumns_eq_none_iff hbefore).1 hnone
    obtain ⟨a, ha, rfl⟩ := List.mem_map.1 ((hmemAdded column).2 ⟨hcolumn, hnot⟩)
    exact List.mem_map.2 ⟨a, ha, rfl⟩
  case altered =>
    intro change hchange
    obtain ⟨b, hbmem, a, hamem, heq, hbetween⟩ := haltered.1 hchange
    obtain rfl := ColumnMetadataChange.between_eq_some hbetween
    exact ⟨(get?_destinationColumns_eq_some_iff hbefore).2 ⟨b, hpb.mem_iff.1 hbmem, rfl, rfl⟩,
      (get?_destinationColumns_eq_some_iff hafter).2 ⟨a, hpa.mem_iff.1 hamem, heq.symm, rfl⟩⟩
  case nodup_altered =>
    have hsub : ((before.diff after).alteredColumns.map (·.beforeColumnSchema)).Sublist _ :=
      sublist_alteredColumns_mergeColumns
    have hordinals := hsub.map (·.ordinalPosition)
    rw [List.map_map] at hordinals
    exact hsortedBefore.sublist hordinals
  case unaltered =>
    intro o b a hbget haget hnot
    obtain ⟨column, hcolumn, rfl, rfl⟩ := (get?_destinationColumns_eq_some_iff hbefore).1 hbget
    obtain ⟨column', hcolumn', heq, rfl⟩ := (get?_destinationColumns_eq_some_iff hafter).1 haget
    rcases hbetween : ColumnMetadataChange.between column column' with _ | change
    · rw [ColumnMetadataChange.eq_of_between_eq_none hbetween heq.symm]
    · have hchange := haltered.2 ⟨column, hpb.mem_iff.2 hcolumn, column', hpa.mem_iff.2 hcolumn',
        heq.symm, hbetween⟩
      obtain rfl := ColumnMetadataChange.between_eq_some hbetween
      exact absurd (List.mem_map.2 ⟨_, hchange, rfl⟩) hnot

lemma planSchemaChange_eq (hbefore : (ordinals before.columnSchemas).Nodup)
    (hafter : (ordinals after.columnSchemas).Nodup)
    (hbeforeNames : (before.columnSchemas.map fun column => rules.mapName column.name).Nodup)
    (hafterNames : (after.columnSchemas.map fun column => rules.mapName column.name).Nodup)
    (rounds : Nat) :
    planSchemaChange rules rounds before after =
      (SchemaOperationPlanner.plan rules rounds
        ⟨[], (before.destinationColumns rules).names,
          (before.destinationColumns rules).names ∪ (after.destinationColumns rules).names⟩
        (before.diff after)).map (·.map fun operations =>
          ⟨before.diff after, operations, rules.mapping⟩) := by
  rw [planSchemaChange, exists_new_eq hbefore hafter hbeforeNames hafterNames]

/-- A plan between any two versions whose columns can be told apart by ordinal and by destination
name is found; the rename loop ends and none of its errors occurs. Executed one by one, its
operations always find the column they expect and a free name, and they end with the columns of the
new version, except for positions in the primary key. -/
theorem planSchemaChange_converges (rules : NameRules) (before after : ReplicatedTableSchema)
    (hbefore : (ordinals before.columnSchemas).Nodup)
    (hafter : (ordinals after.columnSchemas).Nodup)
    (hbeforeNames : (before.columnSchemas.map fun column => rules.mapName column.name).Nodup)
    (hafterNames : (after.columnSchemas.map fun column => rules.mapName column.name).Nodup)
    (rounds : Nat) (hrounds : 2 * (before.destinationColumns rules).size + 1 ≤ rounds) :
    ∃ plan columns, planSchemaChange rules rounds before after = some (.ok plan) ∧
      (before.destinationColumns rules).applyAll plan.orderedOperations = some columns ∧
      columns.withoutKeys = (after.destinationColumns rules).withoutKeys := by
  have hdescribes : Describes rules (before.diff after) _ _ := describes_diff hbefore hafter
  obtain ⟨operations, columns, hplan, hrun, hcolumns⟩ := hdescribes.exists_plan_eq
    (sound_destinationColumns hbefore hbeforeNames) (sound_destinationColumns hafter hafterNames)
    hrounds (Finset.Subset.refl _)
  refine ⟨⟨before.diff after, operations, rules.mapping⟩, columns, ?_, hrun, hcolumns⟩
  rw [planSchemaChange_eq hbefore hafter hbeforeNames hafterNames, hplan]
  rfl

end Versions

def sampleSchemaVersion (columns : List (Int × String)) : ReplicatedTableSchema :=
  let tableSchema : TableSchema :=
    ⟨1, ⟨"public", "t"⟩, columns.map fun c => ⟨c.2, .text, -1, c.1, none, true, none⟩,
      .initial⟩
  .fromMasks tableSchema (.all tableSchema) ⟨columns.map fun _ => 0⟩

/-- Two columns that swap their names, next to one that is dropped and one that is added. -/
theorem planSchemaChange_converges_swap :
    ∃ plan columns,
      planSchemaChange ⟨.identity, id⟩ 7 (sampleSchemaVersion [(1, "a"), (2, "b"), (3, "c")])
          (sampleSchemaVersion [(1, "b"), (2, "a"), (4, "c")]) = some (.ok plan) ∧
        ((sampleSchemaVersion [(1, "a"), (2, "b"), (3, "c")]).destinationColumns
          ⟨.identity, id⟩).applyAll plan.orderedOperations = some columns ∧
        columns.withoutKeys = ((sampleSchemaVersion [(1, "b"), (2, "a"), (4, "c")]).destinationColumns
          ⟨.identity, id⟩).withoutKeys :=
  planSchemaChange_converges _ _ _ (by decide) (by decide) (by decide) (by decide) 7 (by decide)

end Etl
