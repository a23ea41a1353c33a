import Etl.Lib.Cycles
import Etl.SchemaPlan.Convergence

/-!
# Rename cycles

An edge leads from the old name of a column to its new one; the graph falls apart into paths and
cycles. `Unwinding` follows the rename loop: a ready rename never belongs to a whole cycle, and
while none is ready, the pending columns are whole cycles, of which one is broken.
-/

namespace Etl

def RenameEdge (old new : Columns) (oldName newName : String) : Prop :=
  ∃ o b a, old.get? o = some b ∧ new.get? o = some a ∧ b.name = oldName ∧ a.name = newName

structure RenameCycle (old new : Columns) (cycle : Cycle String) : Prop
    extends IsCycleOf (RenameEdge old new) cycle where
  two_le : 2 ≤ cycle.length

def temporaryRenames (names : Finset String) (operations : List SchemaOperation) :
    List ColumnAlteration :=
  (renameAlterations operations).filter (·.afterColumnSchema.name ∉ names)

section Operations

variable {names : Finset String} {operations : List SchemaOperation} {before : ColumnSchema}
  {name : String}

lemma renameAlterations_append (first second : List SchemaOperation) :
    renameAlterations (first ++ second) = renameAlterations first ++ renameAlterations second :=
  List.filterMap_append

lemma renameAlterations_concat :
    renameAlterations (operations ++ [.alterColumn ⟨before, { before with name := name }, .rename⟩]) =
      renameAlterations operations ++ [⟨before, { before with name := name }, .rename⟩] := by
  rw [renameAlterations_append]
  rfl

lemma temporaryRenames_concat_of_mem (h : name ∈ names) :
    temporaryRenames names
        (operations ++ [.alterColumn ⟨before, { before with name := name }, .rename⟩]) =
      temporaryRenames names operations := by
  simp [temporaryRenames, renameAlterations_concat, h]

lemma temporaryRenames_concat_of_notMem (h : name ∉ names) :
    temporaryRenames names
        (operations ++ [.alterColumn ⟨before, { before with name := name }, .rename⟩]) =
      temporaryRenames names operations ++ [⟨before, { before with name := name }, .rename⟩] := by
  simp [temporaryRenames, renameAlterations_concat, h]

end Operations

/-! ## The graph -/

section Graph

variable {old new : Columns} {x y : String}

lemma RenameEdge.eq_name (hold : old.Sound) {o : Int} {b a : ColumnSchema}
    (hb : old.get? o = some b) (ha : new.get? o = some a) (h : RenameEdge old new b.name y) :
    y = a.name := by
  obtain ⟨o', b', a', hb', ha', hname, rfl⟩ := h
  obtain rfl : o' = o := hold.distinct hb' hb hname
  rw [ha] at ha'
  cases ha'
  rfl

lemma RenameEdge.injective (hnew : new.Sound) {x' : String} (h : RenameEdge old new x y)
    (h' : RenameEdge old new x' y) : x = x' := by
  obtain ⟨o, b, a, hb, ha, rfl, rfl⟩ := h
  obtain ⟨o', b', a', hb', ha', rfl, hname⟩ := h'
  obtain rfl : o' = o := hnew.distinct ha' ha hname
  rw [hb] at hb'
  cases hb'
  rfl

end Graph

/-! ## The rename loop -/

section Loop

open SchemaOperationPlanner

variable {old new start columns : Columns} {waiting : OrderedMap String Int} {st st' : RenameState}
  {o : Int} {r : PendingRename} {total : Nat}

lemma emitReady_eq_ok (hr : st.pendingRenames.get? o = some r)
    (h : emitReady waiting st o = .ok st') :
    st'.pendingRenames = st.pendingRenames.erase o ∧
      st'.planner.reservedDestinationNames = st.planner.reservedDestinationNames ∧
      st'.planner.operations = st.planner.operations ++ [.alterColumn
        ⟨r.beforeColumnSchema, { r.beforeColumnSchema with name := r.afterName }, .rename⟩] := by
  simp only [emitReady, hr, Except.ok.injEq] at h
  subst h
  exact ⟨rfl, rfl, rfl⟩

lemma breakCycle_eq_ok (h : breakCycle waiting st o r = .ok st') :
    ∃ name ∉ st.planner.reservedDestinationNames,
      st'.pendingRenames = st.pendingRenames.insert o
        ⟨{ r.beforeColumnSchema with name := name }, r.afterName⟩ ∧
      st.planner.reservedDestinationNames ⊆ st'.planner.reservedDestinationNames ∧
      st'.planner.operations = st.planner.operations ++ [.alterColumn
        ⟨r.beforeColumnSchema, { r.beforeColumnSchema with name := name }, .rename⟩] := by
  simp only [breakCycle] at h
  split at h
  · cases h
    exact ⟨_, nextTemporaryName_notMem _ _ _, rfl, Finset.subset_insert _ _, rfl⟩
  · cases h

lemma renameRound_eq_ok (hpending : st.pendingRenames.entries ≠ [])
    (h : renameRound waiting st = .ok st') :
    (∃ o, (st.readyRenames.get? o).isSome ∧ emitReady waiting st o = .ok st') ∨
      (∀ o, st.readyRenames.get? o = none) ∧
        ∃ o r, st.pendingRenames.get? o = some r ∧ breakCycle waiting st o r = .ok st' := by
  rw [renameRound] at h
  rcases hready : st.readyRenames.entries with _ | ⟨⟨o, u⟩, rest⟩
  · rcases hentries : st.pendingRenames.entries with _ | ⟨⟨o, r⟩, rest⟩
    · exact absurd hentries hpending
    · rw [hready, hentries] at h
      refine .inr ⟨fun o => by simp [OrderedMap.get?, hready], o, r, ?_, h⟩
      exact (OrderedMap.mem_entries_iff _ o r).1 (by rw [hentries]; exact List.mem_cons_self)
  · rw [hready] at h
    have ho : st.readyRenames.get? o = some u :=
      (OrderedMap.mem_entries_iff _ o u).1 (by rw [hready]; exact List.mem_cons_self)
    exact .inl ⟨o, by rw [ho]; rfl, h⟩

def Waits (old : Columns) (st : RenameState) (name : String) : Prop :=
  ∃ o r, st.pendingRenames.get? o = some r ∧ old.get? o = some r.beforeColumnSchema ∧
    r.beforeColumnSchema.name = name

lemma Waits.mem_names {x : String} (h : Waits old st x) : x ∈ old.names := by
  obtain ⟨o, r, -, hold, rfl⟩ := h
  exact Columns.mem_names.2 ⟨o, _, hold, rfl⟩

/-- Between two rounds; `total` renames lead from one version to the other. -/
structure Unwinding (old new : Columns) (total : Nat) (st : RenameState) : Prop where
  reserved : old.names ∪ new.names ⊆ st.planner.reservedDestinationNames
  /-- A pending column has its old name, or one not in the graph. -/
  named : ∀ {o r}, st.pendingRenames.get? o = some r →
    old.get? o = some r.beforeColumnSchema ∨ r.beforeColumnSchema.name ∉ old.names ∪ new.names
  differs : ∀ {o r}, st.pendingRenames.get? o = some r → r.beforeColumnSchema.name ≠ r.afterName
  /-- All columns of a cycle wait until one of them is moved. -/
  whole : ∀ {c}, RenameCycle old new c →
    (∀ t ∈ temporaryRenames (old.names ∪ new.names) st.planner.operations,
      t.beforeColumnSchema.name ∉ c) → ∀ x ∈ c, Waits old st x
  moved : ∀ t ∈ temporaryRenames (old.names ∪ new.names) st.planner.operations,
    (∃ c, RenameCycle old new c ∧ t.beforeColumnSchema.name ∈ c) ∧
      ¬ Waits old st t.beforeColumnSchema.name
  once : ∀ {c}, RenameCycle old new c →
    (temporaryRenames (old.names ∪ new.names) st.planner.operations).countP
      (fun t => t.beforeColumnSchema.name ∈ c) ≤ 1
  count : (renameAlterations st.planner.operations).length + st.pendingRenames.size =
    total + (temporaryRenames (old.names ∪ new.names) st.planner.operations).length

lemma Renaming.exists_get?_new (h : Renaming start (renamedColumns old new) waiting st columns)
    (hr : st.pendingRenames.get? o = some r) : ∃ a, new.get? o = some a ∧ a.name = r.afterName := by
  obtain ⟨b, a, -, ha, heq⟩ := get?_renamedColumns_eq_some_iff.1 (h.pending hr).2
  exact ⟨a, ha, (congrArg (·.name) heq).symm⟩

lemma Renaming.afterName_mem (h : Renaming start (renamedColumns old new) waiting st columns)
    (hr : st.pendingRenames.get? o = some r) : r.afterName ∈ new.names := by
  obtain ⟨a, ha, hname⟩ := h.exists_get?_new hr
  exact Columns.mem_names.2 ⟨o, a, ha, hname⟩

lemma Renaming.mem_names_of_waits (h : Renaming start (renamedColumns old new) waiting st columns)
    {x : String} (hx : Waits old st x) : x ∈ columns.names := by
  obtain ⟨o, r, hr, -, rfl⟩ := hx
  exact Columns.mem_names.2 ⟨o, _, (h.pending hr).1, rfl⟩

lemma Renaming.not_waits_cycle (h : Renaming start (renamedColumns old new) waiting st columns)
    (hold : old.Sound) {c : Cycle String} (hc : RenameCycle old new c)
    (hwaits : ∀ x ∈ c, Waits old st x) (hr : st.pendingRenames.get? o = some r)
    (hfree : r.afterName ∉ columns.names) (hb : old.get? o = some r.beforeColumnSchema) :
    r.beforeColumnSchema.name ∉ c := by
  intro hmem
  obtain ⟨y, hy, hedge, -⟩ := Cycle.exists_mem_rel_ne hc.toIsCycleOf hc.two_le hmem
  obtain ⟨a, ha, hname⟩ := h.exists_get?_new hr
  rw [hedge.eq_name hold hb ha, hname] at hy
  exact hfree (h.mem_names_of_waits (hwaits _ hy))

namespace Unwinding

lemma emitReady (hu : Unwinding old new total st) (hold : old.Sound)
    (h : Renaming start (renamedColumns old new) waiting st columns)
    (hready : (st.readyRenames.get? o).isSome) (hstep : emitReady waiting st o = .ok st') :
    Unwinding old new total st' := by
  obtain ⟨r, hr, hfree⟩ := h.ready.1 hready
  obtain ⟨hpending, hreserved, hoperations⟩ := emitReady_eq_ok hr hstep
  have hafter : r.afterName ∈ old.names ∪ new.names :=
    Finset.mem_union_right _ (h.afterName_mem hr)
  have hmoves : temporaryRenames (old.names ∪ new.names) st'.planner.operations =
      temporaryRenames (old.names ∪ new.names) st.planner.operations := by
    rw [hoperations, temporaryRenames_concat_of_mem hafter]
  have hget : ∀ {o' r'}, st'.pendingRenames.get? o' = some r' ↔
      o' ≠ o ∧ st.pendingRenames.get? o' = some r' := by
    intro o' r'
    rw [hpending, OrderedMap.get?_erase]
    split_ifs with ho <;> simp [ho]
  constructor
  case reserved => rw [hreserved]; exact hu.reserved
  case named => exact fun hr' => hu.named (hget.1 hr').2
  case differs => exact fun hr' => hu.differs (hget.1 hr').2
  case whole =>
    intro c hc hnot x hx
    rw [hmoves] at hnot
    have hwaits := hu.whole hc hnot
    obtain ⟨o', r', hr', hb, rfl⟩ := hwaits x hx
    refine ⟨o', r', hget.2 ⟨?_, hr'⟩, hb, rfl⟩
    rintro rfl
    rw [hr] at hr'
    cases hr'
    exact h.not_waits_cycle hold hc hwaits hr hfree hb hx
  case moved =>
    intro t ht
    rw [hmoves] at ht
    obtain ⟨hcycle, hnot⟩ := hu.moved t ht
    refine ⟨hcycle, fun ⟨o', r', hr', hb, hname⟩ => hnot ⟨o', r', (hget.1 hr').2, hb, hname⟩⟩
  case once =>
    intro c hc
    rw [hmoves]
    exact hu.once hc
  case count =>
    have hsize := OrderedMap.size_erase_of_isSome (m := st.pendingRenames) (k := o) (by rw [hr]; rfl)
    have hcount := hu.count
    rw [hmoves, hpending, hoperations, renameAlterations_concat, List.length_append,
      List.length_singleton]
    omega

section Blocked

variable (hu : Unwinding old new total st) (hold : old.Sound) (hnew : new.Sound)
  (h : Renaming start (renamedColumns old new) waiting st columns)
  (hblocked : ∀ o, st.readyRenames.get? o = none)

include hu hold hnew h hblocked

lemma get?_old_of_blocked (hr : st.pendingRenames.get? o = some r) :
    old.get? o = some r.beforeColumnSchema := by
  rcases hu.named hr with hb | hname
  · exact hb
  · obtain ⟨o', r', hr', heq⟩ :=
      h.exists_waiting_of_blocked (sound_renamedColumns hold hnew) hblocked hr
    exact absurd (Finset.mem_union_right _ (heq ▸ h.afterName_mem hr')) hname

lemma exists_edge_of_blocked {x : String} (hx : Waits old st x) :
    ∃ y, Waits old st y ∧ RenameEdge old new x y ∧ x ≠ y := by
  obtain ⟨o, r, hr, hb, rfl⟩ := hx
  obtain ⟨o', r', hr', heq⟩ :=
    h.exists_pending_of_blocked (sound_renamedColumns hold hnew) hblocked hr
  obtain ⟨a, ha, hname⟩ := h.exists_get?_new hr
  exact ⟨r.afterName, ⟨o', r', hr', get?_old_of_blocked hu hold hnew h hblocked hr', heq⟩,
    ⟨o, _, a, hb, ha, rfl, hname⟩, hu.differs hr⟩

lemma waits_of_edge {x y : String} (hedge : RenameEdge old new x y) (hx : Waits old st x) :
    Waits old st y := by
  obtain ⟨y', hy', ⟨o, b, a, hb, ha, rfl, rfl⟩, -⟩ :=
    exists_edge_of_blocked hu hold hnew h hblocked hx
  rw [hedge.eq_name hold hb ha]
  exact hy'

lemma exists_renameCycle (hr : st.pendingRenames.get? o = some r) :
    ∃ c, RenameCycle old new c ∧ r.beforeColumnSchema.name ∈ c := by
  have hwaits : Waits old st r.beforeColumnSchema.name :=
    ⟨o, r, hr, get?_old_of_blocked hu hold hnew h hblocked hr, rfl⟩
  have hfinite : Set.Finite {x | Waits old st x} :=
    old.names.finite_toSet.subset fun x hx => Waits.mem_names hx
  obtain ⟨c, hc, hmem⟩ := Cycle.exists_isCycleOf (r := RenameEdge old new) hfinite
    (fun x hx => by
      obtain ⟨y, hy, hedge, -⟩ := exists_edge_of_blocked hu hold hnew h hblocked hx
      exact ⟨y, hy, hedge⟩)
    (fun _ _ => RenameEdge.injective hnew) hwaits
  refine ⟨c, ⟨hc, hc.chain.two_le_length hmem fun hself => ?_⟩, hmem⟩
  obtain ⟨y, -, ⟨o', b, a, hb, ha, hname, rfl⟩, hne⟩ :=
    exists_edge_of_blocked hu hold hnew h hblocked hwaits
  rw [← hname] at hself hne
  exact hne (hself.eq_name hold hb ha)

lemma notMem_of_blocked {c : Cycle String} (hc : RenameCycle old new c)
    (hr : st.pendingRenames.get? o = some r) (hmem : r.beforeColumnSchema.name ∈ c) :
    ∀ t ∈ temporaryRenames (old.names ∪ new.names) st.planner.operations,
      t.beforeColumnSchema.name ∉ c := by
  intro t ht htc
  have hwaits : Waits old st r.beforeColumnSchema.name :=
    ⟨o, r, hr, get?_old_of_blocked hu hold hnew h hblocked hr, rfl⟩
  have hall := hc.chain.forall_mem (p := Waits old st)
    (fun hedge => waits_of_edge hu hold hnew h hblocked hedge) hmem hwaits
  exact (hu.moved t ht).2 (hall _ htc)

lemma breakCycle (hr : st.pendingRenames.get? o = some r)
    (hstep : breakCycle waiting st o r = .ok st') : Unwinding old new total st' := by
  obtain ⟨name, hfresh, hpending, hreserved, hoperations⟩ := breakCycle_eq_ok hstep
  have hforeign : name ∉ old.names ∪ new.names := fun hmem => hfresh (hu.reserved hmem)
  have hmoves : temporaryRenames (old.names ∪ new.names) st'.planner.operations =
      temporaryRenames (old.names ∪ new.names) st.planner.operations ++
        [⟨r.beforeColumnSchema, { r.beforeColumnSchema with name := name }, .rename⟩] := by
    rw [hoperations, temporaryRenames_concat_of_notMem hforeign]
  have hget : ∀ {o' r'}, st'.pendingRenames.get? o' = some r' →
      o' = o ∧ r' = ⟨{ r.beforeColumnSchema with name := name }, r.afterName⟩ ∨
        o' ≠ o ∧ st.pendingRenames.get? o' = some r' := by
    intro o' r' hr'
    rw [hpending, OrderedMap.get?_insert] at hr'
    split_ifs at hr' with ho
    · exact .inl ⟨ho, (Option.some.inj hr').symm⟩
    · exact .inr ⟨ho, hr'⟩
  -- who waits afterwards waited before, and is another column
  have hwaits : ∀ {x}, Waits old st' x → Waits old st x ∧ x ≠ r.beforeColumnSchema.name := by
    rintro x ⟨o', r', hr', hb, rfl⟩
    rcases hget hr' with ⟨rfl, rfl⟩ | ⟨hne, hr'⟩
    · exact absurd (Finset.mem_union_left _ (Columns.mem_names.2 ⟨o', _, hb, rfl⟩)) hforeign
    · exact ⟨⟨o', r', hr', hb, rfl⟩, fun heq =>
        hne (h.sound.distinct (h.pending hr').1 (h.pending hr).1 heq)⟩
  constructor
  case reserved => exact hu.reserved.trans hreserved
  case named =>
    intro o' r' hr'
    rcases hget hr' with ⟨-, rfl⟩ | ⟨-, hr'⟩
    · exact .inr hforeign
    · exact hu.named hr'
  case differs =>
    intro o' r' hr'
    rcases hget hr' with ⟨-, rfl⟩ | ⟨-, hr'⟩
    · intro heq
      have hname : name = r.afterName := heq
      exact hforeign (Finset.mem_union_right _ (hname ▸ h.afterName_mem hr))
    · exact hu.differs hr'
  case whole =>
    intro c hc hnot x hx
    rw [hmoves] at hnot
    obtain ⟨o', r', hr', hb, rfl⟩ :=
      hu.whole hc (fun t ht => hnot t (List.mem_append_left _ ht)) x hx
    refine ⟨o', r', ?_, hb, rfl⟩
    rw [hpending, OrderedMap.get?_insert, if_neg, hr']
    rintro rfl
    rw [hr] at hr'
    cases hr'
    exact hnot _ (List.mem_append_right _ (List.mem_singleton_self _)) hx
  case moved =>
    intro t ht
    rw [hmoves, List.mem_append, List.mem_singleton] at ht
    rcases ht with ht | rfl
    · obtain ⟨hcycle, hnot⟩ := hu.moved t ht
      exact ⟨hcycle, fun hx => hnot (hwaits hx).1⟩
    · exact ⟨exists_renameCycle hu hold hnew h hblocked hr, fun hx => (hwaits hx).2 rfl⟩
  case once =>
    intro c hc
    rw [hmoves, List.countP_append, List.countP_singleton]
    split_ifs with hmem
    · have hnone := notMem_of_blocked hu hold hnew h hblocked hc hr (of_decide_eq_true hmem)
      rw [List.countP_eq_zero.2 fun t ht => by simpa using hnone t ht]
    · exact hu.once hc
  case count =>
    have hsize : st'.pendingRenames.size = st.pendingRenames.size := by
      rw [hpending]
      exact OrderedMap.size_insert_of_isSome (by rw [hr]; rfl) _
    have hcount := hu.count
    rw [hmoves, hsize, hoperations, renameAlterations_concat]
    simp only [List.length_append, List.length_singleton]
    omega

end Blocked

lemma renameLoop (hu : Unwinding old new total st) (hold : old.Sound) (hnew : new.Sound)
    (h : Renaming start (renamedColumns old new) waiting st columns) {rounds : Nat}
    (hloop : renameLoop waiting rounds st = some (.ok st')) :
    Unwinding old new total st' ∧ st'.pendingRenames.entries = [] := by
  have htarget := sound_renamedColumns hold hnew
  induction rounds generalizing st columns with
  | zero =>
    unfold SchemaOperationPlanner.renameLoop at hloop
    split at hloop
    · rename_i hnil
      cases hloop
      exact ⟨hu, List.isEmpty_iff.1 hnil⟩
    · cases hloop
  | succ rounds ih =>
    unfold SchemaOperationPlanner.renameLoop at hloop
    split at hloop
    · rename_i hnil
      cases hloop
      exact ⟨hu, List.isEmpty_iff.1 hnil⟩
    · rename_i hpending
      rw [List.isEmpty_iff] at hpending
      obtain ⟨st₁, columns₁, hround, h₁, -⟩ := h.renameRound htarget hpending
      simp only [hround] at hloop
      refine ih ?_ h₁ hloop
      rcases renameRound_eq_ok hpending hround with ⟨o, ho, hstep⟩ | ⟨hblocked, o, r, hr, hstep⟩
      · exact hu.emitReady hold h ho hstep
      · exact hu.breakCycle hold hnew h hblocked hr hstep

lemma countP_eq_one (hu : Unwinding old new total st) (hnil : st.pendingRenames.entries = [])
    {c : Cycle String} (hc : RenameCycle old new c) :
    (temporaryRenames (old.names ∪ new.names) st.planner.operations).countP
      (fun t => t.beforeColumnSchema.name ∈ c) = 1 := by
  refine Nat.le_antisymm (hu.once hc) (List.countP_pos_iff.2 ?_)
  by_contra hnone
  have hlength := hc.two_le
  obtain ⟨x, hx⟩ : ∃ x, x ∈ c := by
    induction c with
    | nil => simp at hlength
    | cons x l => exact ⟨x, by simp⟩
  obtain ⟨o, r, hr, -⟩ := hu.whole hc
    (fun t ht hmem => hnone ⟨t, ht, decide_eq_true hmem⟩) x hx
  simp [OrderedMap.get?, hnil] at hr

end Unwinding

end Loop

/-! ## Plans -/

section Plan

open SchemaOperationPlanner

variable {rules : NameRules} {diff : SchemaDiff} {old new : Columns}

lemma renameAlterations_planDrops (planner : SchemaOperationPlanner) (drops : List ColumnRemoval) :
    renameAlterations (planner.planDrops rules drops).operations =
      renameAlterations planner.operations := by
  induction drops generalizing planner with
  | nil => rfl
  | cons d drops ih =>
    rw [planDrops, ih]
    simp [push, renameAlterations]

lemma renameAlterations_additions (added : List ColumnAddition) :
    renameAlterations (added.map fun change =>
      .addColumn (rules.mapColumnSchema change.afterColumnSchema) change.reason) = [] := by
  simp [renameAlterations]

lemma kind_ne_rename_of_mem_alterationsOf {change : ColumnMetadataChange} {before : ColumnSchema}
    {alteration : ColumnAlteration} (h : alteration ∈ alterationsOf rules change before) :
    alteration.kind ≠ .rename := by
  simp only [alterationsOf, List.mem_append] at h
  rcases h with (h | h) | h <;> split_ifs at h <;> simp_all

lemma renameAlterations_alterations (altered : List ColumnMetadataChange) :
    renameAlterations (altered.flatMap fun change =>
      (alterationsOf rules change (columnSchemaAfterRenames rules change)).map .alterColumn) = [] := by
  refine List.filterMap_eq_nil_iff.2 fun operation hoperation => ?_
  obtain ⟨change, -, hmem⟩ := List.mem_flatMap.1 hoperation
  obtain ⟨alteration, halteration, rfl⟩ := List.mem_map.1 hmem
  simp [kind_ne_rename_of_mem_alterationsOf halteration]

lemma Describes.unwinding (h : Describes rules diff old new) {start columns : Columns}
    {planner : SchemaOperationPlanner} {ready : OrderedMap Int Unit}
    {waiting : OrderedMap String Int}
    (hrenaming : Renaming start (renamedColumns old new) waiting
      ⟨planner, (collectRenames rules diff.alteredColumns .empty .empty).1, ready, 0⟩ columns)
    (hreserved : old.names ∪ new.names ⊆ planner.reservedDestinationNames)
    (hcolumns : ∀ o, columns.get? o = if (new.get? o).isSome then old.get? o else none)
    (hoperations : renameAlterations planner.operations = []) :
    Unwinding old new (renames rules diff.alteredColumns).length
      ⟨planner, (collectRenames rules diff.alteredColumns .empty .empty).1, ready, 0⟩ := by
  have hmoves : temporaryRenames (old.names ∪ new.names) planner.operations = [] := by
    rw [temporaryRenames, hoperations]
    rfl
  -- a pending column still has its old name
  have hget : ∀ {o r}, (collectRenames rules diff.alteredColumns .empty .empty).1.get? o = some r →
      old.get? o = some r.beforeColumnSchema := by
    intro o r hr
    have hcurrent := (hrenaming.pending hr).1
    rw [hcolumns] at hcurrent
    split_ifs at hcurrent
    exact hcurrent
  constructor
  case reserved => exact hreserved
  case named => exact fun hr => .inl (hget hr)
  case differs =>
    intro o r hr
    obtain ⟨change, hchange, -, rfl⟩ := h.get?_collectRenames.1 hr
    have hrename := (List.mem_filter.1 hchange).2
    simp only [NameRules.equivalent, Bool.and_eq_true, Bool.not_eq_true', decide_eq_false_iff_not]
      at hrename
    exact hrename.2
  case whole =>
    intro c hc _ x hx
    obtain ⟨y, -, ⟨o, b, a, hb, ha, rfl, rfl⟩, hne⟩ :=
      Cycle.exists_mem_rel_ne hc.toIsCycleOf hc.two_le hx
    rcases hr : (collectRenames rules diff.alteredColumns .empty .empty).1.get? o with _ | r
    · -- a column that is not pending keeps its name
      have hsettled := hrenaming.settled hr
      rw [hcolumns, ha, get?_renamedColumns_of_some hb ha, hb] at hsettled
      exact absurd (congrArg (·.name) (Option.some.inj hsettled)) hne
    · have hold := hget hr
      rw [hb] at hold
      cases hold
      exact ⟨o, r, hr, hb, rfl⟩
  case moved => simp [hmoves]
  case once => simp [hmoves]
  case count =>
    rw [hmoves, hoperations, collectRenames_eq]
    simp only [List.length_nil, Nat.zero_add, Nat.add_zero]
    exact OrderedMap.size_foldl_insert_empty _ _ h.nodup_renames

lemma Describes.plan_cycles (h : Describes rules diff old new) (hold : old.Sound)
    (hnew : new.Sound) {rounds : Nat} {operations : List SchemaOperation}
    (hplan : plan rules rounds ⟨[], old.names, old.names ∪ new.names⟩ diff = some (.ok operations)) :
    (renameAlterations operations).length = (renames rules diff.alteredColumns).length +
        (temporaryRenames (old.names ∪ new.names) operations).length ∧
      (∀ c, RenameCycle old new c → (temporaryRenames (old.names ∪ new.names) operations).countP
        (fun t => t.beforeColumnSchema.name ∈ c) = 1) ∧
      ∀ t ∈ temporaryRenames (old.names ∪ new.names) operations,
        ∃ c, RenameCycle old new c ∧ t.beforeColumnSchema.name ∈ c := by
  have hstart : Tracks old ⟨[], old.names, old.names ∪ new.names⟩ old := ⟨rfl, hold, rfl⟩
  obtain ⟨kept, htracks, hreserved, hkept⟩ :=
    hstart.planDrops (fun d hd => (h.dropped d hd).1) h.nodup_dropped
  have hcommon : ∀ o, kept.get? o = if (new.get? o).isSome then old.get? o else none := fun o =>
    (hkept o).trans (h.get?_kept o)
  have hrenaming := h.renaming hnew htracks hreserved.ge hcommon
  have hunwinding := h.unwinding hrenaming hreserved.ge hcommon
    (renameAlterations_planDrops _ diff.droppedColumns)
  simp only [plan, planRenames, Option.map_map, Option.map_eq_some_iff, Function.comp] at hplan
  obtain ⟨result, hloop, hresult⟩ := hplan
  rcases result with e | st
  · cases hresult
  · obtain ⟨hu, hnil⟩ := hunwinding.renameLoop hold hnew hrenaming hloop
    have hoperations : operations = _ := (Except.ok.inj hresult).symm
    have hrenames : renameAlterations operations = renameAlterations st.planner.operations := by
      rw [hoperations]
      simp only [planAlterations, planAdditions, renameAlterations_append,
        renameAlterations_additions, renameAlterations_alterations, List.append_nil]
    have htemporary : temporaryRenames (old.names ∪ new.names) operations =
        temporaryRenames (old.names ∪ new.names) st.planner.operations := by
      rw [temporaryRenames, hrenames, temporaryRenames]
    have hcount := hu.count
    rw [OrderedMap.size, hnil, List.length_nil, Nat.add_zero] at hcount
    rw [hrenames, htemporary]
    exact ⟨hcount, fun c hc => hu.countP_eq_one hnil hc, fun t ht => (hu.moved t ht).1⟩

end Plan

section Versions

variable {rules : NameRules} {before after : ReplicatedTableSchema}

lemma nodup_of_collectUniqueColumnNames {endpoint : SchemaEndpoint} {names : List String}
    {collected all : OrderedMap String String}
    (h : collectUniqueColumnNames rules endpoint names collected = .ok all) :
    (names.map rules.mapName).Nodup ∧ ∀ name ∈ names, collected.get? (rules.mapName name) = none := by
  induction names generalizing collected with
  | nil => simp
  | cons name names ih =>
    rw [collectUniqueColumnNames] at h
    split at h
    · cases h
    · rename_i hnone
      obtain ⟨hnodup, hfree⟩ := ih h
      have hother : ∀ other ∈ names, rules.mapName other ≠ rules.mapName name ∧
          collected.get? (rules.mapName other) = none := by
        intro other hother
        have hget := hfree other hother
        rw [OrderedMap.get?_insert] at hget
        split_ifs at hget with heq
        exact ⟨heq, hget⟩
      refine ⟨List.nodup_cons.2 ⟨fun hmem => ?_, hnodup⟩, ?_⟩
      · obtain ⟨other, hmem, heq⟩ := List.mem_map.1 hmem
        exact (hother other hmem).1 heq
      · intro other hmem
        rcases List.mem_cons.1 hmem with rfl | hmem
        · exact hnone
        · exact (hother other hmem).2

lemma nodup_of_planSchemaChange {rounds : Nat} {plan : SchemaPlan}
    (h : planSchemaChange rules rounds before after = some (.ok plan)) :
    (before.columnSchemas.map fun column => rules.mapName column.name).Nodup ∧
      (after.columnSchemas.map fun column => rules.mapName column.name).Nodup := by
  rw [planSchemaChange] at h
  split at h
  · cases h
  · rename_i planner hplanner
    rw [SchemaOperationPlanner.new] at hplanner
    obtain ⟨beforeNames, hb, hrest⟩ := Except.exists_of_bind_eq_ok hplanner
    obtain ⟨afterNames, ha, -⟩ := Except.exists_of_bind_eq_ok hrest
    have hbeforeNames := (nodup_of_collectUniqueColumnNames hb).1
    have hafterNames := (nodup_of_collectUniqueColumnNames ha).1
    rw [List.map_map] at hbeforeNames hafterNames
    exact ⟨hbeforeNames, hafterNames⟩

/-- A plan tells whether the renames of the columns of both versions have a cycle, and it moves
exactly one column of each cycle to a temporary name, and no other column. -/
theorem hasRenameCycles_iff_cycle (rules : NameRules) (before after : ReplicatedTableSchema)
    (hbefore : (ordinals before.columnSchemas).Nodup)
    (hafter : (ordinals after.columnSchemas).Nodup) (rounds : Nat) (plan : SchemaPlan)
    (hplan : planSchemaChange rules rounds before after = some (.ok plan)) :
    let old := before.destinationColumns rules
    let new := after.destinationColumns rules
    let temporary := temporaryRenames (old.names ∪ new.names) plan.orderedOperations
    (plan.hasRenameCycles rules.toLowercase = true ↔ ∃ c, RenameCycle old new c) ∧
      (∀ c, RenameCycle old new c → temporary.countP (·.beforeColumnSchema.name ∈ c) = 1) ∧
      ∀ t ∈ temporary, ∃ c, RenameCycle old new c ∧ t.beforeColumnSchema.name ∈ c := by
  intro old new temporary
  have hnames := nodup_of_planSchemaChange hplan
  rw [planSchemaChange_eq hbefore hafter hnames.1 hnames.2] at hplan
  obtain ⟨result, hresult, hmap⟩ := Option.map_eq_some_iff.1 hplan
  rcases result with e | operations
  · cases hmap
  cases hmap
  obtain ⟨hcount, hone, hcycle⟩ := (describes_diff hbefore hafter).plan_cycles
    (sound_destinationColumns hbefore hnames.1) (sound_destinationColumns hafter hnames.2) hresult
  refine ⟨?_, hone, hcycle⟩
  -- more renames than the versions need are renames to temporary names
  have hmore : SchemaPlan.hasRenameCycles rules.toLowercase
      ⟨before.diff after, operations, rules.mapping⟩ = true ↔ 0 < temporary.length := by
    simp only [SchemaPlan.hasRenameCycles, decide_eq_true_iff, hcount]
    exact Nat.lt_add_right_iff_pos
  rw [hmore, List.length_pos_iff_exists_mem]
  constructor
  · rintro ⟨t, ht⟩
    obtain ⟨c, hc, -⟩ := hcycle t ht
    exact ⟨c, hc⟩
  · rintro ⟨c, hc⟩
    have hpos : 0 < temporary.countP (·.beforeColumnSchema.name ∈ c) := by rw [hone c hc]; decide
    obtain ⟨t, ht, -⟩ := List.countP_pos_iff.1 hpos
    exact ⟨t, ht⟩

/-- Two columns that swap their names are a cycle. -/
theorem hasRenameCycles_iff_cycle_swap :
    ∃ plan, planSchemaChange ⟨.identity, id⟩ 5 (sampleSchemaVersion [(1, "a"), (2, "b")])
        (sampleSchemaVersion [(1, "b"), (2, "a")]) = some (.ok plan) ∧
      plan.hasRenameCycles id = true := by
  have hbefore : (ordinals (sampleSchemaVersion [(1, "a"), (2, "b")]).columnSchemas).Nodup := by
    decide
  have hafter : (ordinals (sampleSchemaVersion [(1, "b"), (2, "a")]).columnSchemas).Nodup := by
    decide
  have hdescribes : Describes ⟨.identity, id⟩ _ _ _ := describes_diff hbefore hafter
  obtain ⟨operations, -, hoperations, -⟩ := hdescribes.exists_plan_eq
    (sound_destinationColumns hbefore (by decide)) (sound_destinationColumns hafter (by decide))
    (Nat.le_refl 5) (Finset.Subset.refl _)
  have hplan : planSchemaChange ⟨.identity, id⟩ 5 _ _ = some (.ok _) :=
    (planSchemaChange_eq hbefore hafter (by decide) (by decide) 5).trans
      (congrArg (Option.map (Except.map _)) hoperations)
  refine ⟨_, hplan, (hasRenameCycles_iff_cycle _ _ _ hbefore hafter 5 _ hplan).1.2 ?_⟩
  refine ⟨(["a", "b"] : List String), ⟨?_, by decide⟩, by decide⟩
  rw [Cycle.chain_coe_cons]
  refine .cons_cons ⟨1, _, _, rfl, rfl, rfl, rfl⟩ (.cons_cons ⟨2, _, _, rfl, rfl, rfl, rfl⟩ ?_)
  exact .singleton _

end Versions

end Etl
