import Mathlib
import Etl.SchemaPlan

/-!
# The rename loop ends

`Renaming` compares the table reached so far with the columns after all renames. The ready renames
are those whose new name is free. `exists_renameLoop_eq` bounds the rounds.
-/

namespace Etl

namespace Columns

variable {columns : Columns}

/-- Columns are kept under their ordinal, and no two have the same name. -/
structure Sound (columns : Columns) : Prop where
  keyed : ∀ {o c}, columns.get? o = some c → c.ordinalPosition = o
  distinct : ∀ {o o' c c'}, columns.get? o = some c → columns.get? o' = some c' →
    c.name = c'.name → o = o'

lemma mem_names {name : String} :
    name ∈ columns.names ↔ ∃ o c, columns.get? o = some c ∧ c.name = name := by
  simp only [names, List.mem_toFinset, List.mem_map, Prod.exists, OrderedMap.mem_entries_iff]

lemma applyAll_append (columns : Columns) (first second : List SchemaOperation) :
    columns.applyAll (first ++ second) = (columns.applyAll first).bind (·.applyAll second) := by
  simp only [applyAll, List.foldlM_append]
  rfl

lemma applyAll_cons (columns : Columns) (operation : SchemaOperation)
    (rest : List SchemaOperation) :
    columns.applyAll (operation :: rest) = (columns.apply operation).bind (·.applyAll rest) := rfl

lemma applyAll_concat {start columns columns' : Columns} {operations : List SchemaOperation}
    {operation : SchemaOperation} (h : start.applyAll operations = some columns)
    (hstep : columns.apply operation = some columns') :
    start.applyAll (operations ++ [operation]) = some columns' := by
  rw [applyAll_append, h, Option.bind_some, applyAll_cons, hstep]
  rfl

def rename (columns : Columns) (c : ColumnSchema) (name : String) : Columns :=
  columns.insert c.ordinalPosition { c with name := name }

section Rename

variable {c : ColumnSchema} {name : String}

lemma get?_rename (o : Int) :
    (columns.rename c name).get? o =
      if o = c.ordinalPosition then some { c with name := name } else columns.get? o :=
  OrderedMap.get?_insert ..

lemma apply_rename (hget : columns.get? c.ordinalPosition = some c)
    (hfree : name ∉ columns.names) :
    columns.apply (.alterColumn ⟨c, { c with name := name }, .rename⟩) =
      some (columns.rename c name) := by
  have hne : c.name ≠ name := fun h => hfree (mem_names.2 ⟨_, c, hget, h⟩)
  have hchanged : c ≠ { c with name := name } := fun h => hne (congrArg (·.name) h)
  have hvalid : ColumnAlteration.isValid ⟨c, { c with name := name }, .rename⟩ := by
    simp [ColumnAlteration.isValid, ColumnAlteration.expectedAfter, hchanged]
  simp [apply, hvalid, hget, hfree, rename]

lemma Sound.rename (hsound : columns.Sound) (hfree : name ∉ columns.names) :
    (columns.rename c name).Sound where
  keyed {o d} h := by
    rw [get?_rename] at h
    split_ifs at h with ho
    · cases h
      exact ho.symm
    · exact hsound.keyed h
  distinct {o o' d d'} h h' hname := by
    rw [get?_rename] at h h'
    split_ifs at h h' with ho ho' ho'
    · rw [ho, ho']
    · cases h
      exact absurd (mem_names.2 ⟨o', d', h', hname.symm⟩) hfree
    · cases h'
      exact absurd (mem_names.2 ⟨o, d, h, hname⟩) hfree
    · exact hsound.distinct h h' hname

lemma names_rename (hsound : columns.Sound) (hget : columns.get? c.ordinalPosition = some c) :
    (columns.rename c name).names = insert name (columns.names.erase c.name) := by
  ext other
  simp only [mem_names, Finset.mem_insert, Finset.mem_erase, get?_rename]
  constructor
  · rintro ⟨o, d, h, rfl⟩
    split_ifs at h with ho
    · cases h
      exact .inl rfl
    · exact .inr ⟨fun heq => ho (hsound.distinct h hget heq), o, d, h, rfl⟩
  · rintro (rfl | ⟨hne, o, d, h, rfl⟩)
    · exact ⟨c.ordinalPosition, _, if_pos rfl, rfl⟩
    · have ho : o ≠ c.ordinalPosition := by
        rintro rfl
        rw [hget] at h
        cases h
        exact hne rfl
      exact ⟨o, d, by rw [if_neg ho, h], rfl⟩

end Rename

end Columns

/-! ## Temporary names -/

lemma temporaryName_injective (ordinalPosition : Int) :
    Function.Injective (temporaryName ordinalPosition) := by
  intro m n h
  simp only [temporaryName, String.append_right_inj] at h
  have hrender : Text.render 10 m = Text.render 10 n := String.ofList_injective h
  have hparse := congrArg (Text.parse? 10) hrender
  rw [Text.parse?_render (by decide) (by decide), Text.parse?_render (by decide) (by decide)]
    at hparse
  exact Option.some.inj hparse

lemma temporaryName_mem_of_nextTemporaryName_mem {reserved : Finset String}
    {ordinalPosition : Int} {attempts sequence : Nat}
    (h : (nextTemporaryName reserved ordinalPosition attempts sequence).1 ∈ reserved) :
    ∀ i ≤ attempts, temporaryName ordinalPosition (sequence + i) ∈ reserved := by
  induction attempts generalizing sequence with
  | zero =>
    intro i hi
    obtain rfl : i = 0 := by omega
    exact h
  | succ attempts ih =>
    rw [nextTemporaryName] at h
    split at h
    · rename_i hfirst
      intro i hi
      rcases i with _ | i
      · exact hfirst
      · have := ih h i (by omega)
        rwa [Nat.add_right_comm] at this
    · rename_i hfirst
      exact absurd h hfirst

lemma nextTemporaryName_notMem (reserved : Finset String) (ordinalPosition : Int)
    (sequence : Nat) :
    (nextTemporaryName reserved ordinalPosition reserved.card sequence).1 ∉ reserved := by
  intro h
  have hall := temporaryName_mem_of_nextTemporaryName_mem h
  have hsub : (Finset.range (reserved.card + 1)).image
      (fun i => temporaryName ordinalPosition (sequence + i)) ⊆ reserved := by
    intro name hname
    obtain ⟨i, hi, rfl⟩ := Finset.mem_image.1 hname
    exact hall i (Nat.lt_succ_iff.1 (Finset.mem_range.1 hi))
  have hinj : Function.Injective fun i => temporaryName ordinalPosition (sequence + i) :=
    (temporaryName_injective ordinalPosition).comp (add_right_injective sequence)
  have hcard := Finset.card_le_card hsub
  rw [Finset.card_image_of_injective _ hinj, Finset.card_range] at hcard
  omega

/-! ## One round -/

section Loop

open SchemaOperationPlanner

variable {start target columns : Columns} {waiting : OrderedMap String Int} {st : RenameState}

/-- `start` is the table the plan begins with, `columns` what the operations so far make of it, and
`target` what the renames lead to. -/
structure Renaming (start target : Columns) (waiting : OrderedMap String Int) (st : RenameState)
    (columns : Columns) : Prop where
  executed : start.applyAll st.planner.operations = some columns
  sound : columns.Sound
  occupied : st.planner.occupiedDestinationNames = columns.names
  reserved : columns.names ∪ target.names ⊆ st.planner.reservedDestinationNames
  pending : ∀ {o r}, st.pendingRenames.get? o = some r →
    columns.get? o = some r.beforeColumnSchema ∧
      target.get? o = some { r.beforeColumnSchema with name := r.afterName }
  settled : ∀ {o}, st.pendingRenames.get? o = none → columns.get? o = target.get? o
  /-- Who waits for a name is going to have it. -/
  waits : ∀ {name o}, waiting.get? name = some o → ∃ c, target.get? o = some c ∧ c.name = name
  waited : ∀ {o r}, st.pendingRenames.get? o = some r → waiting.get? r.afterName = some o
  ready : ∀ {o}, (st.readyRenames.get? o).isSome ↔
    ∃ r, st.pendingRenames.get? o = some r ∧ r.afterName ∉ columns.names

lemma isSome_get?_wake (ready : OrderedMap Int Unit) (waiting : OrderedMap String Int)
    (name : String) (p : Int → Bool) (o : Int) :
    (OrderedMap.get? (match waiting.get? name with
      | some w => if p w then ready.insert w () else ready
      | none => ready) o).isSome ↔
        (ready.get? o).isSome ∨ waiting.get? name = some o ∧ p o := by
  rcases waiting.get? name with _ | w
  · simp
  · by_cases ho : o = w
    · subst ho
      rcases hp : p o with _ | _ <;> simp [hp]
    · have hne : some w ≠ some o := fun heq => ho (Option.some.inj heq).symm
      rcases hp : p w with _ | _ <;> simp [hp, OrderedMap.get?_insert, ho, hne]

namespace Renaming

variable {o : Int} {r : PendingRename}

lemma ordinalPosition_eq (h : Renaming start target waiting st columns)
    (hr : st.pendingRenames.get? o = some r) : r.beforeColumnSchema.ordinalPosition = o :=
  h.sound.keyed (h.pending hr).1

lemma waiting_iff (h : Renaming start target waiting st columns)
    (hr : st.pendingRenames.get? o = some r) {name : String} :
    waiting.get? name = some o ↔ r.afterName = name := by
  constructor
  · intro hname
    obtain ⟨c, hc, rfl⟩ := h.waits hname
    rw [(h.pending hr).2] at hc
    cases hc
    rfl
  · rintro rfl
    exact h.waited hr

lemma afterName_ne (h : Renaming start target waiting st columns) (htarget : target.Sound)
    {o' : Int} {r' : PendingRename} (hne : o' ≠ o) (hr' : st.pendingRenames.get? o' = some r')
    (hr : st.pendingRenames.get? o = some r) : r'.afterName ≠ r.afterName := fun heq =>
  hne (htarget.distinct (h.pending hr').2 (h.pending hr).2 heq)

lemma rename_columns (h : Renaming start target waiting st columns)
    (hr : st.pendingRenames.get? o = some r) {name : String} (hfree : name ∉ columns.names) :
    let before := r.beforeColumnSchema
    start.applyAll (st.planner.pushAlteration before { before with name := name }
        .rename).operations = some (columns.rename before name) ∧
      (columns.rename before name).Sound ∧
      (columns.rename before name).names = insert name (columns.names.erase before.name) := by
  have hget := (h.pending hr).1
  rw [← h.ordinalPosition_eq hr] at hget
  exact ⟨Columns.applyAll_concat h.executed (Columns.apply_rename hget hfree),
    h.sound.rename hfree, Columns.names_rename h.sound hget⟩

lemma get?_rename (h : Renaming start target waiting st columns)
    (hr : st.pendingRenames.get? o = some r) (name : String) (o' : Int) :
    (columns.rename r.beforeColumnSchema name).get? o' =
      if o' = o then some { r.beforeColumnSchema with name := name } else columns.get? o' := by
  rw [Columns.get?_rename]
  simp only [h.ordinalPosition_eq hr]

lemma emitReady (h : Renaming start target waiting st columns) (htarget : target.Sound)
    (ho : (st.readyRenames.get? o).isSome) :
    ∃ st' columns', emitReady waiting st o = .ok st' ∧
      Renaming start target waiting st' columns' ∧
      st'.pendingRenames = st.pendingRenames.erase o ∧ (st.pendingRenames.get? o).isSome := by
  obtain ⟨r, hr, hfree⟩ := h.ready.1 ho
  obtain ⟨hget, hgoal⟩ := h.pending hr
  obtain ⟨hexecuted, hsound, hnames⟩ := h.rename_columns hr hfree
  have hmem : r.beforeColumnSchema.name ∈ columns.names := Columns.mem_names.2 ⟨_, _, hget, rfl⟩
  refine ⟨_, columns.rename r.beforeColumnSchema r.afterName,
    by simp only [SchemaOperationPlanner.emitReady, hr]; rfl, ?_, rfl, by rw [hr]; rfl⟩
  constructor
  case executed => exact hexecuted
  case sound => exact hsound
  case occupied =>
    rw [hnames, ← h.occupied]
    rfl
  case reserved =>
    rw [hnames]
    intro name hname
    refine h.reserved ?_
    simp only [Finset.mem_union, Finset.mem_insert, Finset.mem_erase] at hname ⊢
    rcases hname with (rfl | ⟨-, hname⟩) | hname
    · exact .inr (Columns.mem_names.2 ⟨_, _, hgoal, rfl⟩)
    · exact .inl hname
    · exact .inr hname
  case pending =>
    intro o' r' hr'
    rw [OrderedMap.get?_erase] at hr'
    split_ifs at hr' with ho'
    rw [h.get?_rename hr, if_neg ho']
    exact h.pending hr'
  case settled =>
    intro o' hnone
    rw [OrderedMap.get?_erase] at hnone
    rw [h.get?_rename hr]
    split_ifs at hnone ⊢ with ho'
    · rw [ho', hgoal]
    · exact h.settled hnone
  case waits => exact h.waits
  case waited =>
    intro o' r' hr'
    rw [OrderedMap.get?_erase] at hr'
    split_ifs at hr'
    exact h.waited hr'
  case ready =>
    intro o'
    refine (isSome_get?_wake (st.readyRenames.erase o) waiting r.beforeColumnSchema.name
      (fun w => ((st.pendingRenames.erase o).get? w).isSome) o').trans ?_
    simp only [OrderedMap.get?_erase]
    split_ifs with ho'
    · simp
    · rw [h.ready, hnames]
      constructor
      · rintro (⟨r', hr', hfree'⟩ | ⟨hwait, hsome⟩)
        · have hne := h.afterName_ne htarget ho' hr' hr
          exact ⟨r', hr', by simp [hne, hfree']⟩
        · obtain ⟨r', hr'⟩ := Option.isSome_iff_exists.1 hsome
          have hne := h.afterName_ne htarget ho' hr' hr
          have hold := (h.waiting_iff hr').1 hwait
          rw [hold] at hne
          exact ⟨r', hr', by simp [hold, hne]⟩
      · rintro ⟨r', hr', hfree'⟩
        by_cases hold : r'.afterName = r.beforeColumnSchema.name
        · exact .inr ⟨(h.waiting_iff hr').2 hold, by rw [hr']; rfl⟩
        · refine .inl ⟨r', hr', fun hname => hfree' ?_⟩
          exact Finset.mem_insert_of_mem (Finset.mem_erase.2 ⟨hold, hname⟩)

lemma taken_of_blocked (h : Renaming start target waiting st columns)
    (hblocked : ∀ o, st.readyRenames.get? o = none) (hr : st.pendingRenames.get? o = some r) :
    r.afterName ∈ columns.names := by
  by_contra hfree
  have hready := h.ready.2 ⟨r, hr, hfree⟩
  simp [hblocked] at hready

lemma exists_pending_of_blocked (h : Renaming start target waiting st columns)
    (htarget : target.Sound) (hblocked : ∀ o, st.readyRenames.get? o = none)
    (hr : st.pendingRenames.get? o = some r) :
    ∃ o' r', st.pendingRenames.get? o' = some r' ∧ r'.beforeColumnSchema.name = r.afterName := by
  obtain ⟨o', c, hc, hname⟩ := Columns.mem_names.1 (h.taken_of_blocked hblocked hr)
  rcases hr' : st.pendingRenames.get? o' with _ | r'
  · -- a settled column of that name would be the column that is renamed itself
    rw [h.settled hr'] at hc
    have heq : o' = o := htarget.distinct hc (h.pending hr).2 hname
    rw [heq, hr] at hr'
    cases hr'
  · rw [(h.pending hr').1] at hc
    cases hc
    exact ⟨o', r', hr', hname⟩

/-- While no rename is ready, every current name of a pending column is waited for. -/
lemma exists_waiting_of_blocked (h : Renaming start target waiting st columns)
    (htarget : target.Sound) (hblocked : ∀ o, st.readyRenames.get? o = none)
    (hr : st.pendingRenames.get? o = some r) :
    ∃ o' r', st.pendingRenames.get? o' = some r' ∧ r'.afterName = r.beforeColumnSchema.name := by
  let entries := st.pendingRenames.entries
  have hentry : ∀ e ∈ entries, st.pendingRenames.get? e.1 = some e.2 := fun e he =>
    (OrderedMap.mem_entries_iff _ e.1 e.2).1 he
  have hkeys : ∀ e ∈ entries, ∀ e' ∈ entries, e.1 = e'.1 → e = e' := by
    intro e he e' he' heq
    have hvalue := hentry e he
    rw [heq, hentry e' he'] at hvalue
    exact Prod.ext heq (Option.some.inj hvalue).symm
  have hafter : (entries.map (·.2.afterName)).Nodup := by
    refine st.pendingRenames.nodup_entries.map_on fun e he e' he' heq => hkeys e he e' he' ?_
    exact htarget.distinct (h.pending (hentry e he)).2 (h.pending (hentry e' he')).2 heq
  have hsub : entries.map (·.2.afterName) ⊆ entries.map (·.2.beforeColumnSchema.name) := by
    intro name hname
    obtain ⟨e, he, rfl⟩ := List.mem_map.1 hname
    obtain ⟨o', r', hr', heq⟩ := h.exists_pending_of_blocked htarget hblocked (hentry e he)
    exact List.mem_map.2 ⟨(o', r'), (OrderedMap.mem_entries_iff _ o' r').2 hr', heq⟩
  -- as many new names as columns, all different: no current name is left out
  have hperm := (hafter.subperm hsub).perm_of_length_le (by simp)
  have hmem : r.beforeColumnSchema.name ∈ entries.map (·.2.beforeColumnSchema.name) :=
    List.mem_map.2 ⟨(o, r), (OrderedMap.mem_entries_iff _ o r).2 hr, rfl⟩
  obtain ⟨e, he, heq⟩ := List.mem_map.1 (hperm.mem_iff.2 hmem)
  exact ⟨e.1, e.2, hentry e he, heq⟩

lemma breakCycle (h : Renaming start target waiting st columns) (htarget : target.Sound)
    (hblocked : ∀ o, st.readyRenames.get? o = none) (hr : st.pendingRenames.get? o = some r) :
    ∃ st' columns', breakCycle waiting st o r = .ok st' ∧
      Renaming start target waiting st' columns' ∧
      st'.pendingRenames.size = st.pendingRenames.size ∧
      ∃ o', (st'.readyRenames.get? o').isSome := by
  obtain ⟨hget, hgoal⟩ := h.pending hr
  have howner : st.pendingRenames.entries.any
      fun entry => entry.2.beforeColumnSchema.name = r.afterName := by
    obtain ⟨o', r', hr', heq⟩ := h.exists_pending_of_blocked htarget hblocked hr
    exact List.any_eq_true.2
      ⟨(o', r'), (OrderedMap.mem_entries_iff _ o' r').2 hr', by simpa using heq⟩
  obtain ⟨w, rWait, hw, hwait⟩ := h.exists_waiting_of_blocked htarget hblocked hr
  have hwaiting : waiting.get? r.beforeColumnSchema.name = some w := (h.waiting_iff hw).2 hwait
  set reserved := st.planner.reservedDestinationNames with hreserved
  set next := nextTemporaryName reserved o reserved.card st.temporaryNameSequence with hnext
  have hfresh : next.1 ∉ reserved := nextTemporaryName_notMem _ _ _
  have hfree : next.1 ∉ columns.names := fun hmem =>
    hfresh (h.reserved (Finset.mem_union_left _ hmem))
  have hforeign : next.1 ∉ target.names := fun hmem =>
    hfresh (h.reserved (Finset.mem_union_right _ hmem))
  obtain ⟨hexecuted, hsound, hnames⟩ := h.rename_columns hr hfree
  -- the only name that becomes free is the one the woken rename waits for
  have hfreed : ∀ {o' r'}, st.pendingRenames.get? o' = some r' →
      (r'.afterName ∉ insert next.1 (columns.names.erase r.beforeColumnSchema.name) ↔ o' = w) := by
    intro o' r' hr'
    have htaken := h.taken_of_blocked hblocked hr'
    have hne : r'.afterName ≠ next.1 := by
      rintro heq
      exact hforeign (Columns.mem_names.2 ⟨_, _, (h.pending hr').2, heq⟩)
    have hold : w = o' ↔ r'.afterName = r.beforeColumnSchema.name := by
      rw [← h.waiting_iff hr', hwaiting, Option.some.injEq]
    simp only [Finset.mem_insert, Finset.mem_erase, htaken, hne, false_or, and_true, not_not,
      ← hold, eq_comm, ne_eq]
  refine ⟨_, columns.rename r.beforeColumnSchema next.1,
    by simp only [SchemaOperationPlanner.breakCycle, howner, hwaiting, if_true]; rfl, ?_, ?_,
    w, by simp⟩
  · constructor
    case executed => exact hexecuted
    case sound => exact hsound
    case occupied =>
      rw [hnames, ← h.occupied]
      rfl
    case reserved =>
      rw [hnames]
      intro name hname
      simp only [Finset.mem_union, Finset.mem_insert, Finset.mem_erase] at hname ⊢
      rcases hname with (rfl | ⟨-, hname⟩) | hname
      · exact .inl rfl
      · exact .inr (h.reserved (Finset.mem_union_left _ hname))
      · exact .inr (h.reserved (Finset.mem_union_right _ hname))
    case pending =>
      intro o' r' hr'
      rw [OrderedMap.get?_insert] at hr'
      rw [h.get?_rename hr]
      split_ifs at hr' ⊢ with ho'
      · cases hr'
        exact ⟨rfl, ho' ▸ hgoal⟩
      · exact h.pending hr'
    case settled =>
      intro o' hnone
      rw [OrderedMap.get?_insert] at hnone
      split_ifs at hnone with ho'
      rw [h.get?_rename hr, if_neg ho']
      exact h.settled hnone
    case waits => exact h.waits
    case waited =>
      intro o' r' hr'
      rw [OrderedMap.get?_insert] at hr'
      split_ifs at hr' with ho'
      · cases hr'
        have hwaited := h.waited hr
        rwa [← ho'] at hwaited
      · exact h.waited hr'
    case ready =>
      intro o'
      have hwoken : ((st.readyRenames.insert w ()).get? o').isSome ↔ o' = w := by
        rw [OrderedMap.get?_insert]
        split_ifs with ho' <;> simp [ho', hblocked]
      rw [hwoken, hnames]
      constructor
      · rintro rfl
        have hfree' := (hfreed hw).2 rfl
        rw [OrderedMap.get?_insert]
        split_ifs with ho'
        · subst ho'
          obtain rfl : r = rWait := Option.some.inj (hr.symm.trans hw)
          exact ⟨_, rfl, hfree'⟩
        · exact ⟨rWait, hw, hfree'⟩
      · rintro ⟨r', hr', hfree'⟩
        rw [OrderedMap.get?_insert] at hr'
        split_ifs at hr' with ho'
        · cases hr'
          rw [ho']
          exact (hfreed hr).1 hfree'
        · exact (hfreed hr').1 hfree'
  · exact OrderedMap.size_insert_of_isSome (by rw [hr]; rfl) _

end Renaming

/-! ## The whole loop -/

/-- Two for every pending rename, as it may have to make room first. -/
def RenameState.roundsLeft (st : RenameState) : Nat :=
  2 * st.pendingRenames.size + if st.readyRenames.entries.isEmpty then 1 else 0

lemma RenameState.roundsLeft_le (st : RenameState) :
    st.roundsLeft ≤ 2 * st.pendingRenames.size + 1 := by
  unfold roundsLeft
  split <;> omega

lemma Renaming.roundsLeft_le (h : Renaming start target waiting st columns) :
    st.roundsLeft ≤ 2 * columns.size + 1 := by
  have hsize : st.pendingRenames.size ≤ columns.size := by
    refine OrderedMap.size_le_of_isSome fun o ho => ?_
    obtain ⟨r, hr⟩ := Option.isSome_iff_exists.1 ho
    rw [(h.pending hr).1]
    rfl
  have hle := st.roundsLeft_le
  omega

lemma Renaming.renameRound (h : Renaming start target waiting st columns)
    (htarget : target.Sound) (hpending : st.pendingRenames.entries ≠ []) :
    ∃ st' columns', renameRound waiting st = .ok st' ∧
      Renaming start target waiting st' columns' ∧ st'.roundsLeft < st.roundsLeft := by
  rcases hready : st.readyRenames.entries with _ | ⟨⟨o, u⟩, rest⟩
  · rcases hentries : st.pendingRenames.entries with _ | ⟨⟨o, r⟩, rest⟩
    · exact absurd hentries hpending
    · have hblocked : ∀ o, st.readyRenames.get? o = none := fun o => by
        simp [OrderedMap.get?, hready]
      have hr : st.pendingRenames.get? o = some r :=
        (OrderedMap.mem_entries_iff _ o r).1 (by rw [hentries]; exact List.mem_cons_self)
      obtain ⟨st', columns', hround, h', hsize, o', ho'⟩ := h.breakCycle htarget hblocked hr
      refine ⟨st', columns', by rw [SchemaOperationPlanner.renameRound, hready, hentries]; exact hround,
        h', ?_⟩
      have hsome : st'.readyRenames.entries ≠ [] := by
        intro hnil
        simp [OrderedMap.get?, hnil] at ho'
      simp [RenameState.roundsLeft, hsize, hready, hsome]
  · have ho : st.readyRenames.get? o = some u :=
      (OrderedMap.mem_entries_iff _ o u).1 (by rw [hready]; exact List.mem_cons_self)
    obtain ⟨st', columns', hround, h', herase, hsome⟩ := h.emitReady htarget (by rw [ho]; rfl)
    refine ⟨st', columns', by rw [SchemaOperationPlanner.renameRound, hready]; exact hround, h', ?_⟩
    have hsize := OrderedMap.size_erase_of_isSome hsome
    have hle := st'.roundsLeft_le
    rw [herase] at hle
    have hge : 2 * st.pendingRenames.size ≤ st.roundsLeft := Nat.le_add_right ..
    omega

lemma Renaming.renameLoop_of_nil (h : Renaming start target waiting st columns)
    (hnil : st.pendingRenames.entries = []) (rounds : Nat) :
    renameLoop waiting rounds st = some (.ok st) ∧
      start.applyAll st.planner.operations = some target := by
  have hnone : ∀ o, st.pendingRenames.get? o = none := fun o => by simp [OrderedMap.get?, hnil]
  have heq : columns = target := OrderedMap.ext_get? fun o => h.settled (hnone o)
  refine ⟨?_, heq ▸ h.executed⟩
  unfold renameLoop
  simp [hnil]

lemma Renaming.exists_renameLoop_eq (h : Renaming start target waiting st columns)
    (htarget : target.Sound) {rounds : Nat} (hrounds : st.roundsLeft ≤ rounds) :
    ∃ st', renameLoop waiting rounds st = some (.ok st') ∧
      start.applyAll st'.planner.operations = some target := by
  -- every round uses up one of the rounds left
  induction rounds generalizing st columns with
  | zero =>
    have hsize : 2 * st.pendingRenames.size ≤ st.roundsLeft := Nat.le_add_right ..
    have hzero : st.pendingRenames.size = 0 := by omega
    exact ⟨st, h.renameLoop_of_nil (List.length_eq_zero_iff.1 hzero) 0⟩
  | succ rounds ih =>
    by_cases hnil : st.pendingRenames.entries = []
    · exact ⟨st, h.renameLoop_of_nil hnil _⟩
    · obtain ⟨st₁, columns₁, hround, h₁, hlt⟩ := h.renameRound htarget hnil
      obtain ⟨st', hloop, hrun⟩ := ih h₁ (by omega)
      refine ⟨st', ?_, hrun⟩
      unfold renameLoop
      simp only [List.isEmpty_iff, hnil, if_false, hround]
      exact hloop

end Loop

end Etl
