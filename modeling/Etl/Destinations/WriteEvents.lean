import Etl.Destinations.SourceHistory
import Etl.Lib.LatestVersion
import Etl.Lib.OrderedMap

/-!
# Writing events to a table that keeps versions

`writeEvents` is the loop of the ClickHouse and the BigQuery destination, over the rows one event
becomes. `Delivered` says what a table may hold once the rows of the first events have arrived, with
events repeated but none left out. If its rows can be read as changes of the source (`Reads`), it
shows the rows of the source (`Delivered.showsRows`).
-/

namespace Etl

open LatestVersion

inductive WriteEffect (ρ : Type) where
  | insertRows (schema : ReplicatedTableSchema) (rows : List ρ)
  | relation (schema : ReplicatedTableSchema)
  | truncate (tables : List TableId)

abbrev PendingRows (ρ : Type) := OrderedMap TableId (ReplicatedTableSchema × List ρ)

def Event.relation? : Event → Option ReplicatedTableSchema
  | .relation event => some event.replicatedTableSchema
  | _ => none

def Event.truncated? : Event → Option (List ReplicatedTableSchema)
  | .truncate _ _ _ tables => some tables
  | _ => none

def Event.endsPass (event : Event) : Bool :=
  event.relation?.isSome || event.truncated?.isSome

section Loop

variable {ρ : Type}

namespace PendingRows

def push (pending : PendingRows ρ) (schema : ReplicatedTableSchema) (rows : List ρ) :
    PendingRows ρ :=
  let entry := (pending.get? schema.id).getD (schema, [])
  pending.insert schema.id (entry.1, entry.2 ++ rows)

def flush (pending : PendingRows ρ) : List (WriteEffect ρ) :=
  pending.entries.map fun p => .insertRows p.2.1 p.2.2

end PendingRows

variable (rowsOf : Event → Except EtlError (List ρ))

def accumulate (pending : PendingRows ρ) :
    List Event → Except EtlError (PendingRows ρ × List Event)
  | [] => .ok (pending, [])
  | event :: events =>
    if event.endsPass then .ok (pending, event :: events)
    else
      match event.schema? with
      -- BEGIN and COMMIT are skipped
      | none => accumulate pending events
      | some schema =>
        match rowsOf event with
        | .error error => .error error
        | .ok rows => accumulate (pending.push schema rows) events

/-- Tables truncated in a row are truncated once. -/
def betweenPasses (rest : List Event) : List (WriteEffect ρ) × List Event :=
  let relations := (rest.takeWhile (·.relation?.isSome)).filterMap (·.relation?)
  let rest := rest.dropWhile (·.relation?.isSome)
  let truncated := ((rest.takeWhile (·.truncated?.isSome)).filterMap (·.truncated?)).flatten
  let tables := (truncated.map (·.id)).dedup
  (relations.map .relation ++ (if tables = [] then [] else [.truncate tables]),
    rest.dropWhile (·.truncated?.isSome))

def writePasses : Nat → List Event → List (WriteEffect ρ) × Option EtlError
  | 0, _ => ([], none)
  | fuel + 1, events =>
    if events = [] then ([], none)
    else
      match accumulate rowsOf .empty events with
      | .error error => ([], some error)
      | .ok (pending, rest) =>
        let between := betweenPasses rest
        let later := writePasses fuel between.2
        (pending.flush ++ between.1 ++ later.1, later.2)

/-- A pass consumes an event, so there are no more passes than events. -/
def writeEvents (events : List Event) : List (WriteEffect ρ) × Option EtlError :=
  writePasses rowsOf events.length events

def insertedRows (tableId : TableId) (effects : List (WriteEffect ρ)) : List ρ :=
  effects.flatMap fun
    | .insertRows schema rows => if schema.id = tableId then rows else []
    | _ => []

def acceptedRows (event : Event) : List ρ :=
  match rowsOf event with
  | .ok rows => rows
  | .error _ => []

end Loop

/-! ## What reaches a table -/

section Loop

variable {ρ : Type} {rowsOf : Event → Except EtlError (List ρ)} {tableId : TableId}

@[simp] lemma insertedRows_append (effects later : List (WriteEffect ρ)) :
    insertedRows tableId (effects ++ later) =
      insertedRows tableId effects ++ insertedRows tableId later := by
  simp [insertedRows]

def PendingRows.Keyed (pending : PendingRows ρ) : Prop :=
  ∀ id entry, pending.get? id = some entry → entry.1.id = id

def PendingRows.rowsFor (pending : PendingRows ρ) (tableId : TableId) : List ρ :=
  ((pending.get? tableId).map Prod.snd).getD []

namespace PendingRows

variable {pending : PendingRows ρ} {schema : ReplicatedTableSchema} {rows : List ρ}

lemma Keyed.push (h : pending.Keyed) : (pending.push schema rows).Keyed := by
  intro id entry hentry
  rw [PendingRows.push, OrderedMap.get?_insert] at hentry
  split_ifs at hentry with hid
  · cases hentry
    cases hget : pending.get? schema.id with
    | none => simpa using hid.symm
    | some earlier => simpa [hid] using h _ _ hget
  · exact h id entry hentry

lemma rowsFor_push :
    (pending.push schema rows).rowsFor tableId =
      pending.rowsFor tableId ++ if schema.id = tableId then rows else [] := by
  by_cases hid : schema.id = tableId
  · subst hid
    cases hget : pending.get? schema.id <;> simp [push, rowsFor, hget]
  · simp [push, rowsFor, OrderedMap.get?_insert, hid, Ne.symm hid]

lemma insertedRows_flush (h : pending.Keyed) :
    insertedRows tableId pending.flush = pending.rowsFor tableId := by
  rw [rowsFor, ← OrderedMap.flatMap_entries_of_key, insertedRows, flush, List.flatMap_map]
  refine List.flatMap_congr fun p hp => ?_
  have hid : p.2.1.id = p.1 := h p.1 p.2 ((pending.mem_entries_iff p.1 p.2).1 hp)
  simp only [hid]
  congr

end PendingRows

variable {event : Event}

lemma acceptedRows_of_ok {rows : List ρ} (h : rowsOf event = .ok rows) :
    acceptedRows rowsOf event = rows := by
  rw [acceptedRows, h]

lemma Event.hasTableId_eq {schema : ReplicatedTableSchema}
    (hpass : event.endsPass = false) (h : event.schema? = some schema) :
    event.hasTableId tableId = decide (schema.id = tableId) := by
  cases event <;> simp_all [Event.schema?, Event.hasTableId, Event.endsPass, Event.relation?]

lemma Event.hasTableId_of_schema?_eq_none (hpass : event.endsPass = false)
    (h : event.schema? = none) : event.hasTableId tableId = false := by
  cases event <;>
    simp_all [Event.schema?, Event.hasTableId, Event.endsPass, Event.relation?, Event.truncated?]

variable {events : List Event}

lemma accumulate_spec (tableId : TableId) {pending pending' : PendingRows ρ} {rest : List Event}
    (hkeyed : pending.Keyed) (h : accumulate rowsOf pending events = .ok (pending', rest)) :
    ∃ taken, events = taken ++ rest ∧ (∀ event ∈ rest.head?, event.endsPass) ∧ pending'.Keyed ∧
      (∀ event ∈ taken.filter (·.hasTableId tableId), ∃ rows, rowsOf event = .ok rows) ∧
      pending'.rowsFor tableId = pending.rowsFor tableId ++
        (taken.filter (·.hasTableId tableId)).flatMap (acceptedRows rowsOf) := by
  induction events generalizing pending with
  | nil =>
    cases h
    exact ⟨[], by simp [hkeyed]⟩
  | cons event events ih =>
    rw [accumulate] at h
    split at h
    next hpass =>
      cases h
      exact ⟨[], by simp [hkeyed, hpass]⟩
    next hpass =>
      rw [Bool.not_eq_true] at hpass
      split at h
      next hnone =>
        obtain ⟨taken, rfl, hrest, hkeyed', hok, hrows⟩ := ih hkeyed h
        refine ⟨event :: taken, rfl, hrest, hkeyed', ?_⟩
        rw [List.filter_cons_of_neg (by simp [Event.hasTableId_of_schema?_eq_none hpass hnone])]
        exact ⟨hok, hrows⟩
      next schema hschema =>
        split at h
        next => cases h
        next rows hrowsOf =>
          obtain ⟨taken, rfl, hrest, hkeyed', hok, hrows⟩ := ih hkeyed.push h
          refine ⟨event :: taken, rfl, hrest, hkeyed', ?_⟩
          have htable : event.hasTableId tableId = decide (schema.id = tableId) :=
            Event.hasTableId_eq hpass hschema
          rw [PendingRows.rowsFor_push] at hrows
          by_cases hid : schema.id = tableId
          · rw [List.filter_cons_of_pos (by simp [htable, hid])]
            refine ⟨?_, ?_⟩
            · rintro e (_ | ⟨_, he⟩)
              · exact ⟨rows, hrowsOf⟩
              · exact hok e he
            · rw [hrows, if_pos hid, List.flatMap_cons, acceptedRows_of_ok hrowsOf,
                List.append_assoc]
          · rw [List.filter_cons_of_neg (by simp [htable, hid])]
            exact ⟨hok, by simpa [hid] using hrows⟩

lemma betweenPasses_spec (tableId : TableId) {rest : List Event} (hrest : ∀ event ∈ rest.head?, event.endsPass) :
    ∃ taken, rest = taken ++ (betweenPasses (ρ := ρ) rest).2 ∧ (∀ event ∈ taken, event.endsPass) ∧
      (rest ≠ [] → taken ≠ []) ∧ insertedRows tableId (betweenPasses (ρ := ρ) rest).1 = [] := by
  refine ⟨rest.takeWhile (·.relation?.isSome) ++
    (rest.dropWhile (·.relation?.isSome)).takeWhile (·.truncated?.isSome), ?_, ?_, ?_, ?_⟩
  · rw [betweenPasses, List.append_assoc, List.takeWhile_append_dropWhile,
      List.takeWhile_append_dropWhile]
  · intro event hevent
    rcases List.mem_append.1 hevent with h | h
    · simp [Event.endsPass, List.all_eq_true.1 List.all_takeWhile event h]
    · simp [Event.endsPass, List.all_eq_true.1 List.all_takeWhile event h]
  · -- the first event ends a pass, so it is a relation or a truncation
    intro hne
    obtain ⟨event, events, rfl⟩ := List.exists_cons_of_ne_nil hne
    have hends : event.endsPass = true := hrest event rfl
    cases hrelation : event.relation?.isSome <;>
      simp_all [Event.endsPass]
  · simp only [betweenPasses, insertedRows, List.flatMap_append, List.flatMap_map]
    split <;> simp

/-- A batch that is written inserts the rows of all its events into a table that it does not
truncate or change. -/
lemma writePasses_spec {fuel : Nat} (hfuel : events.length ≤ fuel)
    (htable : ∀ event ∈ events, event.hasTableId tableId → event.endsPass = false)
    (hok : (writePasses rowsOf fuel events).2 = none) :
    (∀ event ∈ events.filter (·.hasTableId tableId), ∃ rows, rowsOf event = .ok rows) ∧
      insertedRows tableId (writePasses rowsOf fuel events).1 =
        (events.filter (·.hasTableId tableId)).flatMap (acceptedRows rowsOf) := by
  induction fuel generalizing events with
  | zero =>
    obtain rfl := List.eq_nil_of_length_eq_zero (Nat.le_zero.1 hfuel)
    simp [writePasses, insertedRows]
  | succ fuel ih =>
    by_cases hnil : events = []
    · simp [writePasses, hnil, insertedRows]
    rw [writePasses, if_neg hnil] at hok ⊢
    cases haccumulate : accumulate rowsOf .empty events with
    | error error => simp [haccumulate] at hok
    | ok result =>
      obtain ⟨pending, rest⟩ := result
      simp only [haccumulate] at hok ⊢
      obtain ⟨taken, rfl, hrest, hkeyed, htaken, hrows⟩ :=
        accumulate_spec tableId (fun id entry h => by simp at h) haccumulate
      obtain ⟨between, hbetween, hends, hne, hnone⟩ := betweenPasses_spec (ρ := ρ) tableId hrest
      set later := (betweenPasses (ρ := ρ) rest).2
      have hskip : between.filter (·.hasTableId tableId) = [] := by
        refine List.filter_eq_nil_iff.2 fun event hevent hid => ?_
        have hnot := htable event (by simp [hbetween, hevent]) hid
        rw [hends event hevent] at hnot
        cases hnot
      have hlength : later.length ≤ fuel := by
        have htaken : taken.length + (between.length + later.length) ≤ fuel + 1 := by
          simpa [hbetween] using hfuel
        have hsome : 0 < taken.length + between.length := by
          by_cases hrestNil : rest = []
          · have : taken ≠ [] := by simpa [hrestNil] using hnil
            exact Nat.add_pos_left (List.length_pos_iff.2 this) _
          · exact Nat.add_pos_right _ (List.length_pos_iff.2 (hne hrestNil))
        omega
      obtain ⟨hlater, hinserted⟩ := ih hlength
        (fun event hevent => htable event (by simp [hbetween, hevent])) hok
      have hfilter : (taken ++ rest).filter (·.hasTableId tableId) =
          taken.filter (·.hasTableId tableId) ++ later.filter (·.hasTableId tableId) := by
        rw [hbetween, List.filter_append, List.filter_append, hskip, List.nil_append]
      rw [hfilter]
      refine ⟨fun event hevent => ?_, ?_⟩
      · exact (List.mem_append.1 hevent).elim (htaken event) (hlater event)
      · rw [insertedRows_append, insertedRows_append, PendingRows.insertedRows_flush hkeyed, hrows,
          hnone, hinserted, List.flatMap_append]
        simp [PendingRows.rowsFor]

lemma writeEvents_spec
    (htable : ∀ event ∈ events, event.hasTableId tableId → event.endsPass = false)
    (hok : (writeEvents rowsOf events).2 = none) :
    (∀ event ∈ events.filter (·.hasTableId tableId), ∃ rows, rowsOf event = .ok rows) ∧
      insertedRows tableId (writeEvents rowsOf events).1 =
        (events.filter (·.hasTableId tableId)).flatMap (acceptedRows rowsOf) :=
  writePasses_spec le_rfl htable hok

end Loop

/-! ## Deliveries of a history -/

section Delivery

variable {ρ : Type} (rowsOf : Event → Except EtlError (List ρ)) (copyRow : TableRow → ρ)
  (history : SourceHistory)

/-- The rows of the first `n` events have arrived. A call may repeat events, carries those of other
tables and inserts in any order; one that fails has written a shorter batch. -/
inductive Delivered : Nat → List ρ → Prop
  | copied {table : List ρ} : table.Perm (history.copied.map copyRow) → Delivered 0 table
  | call {n i j : Nat} {table rows : List ρ} {batch : List Event} :
      Delivered n table → i ≤ n → j ≤ history.events.length →
      batch.filter (·.hasTableId history.schema.id) = (history.events.take j).drop i →
      (writeEvents rowsOf batch).2 = none →
      rows.Perm (insertedRows history.schema.id (writeEvents rowsOf batch).1) →
      Delivered (max n j) (table ++ rows)

def tableAfter (batch : List Event) : List ρ :=
  history.copied.map copyRow ++ insertedRows history.schema.id (writeEvents rowsOf batch).1

def arrivedRows (n : Nat) : List ρ :=
  history.copied.map copyRow ++ (history.events.take n).flatMap (acceptedRows rowsOf)

variable {rowsOf copyRow history}

lemma delivered_tableAfter (htable : history.events.filter (·.hasTableId history.schema.id) =
      history.events) (hok : (writeEvents rowsOf history.events).2 = none) :
    Delivered rowsOf copyRow history history.events.length
      (tableAfter rowsOf copyRow history history.events) := by
  have hcopied : Delivered rowsOf copyRow history 0 (history.copied.map copyRow) :=
    .copied (.refl _)
  have hcall := hcopied.call (i := 0) (j := history.events.length) le_rfl le_rfl
    (by simpa using htable) hok (.refl _)
  simpa [tableAfter] using hcall

variable {n : Nat}

lemma mem_take_max_iff {α : Type*} {xs : List α} {x : α} {i j : Nat} (hi : i ≤ n) :
    x ∈ xs.take (max n j) ↔ x ∈ xs.take n ∨ x ∈ (xs.take j).drop i := by
  constructor
  · intro h
    rcases le_total j n with hle | hle
    · rw [max_eq_left hle] at h
      exact .inl h
    · rw [max_eq_right hle, ← List.take_append_drop n (xs.take j), List.mem_append,
        List.take_take, min_eq_left hle] at h
      exact h.imp_right fun hdrop => List.drop_subset_drop_left _ hi hdrop
  · rintro (h | h)
    · exact List.take_subset_take_left _ (le_max_left n j) h
    · exact List.take_subset_take_left _ (le_max_right n j) (List.mem_of_mem_drop h)

lemma Emits.endsPass_eq_false {schema : ReplicatedTableSchema} {change : RowChange}
    {event : Event} (h : Emits schema change event) : event.endsPass = false := by
  cases h <;> rfl

lemma SourceHistory.endsPass_eq_false {event : Event} (h : event ∈ history.events) :
    event.endsPass = false := by
  obtain ⟨p, hp, rfl⟩ := List.mem_map.1 h
  exact (history.emitted p hp).endsPass_eq_false

variable {table : List ρ}

lemma Delivered.mem_iff (h : Delivered rowsOf copyRow history n table) : n ≤ history.events.length ∧
      (∀ event ∈ history.events.take n, ∃ rows, rowsOf event = .ok rows) ∧
      ∀ row, row ∈ table ↔ row ∈ arrivedRows rowsOf copyRow history n := by
  induction h with
  | copied hperm => exact ⟨Nat.zero_le _, by simp, fun row => by simp [arrivedRows, hperm.mem_iff]⟩
  | @call n i j table rows batch _ hi hj hbatch hok hperm ih =>
    obtain ⟨hn, haccepted, hmem⟩ := ih
    have htable : ∀ event ∈ batch, event.hasTableId history.schema.id → event.endsPass = false := by
      intro event hevent hid
      have hsegment : event ∈ (history.events.take j).drop i :=
        hbatch ▸ List.mem_filter.2 ⟨hevent, hid⟩
      exact SourceHistory.endsPass_eq_false (List.mem_of_mem_take (List.mem_of_mem_drop hsegment))
    obtain ⟨hsegment, hinserted⟩ := writeEvents_spec htable hok
    rw [hbatch] at hsegment hinserted
    refine ⟨max_le hn hj, fun event hevent => ?_, fun row => ?_⟩
    · exact ((mem_take_max_iff hi).1 hevent).elim (haccepted event) (hsegment event)
    · rw [List.mem_append, hmem, hperm.mem_iff, hinserted]
      simp only [arrivedRows, List.mem_append, List.mem_flatMap, mem_take_max_iff hi]
      constructor
      · rintro ((h | ⟨e, he, hr⟩) | ⟨e, he, hr⟩)
        · exact .inl h
        · exact .inr ⟨e, .inl he, hr⟩
        · exact .inr ⟨e, .inr he, hr⟩
      · rintro (h | ⟨e, he | he, hr⟩)
        · exact .inl (.inl h)
        · exact .inl (.inr ⟨e, he, hr⟩)
        · exact .inr ⟨e, he, hr⟩

variable (rowsOf copyRow history) in
/-- The rows of an event say together what its change does, with versions that follow its sequence
key. A copied row counts as older than every event. -/
structure Reads {ω : Type} [LinearOrder ω]
    (changeOf : ρ → Change (List (Option String)) ω TableRow)
    (VersionOf : EventSequenceKey → ω → Prop) : Prop where
  copied : ∀ row ∈ history.copied, (changeOf (copyRow row)).key = history.schema.primaryKeyOf row ∧
    (changeOf (copyRow row)).value = some row ∧ VersionOf ⟨0, 0⟩ (changeOf (copyRow row)).version
  changed : ∀ {rows change event key out}, (change, event) ∈ history.changes →
    change.Allowed history.schema rows → event.eventSequenceKey? = some key →
    rowsOf event = .ok out →
    ((out.map changeOf).map Change.key).Nodup ∧
      override rows (out.map changeOf) = change.apply history.schema rows ∧
      ∀ r ∈ out, VersionOf key (changeOf r).version
  version_lt : ∀ {key key' v v'}, key.Before key' → key.txOrdinal < 2 ^ 64 →
    key'.txOrdinal < 2 ^ 64 → VersionOf key v → VersionOf key' v' → v < v'

namespace Reads

variable {ω : Type} [LinearOrder ω] {changeOf : ρ → Change (List (Option String)) ω TableRow}
  {VersionOf : EventSequenceKey → ω → Prop}

lemma recorded_copy (h : Reads rowsOf copyRow history changeOf VersionOf) :
    Recorded ((history.copied.map copyRow).map changeOf)
      (SourceRows.ofRows history.schema history.copied) := by
  have hread : (history.copied.map copyRow).map changeOf = history.copied.map fun row =>
      (⟨history.schema.primaryKeyOf row, (changeOf (copyRow row)).version, some row⟩ :
        Change (List (Option String)) ω TableRow) := by
    rw [List.map_map]
    refine List.map_congr_left fun row hrow => ?_
    obtain ⟨hkey, hvalue, -⟩ := h.copied row hrow
    rw [Function.comp_apply, ← hkey, ← hvalue]
  have hgroup : Recorded ((history.copied.map copyRow).map changeOf)
      (override (fun _ => none) ((history.copied.map copyRow).map changeOf)) :=
    Recorded.start.group (by simpa [hread, Function.comp_def] using history.copied_keys) (by simp)
  convert hgroup using 1
  funext key
  rw [override, hread, List.find?_map, SourceRows.ofRows]
  simp only [Function.comp_def]
  cases history.copied.find? fun row => decide (history.schema.primaryKeyOf row = key) <;> rfl

variable {n : Nat}

lemma arrivedRows_succ {change : RowChange} {event : Event} {out : List ρ}
    (hget : history.changes[n]? = some (change, event)) (hout : rowsOf event = .ok out) :
    arrivedRows rowsOf copyRow history (n + 1) = arrivedRows rowsOf copyRow history n ++ out := by
  have hevent : history.events[n]? = some event := by simp [SourceHistory.events, hget]
  rw [arrivedRows, List.take_add_one, hevent, arrivedRows, Option.toList_some, List.flatMap_append,
    List.append_assoc]
  simp [acceptedRows_of_ok hout]

lemma arrivedRows_lt (h : Reads rowsOf copyRow history changeOf VersionOf) {change : RowChange}
    {event : Event} {out : List ρ} (hget : history.changes[n]? = some (change, event))
    (hout : rowsOf event = .ok out) {r r' : ρ} (hr : r ∈ arrivedRows rowsOf copyRow history n)
    (hr' : r' ∈ out) : (changeOf r).version < (changeOf r').version := by
  have hmem := List.mem_of_getElem? hget
  obtain ⟨key, hkey⟩ := (SourceHistory.emits_getElem? hget).exists_eventSequenceKey?
  have hkeys := SourceHistory.mem_sequenceKeys hmem hkey
  have hnew := (h.changed hmem (SourceHistory.allowed_getElem? hget) hkey hout).2.2 r' hr'
  rcases List.mem_append.1 hr with hcopied | harrived
  · obtain ⟨row, hrow, rfl⟩ := List.mem_map.1 hcopied
    exact h.version_lt (history.positive key hkeys) (by norm_num) (history.bounded key hkeys)
      (h.copied row hrow).2.2 hnew
  · obtain ⟨event', hevent', hrow⟩ := List.mem_flatMap.1 harrived
    rw [SourceHistory.events, ← List.map_take] at hevent'
    obtain ⟨earlier, hearlier, rfl⟩ := List.mem_map.1 hevent'
    have hchange := List.mem_of_mem_take hearlier
    obtain ⟨key', hkey'⟩ := (history.emitted earlier hchange).exists_eventSequenceKey?
    have hbefore := SourceHistory.before_of_mem_take hget hearlier hkey' hkey
    obtain ⟨rows, hallowed⟩ := SourceHistory.exists_allowed hchange
    cases hout' : rowsOf earlier.2 with
    | error error => simp [acceptedRows, hout'] at hrow
    | ok out' =>
      rw [acceptedRows_of_ok hout'] at hrow
      exact h.version_lt hbefore
        (history.bounded key' (SourceHistory.mem_sequenceKeys hchange hkey'))
        (history.bounded key hkeys) ((h.changed hchange hallowed hkey' hout').2.2 r hrow) hnew

lemma recorded (h : Reads rowsOf copyRow history changeOf VersionOf)
    (hn : n ≤ history.events.length)
    (haccepted : ∀ event ∈ history.events.take n, ∃ rows, rowsOf event = .ok rows) :
    Recorded ((arrivedRows rowsOf copyRow history n).map changeOf) (history.rowsAfter n) := by
  induction n with
  | zero => simpa [arrivedRows, SourceHistory.rowsAfter_zero] using h.recorded_copy
  | succ n ih =>
    have hlt : n < history.changes.length := by simpa [SourceHistory.events] using hn
    obtain ⟨change, event, hget⟩ : ∃ change event, history.changes[n]? = some (change, event) :=
      ⟨_, _, List.getElem?_eq_getElem hlt⟩
    have hevent : event ∈ history.events.take (n + 1) := by
      rw [List.take_add_one]
      simp [SourceHistory.events, hget]
    obtain ⟨out, hout⟩ := haccepted event hevent
    have hbefore := ih (Nat.le_of_succ_le hn) fun event hevent =>
      haccepted event (List.take_subset_take_left _ n.le_succ hevent)
    obtain ⟨key, hkey⟩ := (SourceHistory.emits_getElem? hget).exists_eventSequenceKey?
    obtain ⟨hnodup, happly, -⟩ := h.changed (List.mem_of_getElem? hget)
      (SourceHistory.allowed_getElem? hget) hkey hout
    rw [arrivedRows_succ hget hout, List.map_append, SourceHistory.rowsAfter_succ hget, ← happly]
    refine hbefore.group hnodup fun old hold new hnew => ?_
    obtain ⟨r, hr, rfl⟩ := List.mem_map.1 hold
    obtain ⟨r', hr', rfl⟩ := List.mem_map.1 hnew
    exact h.arrivedRows_lt hget hout hr hr'

end Reads

lemma Delivered.current_eq {ω : Type} [LinearOrder ω]
    {changeOf : ρ → Change (List (Option String)) ω TableRow}
    {VersionOf : EventSequenceKey → ω → Prop}
    (hreads : Reads rowsOf copyRow history changeOf VersionOf)
    (h : Delivered rowsOf copyRow history n table) :
    current (table.map changeOf) = history.rowsAfter n := by
  obtain ⟨hn, haccepted, hmem⟩ := h.mem_iff
  refine (hreads.recorded hn haccepted).current_eq fun change => ?_
  simp only [List.mem_map, hmem]

def ShowsRows (schema : ReplicatedTableSchema) (shown : List TableRow) (rows : SourceRows) : Prop :=
  shown.Nodup ∧ ∀ row, row ∈ shown ↔ rows (schema.primaryKeyOf row) = some row

lemma Delivered.showsRows {ω : Type} [LinearOrder ω]
    {changeOf : ρ → Change (List (Option String)) ω TableRow}
    {VersionOf : EventSequenceKey → ω → Prop}
    (hreads : Reads rowsOf copyRow history changeOf VersionOf)
    (h : Delivered rowsOf copyRow history n table) :
    ShowsRows history.schema (visible (table.map changeOf)) (history.rowsAfter n) := by
  have hcurrent := h.current_eq hreads
  refine ⟨nodup_visible history.schema.primaryKeyOf fun key row hrow => ?_, fun row => ?_⟩
  · rw [hcurrent] at hrow
    exact SourceHistory.primaryKeyOf_of_rowsAfter hrow
  · rw [mem_visible_iff, hcurrent]
    refine ⟨fun ⟨key, hrow⟩ => ?_, fun hrow => ⟨_, hrow⟩⟩
    rw [SourceHistory.primaryKeyOf_of_rowsAfter hrow]
    exact hrow

end Delivery

end Etl
