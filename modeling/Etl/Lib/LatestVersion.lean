import Mathlib

/-!
# Tables that keep the latest version of a key

A reader takes for each key the change with the greatest version (`current`), whatever the order of
the changes and however often each was written. A table that holds exactly the changes of a recorded
history shows the state of that history (`Recorded.current_eq`).
-/

namespace LatestVersion

structure Change (κ ω ν : Type*) where
  key : κ
  version : ω
  value : Option ν

variable {κ ω ν : Type*}

section Reading

variable [DecidableEq κ] [LinearOrder ω]

def latest (table : List (Change κ ω ν)) (key : κ) : Option (Change κ ω ν) :=
  (table.filter (·.key = key)).argmax Change.version

def current (table : List (Change κ ω ν)) (key : κ) : Option ν :=
  (latest table key).bind Change.value

def visible (table : List (Change κ ω ν)) : List ν :=
  (table.map Change.key).dedup.filterMap (current table)

end Reading

structure IsLatest [LT ω] (table : List (Change κ ω ν)) (change : Change κ ω ν) : Prop where
  mem : change ∈ table
  lt : ∀ other ∈ table, other.key = change.key → other ≠ change → other.version < change.version

lemma IsLatest.congr [LT ω] {table table' : List (Change κ ω ν)} {change : Change κ ω ν}
    (h : IsLatest table change) (hmem : ∀ c, c ∈ table' ↔ c ∈ table) : IsLatest table' change :=
  ⟨(hmem _).2 h.mem, fun other hother => h.lt other ((hmem _).1 hother)⟩

section Reading

variable [DecidableEq κ] [LinearOrder ω] {table : List (Change κ ω ν)} {change : Change κ ω ν}
  {key : κ} {value : ν}

lemma IsLatest.latest_eq (h : IsLatest table change) : latest table change.key = some change := by
  have hmem : change ∈ table.filter (·.key = change.key) :=
    List.mem_filter.2 ⟨h.mem, decide_eq_true rfl⟩
  cases hmax : (table.filter (·.key = change.key)).argmax Change.version with
  | none => simp [List.argmax_eq_none.1 hmax] at hmem
  | some best =>
    have hbest := List.mem_filter.1 (List.argmax_mem hmax)
    have hle : change.version ≤ best.version := List.le_of_mem_argmax hmem hmax
    by_contra hne
    have hother : best ≠ change := fun heq => hne (by rw [latest, hmax, heq])
    exact absurd (h.lt best hbest.1 (by simpa using hbest.2) hother) hle.not_gt

lemma IsLatest.current_eq (h : IsLatest table change) :
    current table change.key = change.value := by
  rw [current, h.latest_eq, Option.bind_some]

lemma current_eq_none (h : ∀ change ∈ table, change.key ≠ key) : current table key = none := by
  have hnil : table.filter (·.key = key) = [] := by simpa [List.filter_eq_nil_iff] using h
  simp [current, latest, hnil]

lemma key_mem_of_current (h : current table key = some value) :
    key ∈ table.map Change.key := by
  by_contra hnot
  have hnone : current table key = none :=
    current_eq_none fun change hchange hkey => hnot (hkey ▸ List.mem_map_of_mem hchange)
  simp [hnone] at h

lemma mem_visible_iff : value ∈ visible table ↔ ∃ key, current table key = some value := by
  simp only [visible, List.mem_filterMap, List.mem_dedup]
  exact ⟨fun ⟨key, _, h⟩ => ⟨key, h⟩, fun ⟨key, h⟩ => ⟨key, key_mem_of_current h, h⟩⟩

lemma nodup_visible (keyOf : ν → κ)
    (h : ∀ key value, current table key = some value → keyOf value = key) :
    (visible table).Nodup :=
  (List.nodup_dedup _).filterMap fun key key' value hkey hkey' =>
    (h key value hkey).symm.trans (h key' value hkey')

end Reading

section Recording

variable [DecidableEq κ]

def override (state : κ → Option ν) (changes : List (Change κ ω ν)) (key : κ) : Option ν :=
  match changes.find? (·.key = key) with
  | some change => change.value
  | none => state key

@[simp] lemma override_nil (state : κ → Option ν) :
    override state ([] : List (Change κ ω ν)) = state := rfl

lemma override_cons (state : κ → Option ν) (change : Change κ ω ν)
    (changes : List (Change κ ω ν)) :
    override state (change :: changes) =
      Function.update (override state changes) change.key change.value := by
  funext key
  by_cases hkey : change.key = key
  · subst hkey
    simp [override]
  · simp [override, hkey, Function.update_of_ne (Ne.symm hkey)]

/-- A group has one change for a key at most, with versions above all before it. -/
inductive Recorded [LT ω] : List (Change κ ω ν) → (κ → Option ν) → Prop
  | start : Recorded [] fun _ => none
  | group {log state changes} : Recorded log state → (changes.map Change.key).Nodup →
      (∀ old ∈ log, ∀ change ∈ changes, old.version < change.version) →
      Recorded (log ++ changes) (override state changes)

/-- A key without a value has no change, or its latest change removes it. -/
lemma Recorded.latest_or_absent [Preorder ω] {log : List (Change κ ω ν)} {state : κ → Option ν}
    (h : Recorded log state) (key : κ) :
    (∃ change, IsLatest log change ∧ change.key = key ∧ state key = change.value) ∨
      (∀ change ∈ log, change.key ≠ key) ∧ state key = none := by
  induction h with
  | start => exact .inr ⟨by simp, rfl⟩
  | @group log state changes _ hnodup habove ih =>
    cases hfind : changes.find? (·.key = key) with
    | some change =>
      -- the group has the latest change of the key, above everything recorded before
      have hchange : change ∈ changes := List.mem_of_find?_eq_some hfind
      have hkey : change.key = key := by simpa using List.find?_some hfind
      refine .inl ⟨change, ⟨List.mem_append_right _ hchange, ?_⟩, hkey, by simp [override, hfind]⟩
      intro other hother hsame hne
      rcases List.mem_append.1 hother with hold | hnew
      · exact habove other hold change hchange
      · exact absurd (List.inj_on_of_nodup_map hnodup hnew hchange hsame) hne
    | none =>
      -- the group leaves the key alone
      have hnone : ∀ change ∈ changes, change.key ≠ key := by simpa using hfind
      have hstate : override state changes key = state key := by simp [override, hfind]
      rcases ih with ⟨change, hlatest, hkey, hvalue⟩ | ⟨habsent, hvalue⟩
      · refine .inl ⟨change, ⟨List.mem_append_left _ hlatest.mem, ?_⟩, hkey, hstate.trans hvalue⟩
        intro other hother hsame hne
        rcases List.mem_append.1 hother with hold | hnew
        · exact hlatest.lt other hold hsame hne
        · exact absurd (hsame.trans hkey) (hnone other hnew)
      · refine .inr ⟨fun change hchange => ?_, hstate.trans hvalue⟩
        rcases List.mem_append.1 hchange with hold | hnew
        · exact habsent change hold
        · exact hnone change hnew

/-- In any order and any number of times, the changes of a recorded history show its state. -/
lemma Recorded.current_eq [LinearOrder ω] {log table : List (Change κ ω ν)}
    {state : κ → Option ν} (h : Recorded log state) (hmem : ∀ c, c ∈ table ↔ c ∈ log) :
    current table = state := by
  funext key
  rcases h.latest_or_absent key with ⟨change, hlatest, hkey, hvalue⟩ | ⟨habsent, hvalue⟩
  · rw [hvalue, ← hkey]
    exact (hlatest.congr hmem).current_eq
  · rw [hvalue]
    exact current_eq_none fun change hchange => habsent change ((hmem _).1 hchange)

end Recording

end LatestVersion
