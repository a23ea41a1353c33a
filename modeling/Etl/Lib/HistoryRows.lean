import Mathlib

/-!
# Histories kept as linked rows

A table that keeps, for every key, the values it has had. A row refers to the one it replaced; there
are a foreign key and a unique index on the current rows. Under `Represents` it is a stack of values
for every key, and the constraints never fail.
-/

universe u v

structure HistoryRow (κ : Type u) (ν : Type v) where
  id : Nat
  key : κ
  value : ν
  prev : Option Nat
  isCurrent : Bool

structure HistoryRows (κ : Type u) (ν : Type v) where
  rows : List (HistoryRow κ ν)
  nextId : Nat

inductive HistoryViolation where
  | unique
  | foreignKey
  | missingRow
deriving DecidableEq

namespace HistoryRows

variable {κ : Type u} {ν : Type v} [DecidableEq κ]

def empty : HistoryRows κ ν := ⟨[], 0⟩

def current? (t : HistoryRows κ ν) (k : κ) : Option (HistoryRow κ ν) :=
  t.rows.find? fun r => r.key = k && r.isCurrent

def markOld (k : κ) (r : HistoryRow κ ν) : HistoryRow κ ν :=
  if r.key = k ∧ r.isCurrent = true then { r with isCurrent := false } else r

def push (t : HistoryRows κ ν) (k : κ) (v : ν) : HistoryRows κ ν where
  rows := t.rows.map (markOld k) ++ [⟨t.nextId, k, v, (t.current? k).map (·.id), true⟩]
  nextId := t.nextId + 1

def isReferenced (rows : List (HistoryRow κ ν)) (id : Nat) : Bool :=
  rows.any fun r => r.prev = some id

def hasDuplicate (rows : List (HistoryRow κ ν)) : Bool :=
  rows.any fun r => rows.any fun r' =>
    r.key = r'.key && r.isCurrent && r'.isCurrent && decide (r.id ≠ r'.id)

def markCurrent (id : Nat) (r : HistoryRow κ ν) : HistoryRow κ ν :=
  if r.id = id then { r with isCurrent := true } else r

/-- Make the row before the current one; `none` if there is nothing to go back to. -/
def pop (t : HistoryRows κ ν) (k : κ) :
    Except HistoryViolation (Option (HistoryRow κ ν × HistoryRows κ ν)) :=
  match t.current? k with
  | none => .ok none
  | some current =>
    match current.prev with
    | none => .ok none
    | some prevId =>
      if isReferenced t.rows current.id then .error .foreignKey
      else
        let rows := (t.rows.filter fun r => r.id ≠ current.id).map (markCurrent prevId)
        if hasDuplicate rows then .error .unique
        else
          match rows.find? fun r => r.id = prevId with
          | none => .error .missingRow
          | some restored => .ok (some (restored, { t with rows := rows }))

def drop (t : HistoryRows κ ν) (k : κ) : Except HistoryViolation (HistoryRows κ ν) :=
  let rows := t.rows.filter fun r => r.key ≠ k
  if t.rows.any fun r => r.key = k && isReferenced rows r.id then .error .foreignKey
  else .ok { t with rows := rows }

/-! ## The values of a key -/

inductive ChainFrom (rows : List (HistoryRow κ ν)) (k : κ) : Option Nat → List ν → Prop
  | nil : ChainFrom rows k none []
  | cons {r : HistoryRow κ ν} {vs : List ν} (mem : r ∈ rows) (key : r.key = k)
      (rest : ChainFrom rows k r.prev vs) : ChainFrom rows k (some r.id) (r.value :: vs)

variable {k : κ}

omit [DecidableEq κ] in
/-- References go back to earlier rows, so only the rows before a bound matter. -/
lemma ChainFrom.transfer {rows rows' : List (HistoryRow κ ν)} {start : Option Nat}
    {vs : List ν} (h : ChainFrom rows k start vs) (b : Nat)
    (hback : ∀ r ∈ rows, ∀ p, r.prev = some p → p < r.id) (hstart : ∀ id, start = some id → id < b)
    (hkeep : ∀ r ∈ rows, r.key = k → r.id < b →
      ∃ r' ∈ rows', r'.id = r.id ∧ r'.key = k ∧ r'.value = r.value ∧ r'.prev = r.prev) :
    ChainFrom rows' k start vs := by
  induction h with
  | nil => exact .nil
  | cons mem key rest ih =>
    rename_i r vs
    obtain ⟨r', hmem, hid, hkey, hvalue, hprev⟩ := hkeep r mem key (hstart r.id rfl)
    have hrest := ih fun p hp => (hback r mem p hp).trans (hstart r.id rfl)
    rw [← hid, ← hvalue]
    exact .cons hmem hkey (hprev ▸ hrest)

def IsUnique (rows : List (HistoryRow κ ν)) : Prop :=
  ∀ r ∈ rows, ∀ r' ∈ rows, r.key = r'.key → r.isCurrent = true → r'.isCurrent = true → r = r'

variable {t : HistoryRows κ ν}

lemma current?_eq_some_iff (h : IsUnique t.rows) {r : HistoryRow κ ν} :
    t.current? k = some r ↔ r ∈ t.rows ∧ r.key = k ∧ r.isCurrent = true := by
  constructor
  · intro hr
    have hsat := List.find?_some hr
    exact ⟨List.mem_of_find?_eq_some hr, by simpa using hsat⟩
  · rintro ⟨hmem, rfl, hcurrent⟩
    have hsome : (t.current? r.key).isSome := by
      rw [current?, List.find?_isSome]
      exact ⟨r, hmem, by simp [hcurrent]⟩
    obtain ⟨r', hr'⟩ := Option.isSome_iff_exists.1 hsome
    have hsat := List.find?_some hr'
    simp only [Bool.and_eq_true, decide_eq_true_eq] at hsat
    rw [hr', h r' (List.mem_of_find?_eq_some hr') r hmem hsat.1 hsat.2 hcurrent]

lemma current?_eq_none_iff :
    t.current? k = none ↔ ∀ r ∈ t.rows, r.key = k → r.isCurrent = false := by
  simp [current?]

structure Represents (t : HistoryRows κ ν) (stack : κ → List ν) : Prop where
  fresh : ∀ r ∈ t.rows, r.id < t.nextId
  distinct : ∀ r ∈ t.rows, ∀ r' ∈ t.rows, r.id = r'.id → r = r'
  unique : IsUnique t.rows
  /-- A row refers to an earlier one of its key that is not current. -/
  linked : ∀ r ∈ t.rows, ∀ p, r.prev = some p →
    p < r.id ∧ ∃ r' ∈ t.rows, r'.id = p ∧ r'.key = r.key ∧ r'.isCurrent = false
  /-- Two rows do not refer to the same one. -/
  single : ∀ r ∈ t.rows, ∀ r' ∈ t.rows, ∀ p, r.prev = some p → r'.prev = some p → r = r'
  chain : ∀ k, ChainFrom t.rows k ((t.current? k).map (·.id)) (stack k)

lemma represents_empty : (empty : HistoryRows κ ν).Represents fun _ => [] :=
  ⟨nofun, nofun, nofun, nofun, nofun, fun _ => .nil⟩

section MarkOld

variable {k : κ} {r : HistoryRow κ ν}

@[simp] lemma id_markOld : (markOld k r).id = r.id := by
  unfold markOld; split <;> rfl

@[simp] lemma key_markOld : (markOld k r).key = r.key := by
  unfold markOld; split <;> rfl

@[simp] lemma value_markOld : (markOld k r).value = r.value := by
  unfold markOld; split <;> rfl

@[simp] lemma prev_markOld : (markOld k r).prev = r.prev := by
  unfold markOld; split <;> rfl

lemma isCurrent_markOld : (markOld k r).isCurrent = true ↔ r.isCurrent = true ∧ r.key ≠ k := by
  unfold markOld
  split <;> grind

end MarkOld

section MarkCurrent

variable {id : Nat} {r : HistoryRow κ ν}

omit [DecidableEq κ]

@[simp] lemma id_markCurrent : (markCurrent id r).id = r.id := by
  unfold markCurrent; split <;> rfl

@[simp] lemma key_markCurrent : (markCurrent id r).key = r.key := by
  unfold markCurrent; split <;> rfl

@[simp] lemma value_markCurrent : (markCurrent id r).value = r.value := by
  unfold markCurrent; split <;> rfl

@[simp] lemma prev_markCurrent : (markCurrent id r).prev = r.prev := by
  unfold markCurrent; split <;> rfl

lemma isCurrent_markCurrent :
    (markCurrent id r).isCurrent = true ↔ r.isCurrent = true ∨ r.id = id := by
  unfold markCurrent
  split <;> grind

end MarkCurrent

lemma ChainFrom.of_current? {t' : HistoryRows κ ν} {vs : List ν} (b : Nat)
    (h : ChainFrom t.rows k ((t.current? k).map (·.id)) vs) (hunique : IsUnique t.rows)
    (hunique' : IsUnique t'.rows) (hback : ∀ r ∈ t.rows, ∀ p, r.prev = some p → p < r.id)
    (hbound : ∀ r ∈ t.rows, r.id < b)
    (hkeep : ∀ r ∈ t.rows, r.key = k → ∃ r' ∈ t'.rows, r'.id = r.id ∧ r'.key = k ∧
      r'.value = r.value ∧ r'.prev = r.prev ∧ r'.isCurrent = r.isCurrent)
    (hold : ∀ r' ∈ t'.rows, r'.key = k → r'.isCurrent = true →
      ∃ r ∈ t.rows, r.key = k ∧ r.isCurrent = true) :
    ChainFrom t'.rows k ((t'.current? k).map (·.id)) vs := by
  have hstart : (t'.current? k).map (·.id) = (t.current? k).map (·.id) := by
    cases hr : t.current? k with
    | none =>
      rw [current?_eq_none_iff] at hr
      have hnone : t'.current? k = none := by
        rw [current?_eq_none_iff]
        intro r' hr' hkey
        refine Bool.eq_false_iff.2 fun hcurrent => ?_
        obtain ⟨r, hmem, hkey', hcurrent'⟩ := hold r' hr' hkey hcurrent
        exact nomatch (hr r hmem hkey').symm.trans hcurrent'
      rw [hnone]
    | some r =>
      obtain ⟨hmem, hkey, hcurrent⟩ := (current?_eq_some_iff hunique).1 hr
      obtain ⟨r', hr', hid, hkey', -, -, hcurrent'⟩ := hkeep r hmem hkey
      rw [(current?_eq_some_iff hunique').2 ⟨hr', hkey', hcurrent'.trans hcurrent⟩]
      simp [hid]
  rw [hstart]
  refine h.transfer b hback (fun id hid => ?_) fun r hr hkey _ => ?_
  · obtain ⟨r, hr, rfl⟩ := Option.map_eq_some_iff.1 hid
    exact hbound r ((current?_eq_some_iff hunique).1 hr).1
  · obtain ⟨r', hr', hid, hkey', hvalue, hprev, -⟩ := hkeep r hr hkey
    exact ⟨r', hr', hid, hkey', hvalue, hprev⟩

namespace Represents

variable {t : HistoryRows κ ν} {stack : κ → List ν} (h : t.Represents stack)

include h

lemma back : ∀ r ∈ t.rows, ∀ p, r.prev = some p → p < r.id :=
  fun r hr p hp => (h.linked r hr p hp).1

variable {k : κ} {r : HistoryRow κ ν}

lemma of_current? (hr : t.current? k = some r) :
    ∃ vs, stack k = r.value :: vs ∧ ChainFrom t.rows k r.prev vs := by
  have hchain := h.chain k
  rw [hr] at hchain
  generalize hstart : Option.map (fun r : HistoryRow κ ν => r.id) (some r) = start at hchain
  generalize stack k = vs at hchain
  cases hchain with
  | nil => simp at hstart
  | cons mem key rest =>
    rename_i r' vs
    have heq := h.distinct r' mem r ((current?_eq_some_iff h.unique).1 hr).1
      (by simpa using hstart.symm)
    subst heq
    exact ⟨vs, rfl, rest⟩

lemma not_isReferenced (hr : t.current? k = some r) : isReferenced t.rows r.id = false := by
  obtain ⟨hmem, -, hcurrent⟩ := (current?_eq_some_iff h.unique).1 hr
  rw [isReferenced, List.any_eq_false]
  intro r' hr' hprev
  obtain ⟨-, r'', hr'', hid, -, hold⟩ := h.linked r' hr' r.id (by simpa using hprev)
  rw [h.distinct r'' hr'' r hmem hid, hcurrent] at hold
  cases hold

/-! ### A new value -/

omit h in
lemma mem_push {v : ν} : r ∈ (t.push k v).rows ↔ (∃ r' ∈ t.rows, markOld k r' = r) ∨
      r = ⟨t.nextId, k, v, (t.current? k).map (·.id), true⟩ := by
  simp [HistoryRows.push]

lemma isUnique_push (k : κ) (v : ν) : IsUnique (t.push k v).rows := by
  intro r hr r' hr' hkey hc hc'
  rcases mem_push.1 hr with ⟨a, ha, rfl⟩ | rfl <;> rcases mem_push.1 hr' with ⟨b, hb, rfl⟩ | rfl
  · rw [isCurrent_markOld] at hc hc'
    rw [h.unique a ha b hb (by simpa using hkey) hc.1 hc'.1]
  · rw [isCurrent_markOld] at hc
    exact absurd (by simpa using hkey) hc.2
  · rw [isCurrent_markOld] at hc'
    exact absurd (by simpa using hkey.symm) hc'.2
  · rfl

lemma push (k : κ) (v : ν) :
    (t.push k v).Represents (Function.update stack k (v :: stack k)) := by
  have hnew : ∀ a ∈ t.rows, (markOld k a).id ≠ t.nextId := by
    intro a ha
    rw [id_markOld]
    exact (h.fresh a ha).ne
  have hprev : ∀ p, (t.current? k).map (·.id) = some p →
      ∃ r ∈ t.rows, r.id = p ∧ r.key = k ∧ t.current? k = some r := by
    intro p hp
    obtain ⟨r, hr, rfl⟩ := Option.map_eq_some_iff.1 hp
    obtain ⟨hmem, hkey, -⟩ := (current?_eq_some_iff h.unique).1 hr
    exact ⟨r, hmem, rfl, hkey, hr⟩
  refine ⟨fun r hr => ?_, fun r hr r' hr' hid => ?_, h.isUnique_push k v,
    fun r hr p hp => ?_, fun r hr r' hr' p hp hp' => ?_, fun k' => ?_⟩
  · rcases mem_push.1 hr with ⟨a, ha, rfl⟩ | rfl
    · rw [id_markOld]
      exact (h.fresh a ha).trans (Nat.lt_succ_self _)
    · exact Nat.lt_succ_self _
  · rcases mem_push.1 hr with ⟨a, ha, rfl⟩ | rfl <;> rcases mem_push.1 hr' with ⟨b, hb, rfl⟩ | rfl
    · rw [h.distinct a ha b hb (by simpa using hid)]
    · exact absurd hid (hnew a ha)
    · exact absurd hid.symm (hnew b hb)
    · rfl
  · rcases mem_push.1 hr with ⟨a, ha, rfl⟩ | rfl
    · obtain ⟨hlt, b, hb, hid, hkey, hold⟩ := h.linked a ha p (by simpa using hp)
      refine ⟨by simpa using hlt, markOld k b, mem_push.2 (.inl ⟨b, hb, rfl⟩), by simpa using hid,
        by simpa using hkey, ?_⟩
      rw [Bool.eq_false_iff, ne_eq, isCurrent_markOld, hold]
      simp
    · obtain ⟨b, hb, rfl, hkey, -⟩ := hprev p hp
      refine ⟨h.fresh b hb, markOld k b, mem_push.2 (.inl ⟨b, hb, rfl⟩), by simp, by simpa using hkey,
        ?_⟩
      rw [Bool.eq_false_iff, ne_eq, isCurrent_markOld]
      simp [hkey]
  · -- the row that becomes old was not referred to before
    have hcase : ∀ a ∈ t.rows, (markOld k a).prev = some p → (t.current? k).map (·.id) ≠ some p := by
      intro a ha hp hcurrent
      obtain ⟨b, hb, rfl, -, hcur⟩ := hprev p hcurrent
      have hnone := h.not_isReferenced hcur
      rw [isReferenced, List.any_eq_false] at hnone
      exact hnone a ha (by simpa using hp)
    rcases mem_push.1 hr with ⟨a, ha, rfl⟩ | rfl <;> rcases mem_push.1 hr' with ⟨b, hb, rfl⟩ | rfl
    · rw [h.single a ha b hb p (by simpa using hp) (by simpa using hp')]
    · exact absurd hp' (hcase a ha hp)
    · exact absurd hp (hcase b hb hp')
    · rfl
  · by_cases hk : k' = k
    · subst hk
      have hcurrent : (t.push k' v).current? k' =
          some ⟨t.nextId, k', v, (t.current? k').map (·.id), true⟩ :=
        (current?_eq_some_iff (h.isUnique_push k' v)).2 ⟨mem_push.2 (.inr rfl), rfl, rfl⟩
      rw [hcurrent, Function.update_self]
      refine .cons (r := ⟨t.nextId, k', v, (t.current? k').map (·.id), true⟩)
        (mem_push.2 (.inr rfl)) rfl ?_
      refine (h.chain k').transfer t.nextId h.back (fun id hid => ?_) fun a ha hkey _ => ?_
      · obtain ⟨b, hb, rfl, -⟩ := hprev id hid
        exact h.fresh b hb
      · exact ⟨markOld k' a, mem_push.2 (.inl ⟨a, ha, rfl⟩), by simp, by simpa using hkey, by simp,
          by simp⟩
    · rw [Function.update_of_ne hk]
      refine (h.chain k').of_current? t.nextId h.unique (h.isUnique_push k v) h.back h.fresh
        (fun a ha hkey => ?_) fun r' hr' hkey hcurrent => ?_
      · refine ⟨markOld k a, mem_push.2 (.inl ⟨a, ha, rfl⟩), by simp, by simpa using hkey, by simp,
          by simp, ?_⟩
        rw [Bool.eq_iff_iff, isCurrent_markOld]
        simp [hkey, hk]
      · rcases mem_push.1 hr' with ⟨a, ha, rfl⟩ | rfl
        · exact ⟨a, ha, by simpa using hkey, (isCurrent_markOld.1 hcurrent).1⟩
        · exact absurd hkey.symm hk

/-! ### Taking a value back -/

lemma pop_eq_none (hstack : (stack k).tail = []) : t.pop k = .ok none := by
  unfold HistoryRows.pop
  cases hr : t.current? k with
  | none => rfl
  | some r =>
    obtain ⟨vs, heq, hchain⟩ := h.of_current? hr
    rw [heq, List.tail_cons] at hstack
    subst hstack
    generalize hp : r.prev = p at hchain
    cases hchain
    simp [hp]

lemma restore {r' : HistoryRow κ ν} {vs : List ν} (hr : t.current? k = some r)
    (hr' : r' ∈ t.rows) (hp : r.prev = some r'.id) (hkey' : r'.key = k)
    (hrest : ChainFrom t.rows k r'.prev vs) :
    ({ t with rows := (t.rows.filter fun a => a.id ≠ r.id).map (markCurrent r'.id) } :
      HistoryRows κ ν).Represents (Function.update stack k (r'.value :: vs)) := by
  obtain ⟨hmem, hkey, hcurrent⟩ := (current?_eq_some_iff h.unique).1 hr
  have hmem_iff : ∀ a, a ∈ (t.rows.filter fun a => a.id ≠ r.id).map (markCurrent r'.id) ↔
      ∃ b ∈ t.rows, b.id ≠ r.id ∧ markCurrent r'.id b = a := by
    intro a
    simp [and_assoc]
  have hlt := h.back r hmem _ hp
  -- the only current row of the key was the one that is gone
  have honly : ∀ a ∈ t.rows, a.key = k → a.isCurrent = true → a.id = r.id := by
    intro a ha hk hc
    rw [h.unique a ha r hmem (hk.trans hkey.symm) hc hcurrent]
  have hunique : IsUnique ((t.rows.filter fun a => a.id ≠ r.id).map (markCurrent r'.id)) := by
    intro r₁ h₁ r₂ h₂ hk hca hcb
    obtain ⟨a, ha, hane, rfl⟩ := (hmem_iff r₁).1 h₁
    obtain ⟨b, hb, hbne, rfl⟩ := (hmem_iff r₂).1 h₂
    rw [isCurrent_markCurrent] at hca hcb
    simp only [key_markCurrent] at hk
    have hid : a.id = b.id := by
      rcases hca with hca | hca <;> rcases hcb with hcb | hcb
      · rw [h.unique a ha b hb hk hca hcb]
      · have := h.distinct b hb r' hr' hcb
        exact absurd (honly a ha (hk.trans (this ▸ hkey')) hca) hane
      · have := h.distinct a ha r' hr' hca
        exact absurd (honly b hb (hk.symm.trans (this ▸ hkey')) hcb) hbne
      · exact hca.trans hcb.symm
    rw [h.distinct a ha b hb hid]
  refine ⟨fun r₁ h₁ => ?_, fun r₁ h₁ r₂ h₂ hid => ?_, hunique, fun r₁ h₁ p hprev => ?_,
    fun r₁ h₁ r₂ h₂ p hpa hpb => ?_, fun k' => ?_⟩
  · obtain ⟨a, ha, -, rfl⟩ := (hmem_iff r₁).1 h₁
    simpa using h.fresh a ha
  · obtain ⟨a, ha, -, rfl⟩ := (hmem_iff r₁).1 h₁
    obtain ⟨b, hb, -, rfl⟩ := (hmem_iff r₂).1 h₂
    rw [h.distinct a ha b hb (by simpa using hid)]
  · obtain ⟨a, ha, hane, rfl⟩ := (hmem_iff r₁).1 h₁
    rw [prev_markCurrent] at hprev
    obtain ⟨hback, b, hb, hid, hkb, hold⟩ := h.linked a ha p hprev
    have hbr : b.id ≠ r.id := by
      intro heq
      rw [h.distinct b hb r hmem heq, hcurrent] at hold
      cases hold
    refine ⟨by simpa using hback, markCurrent r'.id b, (hmem_iff _).2 ⟨b, hb, hbr, rfl⟩,
      by simpa using hid, by simpa using hkb, ?_⟩
    rw [Bool.eq_false_iff, ne_eq, isCurrent_markCurrent, hold]
    rintro (hc | hbr')
    · cases hc
    · -- only the row that is gone referred to the one before it
      rw [h.single a ha r hmem p hprev (by rw [hp, ← hid, hbr'])] at hane
      exact hane rfl
  · obtain ⟨a, ha, -, rfl⟩ := (hmem_iff r₁).1 h₁
    obtain ⟨b, hb, -, rfl⟩ := (hmem_iff r₂).1 h₂
    rw [h.single a ha b hb p (by simpa using hpa) (by simpa using hpb)]
  · by_cases hk : k' = k
    · subst hk
      have hin : markCurrent r'.id r' ∈
          (t.rows.filter fun a => a.id ≠ r.id).map (markCurrent r'.id) :=
        (hmem_iff _).2 ⟨r', hr', hlt.ne, rfl⟩
      rw [(current?_eq_some_iff hunique).2
        ⟨hin, by simpa using hkey', isCurrent_markCurrent.2 (.inr rfl)⟩, Function.update_self]
      have hchain : ChainFrom ((t.rows.filter fun a => a.id ≠ r.id).map (markCurrent r'.id)) k'
          (markCurrent r'.id r').prev vs := by
        rw [prev_markCurrent]
        refine hrest.transfer r'.id h.back (fun id hid => h.back r' hr' id hid) fun a ha hka hlta => ?_
        exact ⟨markCurrent r'.id a, (hmem_iff _).2 ⟨a, ha, (hlta.trans hlt).ne, rfl⟩, by simp,
          by simpa using hka, by simp, by simp⟩
      simpa using ChainFrom.cons hin (by simpa using hkey') hchain
    · rw [Function.update_of_ne hk]
      have hne : ∀ a ∈ t.rows, a.key = k' → ∀ b ∈ t.rows, b.key = k → a.id ≠ b.id := by
        intro a ha hka b hb hkb hid
        rw [h.distinct a ha b hb hid] at hka
        exact hk (hka.symm.trans hkb)
      refine (h.chain k').of_current? t.nextId h.unique hunique h.back h.fresh
        (fun a ha hka => ?_) fun r₁ h₁ hka hc => ?_
      · refine ⟨markCurrent r'.id a, (hmem_iff _).2 ⟨a, ha, hne a ha hka r hmem hkey, rfl⟩, by simp,
          by simpa using hka, by simp, by simp, ?_⟩
        rw [Bool.eq_iff_iff, isCurrent_markCurrent]
        simp [hne a ha hka r' hr' hkey']
      · obtain ⟨a, ha, -, rfl⟩ := (hmem_iff r₁).1 h₁
        rw [key_markCurrent] at hka
        rcases isCurrent_markCurrent.1 hc with hc | hid
        · exact ⟨a, ha, hka, hc⟩
        · exact absurd hid (hne a ha hka r' hr' hkey')

lemma not_hasDuplicate : hasDuplicate t.rows = false := by
  rw [hasDuplicate, List.any_eq_false]
  intro a ha
  rw [Bool.not_eq_true, List.any_eq_false]
  intro b hb hdup
  simp only [Bool.and_eq_true, decide_eq_true_eq] at hdup
  obtain ⟨⟨⟨hkey, hca⟩, hcb⟩, hne⟩ := hdup
  exact hne (congrArg _ (h.unique a ha b hb hkey hca hcb))

lemma pop {v v' : ν} {vs : List ν} (hstack : stack k = v :: v' :: vs) :
    ∃ restored t', t.pop k = .ok (some (restored, t')) ∧ restored.value = v' ∧
      t'.Represents (Function.update stack k (v' :: vs)) := by
  obtain ⟨r, hr⟩ : ∃ r, t.current? k = some r := by
    cases hr : t.current? k with
    | some r => exact ⟨r, rfl⟩
    | none =>
      have hchain := h.chain k
      rw [hr, hstack] at hchain
      cases hchain
  obtain ⟨r', hr', hp, hkey', hvalue, hrest⟩ : ∃ r' ∈ t.rows, r.prev = some r'.id ∧
      r'.key = k ∧ r'.value = v' ∧ ChainFrom t.rows k r'.prev vs := by
    obtain ⟨vs', heq, hchain⟩ := h.of_current? hr
    obtain ⟨-, rfl⟩ := List.cons.inj (hstack.symm.trans heq)
    generalize hprev : r.prev = start at hchain
    cases hchain with
    | cons mem key rest => exact ⟨_, mem, rfl, key, rfl, rest⟩
  have hrestored := h.restore hr hr' hp hkey' hrest
  rw [hvalue] at hrestored
  have hmem : markCurrent r'.id r' ∈
      (t.rows.filter fun a => a.id ≠ r.id).map (markCurrent r'.id) := by
    have hne := (h.back r ((current?_eq_some_iff h.unique).1 hr).1 _ hp).ne
    exact List.mem_map_of_mem (List.mem_filter.2 ⟨hr', by simpa using hne⟩)
  have hfind : ((t.rows.filter fun a => a.id ≠ r.id).map (markCurrent r'.id)).find?
      (fun a => a.id = r'.id) = some (markCurrent r'.id r') := by
    have hsome : (((t.rows.filter fun a => a.id ≠ r.id).map (markCurrent r'.id)).find?
        (fun a => a.id = r'.id)).isSome := by
      rw [List.find?_isSome]
      exact ⟨_, hmem, by simp⟩
    obtain ⟨a, ha⟩ := Option.isSome_iff_exists.1 hsome
    have hid := List.find?_some ha
    rw [ha, hrestored.distinct a (List.mem_of_find?_eq_some ha) _ hmem (by simpa using hid)]
  refine ⟨markCurrent r'.id r', _, ?_, ?_, hrestored⟩
  · have hduplicate := hrestored.not_hasDuplicate
    simp only [HistoryRows.pop, hr, hp, h.not_isReferenced hr, hduplicate, hfind]
    rfl
  · simpa using hvalue

lemma drop (k : κ) :
    ∃ t', t.drop k = .ok t' ∧ t'.Represents (Function.update stack k []) := by
  have hmem_iff : ∀ a, a ∈ (t.rows.filter fun a => a.key ≠ k) ↔ a ∈ t.rows ∧ a.key ≠ k := by
    simp
  have hfree : (t.rows.any fun r => r.key = k &&
      isReferenced (t.rows.filter fun a => a.key ≠ k) r.id) = false := by
    rw [List.any_eq_false]
    intro r hr href
    simp only [Bool.and_eq_true, decide_eq_true_eq, isReferenced, List.any_eq_true] at href
    obtain ⟨hkey, a, ha, hprev⟩ := href
    obtain ⟨ha, hne⟩ := (hmem_iff a).1 ha
    obtain ⟨-, b, hb, hid, hkb, -⟩ := h.linked a ha r.id hprev
    rw [h.distinct b hb r hr hid] at hkb
    exact hne (hkb.symm.trans hkey)
  have hunique : IsUnique (t.rows.filter fun a => a.key ≠ k) := fun a ha b hb =>
    h.unique a ((hmem_iff a).1 ha).1 b ((hmem_iff b).1 hb).1
  refine ⟨{ t with rows := t.rows.filter fun a => a.key ≠ k }, ?_, ?_⟩
  · simp only [HistoryRows.drop, hfree]
    rfl
  refine ⟨fun a ha => h.fresh a ((hmem_iff a).1 ha).1,
    fun a ha b hb => h.distinct a ((hmem_iff a).1 ha).1 b ((hmem_iff b).1 hb).1, hunique,
    fun a ha p hp => ?_,
    fun a ha b hb => h.single a ((hmem_iff a).1 ha).1 b ((hmem_iff b).1 hb).1, fun k' => ?_⟩
  · obtain ⟨ha, hne⟩ := (hmem_iff a).1 ha
    obtain ⟨hlt, b, hb, hid, hkb, hold⟩ := h.linked a ha p hp
    exact ⟨hlt, b, (hmem_iff b).2 ⟨hb, hkb ▸ hne⟩, hid, hkb, hold⟩
  · by_cases hk : k' = k
    · subst hk
      have hnone : ({ t with rows := t.rows.filter fun a => a.key ≠ k' } :
          HistoryRows κ ν).current? k' = none := by
        rw [HistoryRows.current?_eq_none_iff]
        exact fun a ha hkey => absurd hkey ((hmem_iff a).1 ha).2
      rw [hnone, Function.update_self]
      exact .nil
    · rw [Function.update_of_ne hk]
      refine (h.chain k').of_current? t.nextId h.unique hunique h.back h.fresh
        (fun a ha hkey => ?_) fun a ha hkey hc => ⟨a, ((hmem_iff a).1 ha).1, hkey, hc⟩
      exact ⟨a, (hmem_iff a).2 ⟨ha, hkey ▸ hk⟩, rfl, hkey, rfl, rfl, rfl⟩

end Represents

end HistoryRows
