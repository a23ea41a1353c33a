import Mathlib

/-!
# Ordered maps

A finite map as a list of entries in increasing key order, with the two queries of a versioned
store: the newest entry at or below a key, and dropping the oldest entries.
-/

universe u v

structure OrderedMap (κ : Type u) (ν : Type v) [LinearOrder κ] where
  entries : List (κ × ν)
  sorted : entries.Pairwise (fun a b => a.1 < b.1)

namespace OrderedMap

variable {κ : Type u} {ν : Type v} [LinearOrder κ]

instance [DecidableEq ν] : DecidableEq (OrderedMap κ ν) := fun m m' =>
  decidable_of_iff (m.entries = m'.entries) (by cases m; cases m'; simp)

def empty : OrderedMap κ ν := ⟨[], .nil⟩

instance : Inhabited (OrderedMap κ ν) := ⟨empty⟩

def get? (m : OrderedMap κ ν) (k : κ) : Option ν :=
  (m.entries.find? (fun e => e.1 = k)).map Prod.snd

def keys (m : OrderedMap κ ν) : List κ := m.entries.map Prod.fst

def size (m : OrderedMap κ ν) : Nat := m.entries.length

def retain (m : OrderedMap κ ν) (p : κ → ν → Bool) : OrderedMap κ ν :=
  ⟨m.entries.filter (fun e => p e.1 e.2), m.sorted.filter _⟩

def erase (m : OrderedMap κ ν) (k : κ) : OrderedMap κ ν :=
  m.retain (fun k' _ => k' ≠ k)

def insertEntry (k : κ) (v : ν) : List (κ × ν) → List (κ × ν)
  | [] => [(k, v)]
  | e :: es =>
    if k < e.1 then (k, v) :: e :: es
    else if k = e.1 then (k, v) :: es
    else e :: insertEntry k v es

variable {k : κ} {v : ν} {es : List (κ × ν)}

lemma mem_insertEntry {a : κ × ν} (h : a ∈ insertEntry k v es) : a = (k, v) ∨ a ∈ es := by
  induction es with
  | nil => simpa [insertEntry] using h
  | cons e es ih =>
    rw [insertEntry] at h
    split_ifs at h <;> grind

lemma sorted_insertEntry (k : κ) (v : ν) (h : es.Pairwise (fun a b => a.1 < b.1)) :
    (insertEntry k v es).Pairwise (fun a b => a.1 < b.1) := by
  induction es with
  | nil => simp [insertEntry]
  | cons e es ih =>
    obtain ⟨he, hes⟩ := List.pairwise_cons.mp h
    rw [insertEntry]
    split_ifs with h₁ h₂
    · refine List.pairwise_cons.mpr ⟨?_, h⟩
      rintro a (_ | ⟨_, ha⟩)
      · exact h₁
      · exact h₁.trans (he a ha)
    · exact List.pairwise_cons.mpr ⟨fun a ha => h₂ ▸ he a ha, hes⟩
    · refine List.pairwise_cons.mpr ⟨fun a ha => ?_, ih hes⟩
      rcases mem_insertEntry ha with rfl | ha
      · exact lt_of_le_of_ne (not_lt.mp h₁) (Ne.symm h₂)
      · exact he a ha

def insert (m : OrderedMap κ ν) (k : κ) (v : ν) : OrderedMap κ ν :=
  ⟨insertEntry k v m.entries, sorted_insertEntry k v m.sorted⟩

def mapValues {ν' : Type*} (m : OrderedMap κ ν) (f : κ → ν → ν') : OrderedMap κ ν' :=
  ⟨m.entries.map (fun e => (e.1, f e.1 e.2)), m.sorted.map _ (fun _ _ h => h)⟩

def dropOldest (m : OrderedMap κ ν) : OrderedMap κ ν :=
  ⟨m.entries.tail, m.sorted.sublist m.entries.tail_sublist⟩

def atOrBefore? (m : OrderedMap κ ν) (k : κ) : Option (κ × ν) :=
  (m.entries.filter (fun e => e.1 ≤ k)).getLast?

/-- Keep the newest entry at or below `b`, and every newer one. -/
def retainFrom (m : OrderedMap κ ν) (b : κ) : OrderedMap κ ν :=
  match m.atOrBefore? b with
  | none => m
  | some (k, _) => m.retain (fun k' _ => k ≤ k')

/-! ## Point lookup -/

lemma mem_entries_iff (m : OrderedMap κ ν) (k : κ) (v : ν) :
    (k, v) ∈ m.entries ↔ m.get? k = some v := by
  obtain ⟨es, hs⟩ := m
  induction es with
  | nil => simp [get?]
  | cons e es ih =>
    obtain ⟨he, hes⟩ := List.pairwise_cons.mp hs
    by_cases hk : e.1 = k
    · -- a later entry of the same key would be strictly larger than itself
      have hno : (k, v) ∉ es := fun hmem => absurd (he _ hmem) (by simp [hk])
      simp only [List.mem_cons, get?, List.find?_cons, hk, decide_true, hno, or_false]
      constructor
      · rintro rfl; rfl
      · intro h; exact Prod.ext hk.symm (by simpa using h.symm)
    · have : (k, v) ≠ e := fun h => hk (by rw [← h])
      have hrest := ih hes
      simp only [get?] at hrest
      simp [get?, hk, this, hrest]

lemma nodup_entries (m : OrderedMap κ ν) : m.entries.Nodup :=
  m.sorted.imp fun hlt heq => absurd hlt (by simp [heq])

variable {m : OrderedMap κ ν}

lemma ext_get? {m' : OrderedMap κ ν} (h : ∀ k, m.get? k = m'.get? k) : m = m' := by
  have hmem : ∀ e, e ∈ m.entries ↔ e ∈ m'.entries := fun ⟨k, v⟩ => by
    rw [mem_entries_iff, mem_entries_iff, h]
  have hperm := (List.perm_ext_iff_of_nodup m.nodup_entries m'.nodup_entries).mpr hmem
  have heq : m.entries = m'.entries :=
    hperm.eq_of_pairwise (fun a b _ _ hab hba => absurd hab (not_lt.mpr hba.le)) m.sorted m'.sorted
  cases m; cases m'; simpa using heq

@[simp] lemma get?_empty (k : κ) : (empty : OrderedMap κ ν).get? k = none := rfl

lemma get?_insert (m : OrderedMap κ ν) (k k' : κ) (v : ν) :
    (m.insert k v).get? k' = if k' = k then some v else m.get? k' := by
  obtain ⟨es, hs⟩ := m
  simp only [insert, get?]
  clear hs
  induction es with
  | nil => simp only [insertEntry, List.find?_cons, List.find?_nil]; grind
  | cons e es ih =>
    simp only [insertEntry]
    split_ifs with h₁ h₂ <;> simp only [List.find?_cons] <;> grind

@[simp] lemma get?_insert_self (m : OrderedMap κ ν) (k : κ) (v : ν) :
    (m.insert k v).get? k = some v := by simp [get?_insert]

lemma get?_retain (m : OrderedMap κ ν) (p : κ → ν → Bool) (k : κ) :
    (m.retain p).get? k = (m.get? k).filter (p k) := by
  apply Option.ext
  intro v
  rw [Option.filter_eq_some_iff, ← mem_entries_iff, ← mem_entries_iff]
  simp [retain]

lemma get?_erase (m : OrderedMap κ ν) (k k' : κ) :
    (m.erase k).get? k' = if k' = k then none else m.get? k' := by
  rw [erase, get?_retain]
  split_ifs with h <;> cases hm : m.get? k' <;> simp [h, Option.filter]

variable {ν' : Type*}

lemma get?_mapValues (m : OrderedMap κ ν) (f : κ → ν → ν') (k : κ) :
    (m.mapValues f).get? k = (m.get? k).map (f k) := by
  obtain ⟨es, hs⟩ := m
  simp only [mapValues, get?]
  clear hs
  induction es with
  | nil => rfl
  | cons e es ih => by_cases h : e.1 = k <;> simp_all

lemma mapValues_insert (m : OrderedMap κ ν) (f : κ → ν → ν') (k : κ) (v : ν) :
    (m.insert k v).mapValues f = (m.mapValues f).insert k (f k v) := by
  refine ext_get? fun k' => ?_
  rw [get?_mapValues, get?_insert, get?_insert, get?_mapValues]
  split_ifs with h
  · rw [h]
    rfl
  · rfl

lemma mapValues_erase (m : OrderedMap κ ν) (f : κ → ν → ν') (k : κ) :
    (m.erase k).mapValues f = (m.mapValues f).erase k := by
  refine ext_get? fun k' => ?_
  rw [get?_mapValues, get?_erase, get?_erase, get?_mapValues]
  split_ifs <;> rfl

@[simp] lemma keys_mapValues (m : OrderedMap κ ν) (f : κ → ν → ν') :
    (m.mapValues f).keys = m.keys := by
  simp [keys, mapValues]

lemma get?_dropOldest_eq_some_iff (m : OrderedMap κ ν) (k : κ) (v : ν) :
    m.dropOldest.get? k = some v ↔ m.get? k = some v ∧ ∃ k' < k, (m.get? k').isSome := by
  simp only [Option.isSome_iff_exists, ← mem_entries_iff]
  obtain ⟨es, hs⟩ := m
  cases es with
  | nil => simp [dropOldest]
  | cons e es =>
    obtain ⟨he, -⟩ := List.pairwise_cons.mp hs
    simp only [dropOldest, List.tail_cons, List.mem_cons]
    constructor
    · intro h
      exact ⟨.inr h, e.1, he _ h, e.2, .inl rfl⟩
    · rintro ⟨rfl | h, k', hlt, v', hk'⟩
      · rcases hk' with heq | hmem
        · cases heq; exact absurd hlt (lt_irrefl _)
        · exact absurd (he _ hmem) (not_lt.mpr hlt.le)
      · exact h

lemma mem_keys_iff (m : OrderedMap κ ν) (k : κ) : k ∈ m.keys ↔ (m.get? k).isSome := by
  simp only [keys, List.mem_map, Option.isSome_iff_exists, ← mem_entries_iff]
  constructor
  · rintro ⟨e, he, rfl⟩; exact ⟨e.2, he⟩
  · rintro ⟨v, hv⟩; exact ⟨_, hv, rfl⟩

lemma nodup_keys (m : OrderedMap κ ν) : m.keys.Nodup :=
  List.pairwise_map.2 (m.sorted.imp fun hlt => hlt.ne)

lemma flatMap_entries_of_key {α : Type*} (m : OrderedMap κ ν) (k : κ) (f : ν → List α) :
    (m.entries.flatMap fun e => if e.1 = k then f e.2 else []) = ((m.get? k).map f).getD [] := by
  have hnone : ∀ es : List (κ × ν), (∀ e ∈ es, e.1 ≠ k) →
      (es.flatMap fun e => if e.1 = k then f e.2 else []) = [] := by
    intro es hes
    exact List.flatMap_eq_nil_iff.2 fun e he => if_neg (hes e he)
  cases hget : m.get? k with
  | none =>
    refine hnone _ fun e he hkey => ?_
    rw [(m.mem_entries_iff k e.2).1 (hkey ▸ he)] at hget
    cases hget
  | some v =>
    obtain ⟨before, after, hsplit⟩ := List.append_of_mem ((m.mem_entries_iff k v).2 hget)
    have hnodup : (before.map Prod.fst ++ k :: after.map Prod.fst).Nodup := by
      simpa [keys, hsplit] using m.nodup_keys
    obtain ⟨hk, -⟩ := List.nodup_cons.1 (List.nodup_middle.1 hnodup)
    simp only [List.mem_append, List.mem_map, not_or, not_exists, not_and] at hk
    rw [hsplit, List.flatMap_append, List.flatMap_cons, hnone before hk.1, hnone after hk.2]
    simp
lemma card_keys (m : OrderedMap κ ν) : m.keys.toFinset.card = m.size := by
  rw [List.toFinset_card_of_nodup m.nodup_keys, keys, size, List.length_map]

lemma size_insert_of_isSome (h : (m.get? k).isSome) (v : ν) : (m.insert k v).size = m.size := by
  rw [← card_keys, ← card_keys]
  congr 1
  ext k'
  simp only [List.mem_toFinset, mem_keys_iff, get?_insert]
  split_ifs with hk
  · simp [hk, h]
  · rfl

lemma size_erase_of_isSome (h : (m.get? k).isSome) : (m.erase k).size + 1 = m.size := by
  have hkeys : (m.erase k).keys.toFinset = m.keys.toFinset.erase k := by
    ext k'
    simp only [List.mem_toFinset, Finset.mem_erase, mem_keys_iff, get?_erase]
    split_ifs with hk <;> simp [hk]
  rw [← card_keys, ← card_keys, hkeys]
  exact Finset.card_erase_add_one (List.mem_toFinset.2 ((mem_keys_iff m k).2 h))

lemma size_le_of_isSome {m' : OrderedMap κ ν'}
    (h : ∀ k, (m.get? k).isSome → (m'.get? k).isSome) : m.size ≤ m'.size := by
  rw [← card_keys, ← card_keys]
  refine Finset.card_le_card fun k hk => ?_
  rw [List.mem_toFinset, mem_keys_iff] at hk ⊢
  exact h k hk

/-! ## A map from a list -/

lemma insert_insert_self (m : OrderedMap κ ν) (k : κ) (v v' : ν) :
    (m.insert k v).insert k v' = m.insert k v' := by
  refine ext_get? fun k' => ?_
  simp only [get?_insert]
  split_ifs <;> rfl

lemma insert_of_get? (h : m.get? k = some v) : m.insert k v = m := by
  refine ext_get? fun k' => ?_
  rw [get?_insert]
  split_ifs with hk
  · rw [hk, h]
  · rfl

section FoldInsert

variable {α : Type*} (key : α → κ) (val : α → ν)

lemma get?_foldl_insert_eq_some_iff (xs : List α) (m : OrderedMap κ ν)
    (hnodup : (xs.map key).Nodup) {k : κ} {v : ν} :
    (xs.foldl (fun m x => m.insert (key x) (val x)) m).get? k = some v ↔
      (∃ x ∈ xs, key x = k ∧ val x = v) ∨ m.get? k = some v ∧ k ∉ xs.map key := by
  induction xs generalizing m with
  | nil => simp
  | cons x xs ih =>
    obtain ⟨hx, hxs⟩ := List.nodup_cons.1 hnodup
    rw [List.foldl_cons, ih _ hxs, get?_insert]
    by_cases hk : k = key x
    · subst hk
      have hno : ∀ y ∈ xs, key y ≠ key x := fun y hy heq => hx (heq ▸ List.mem_map_of_mem hy)
      simp only [List.mem_cons, exists_eq_or_imp, List.map_cons, true_and, not_true,
        and_false, or_false, if_true, Option.some.injEq, hx, not_false_iff, and_true]
      constructor
      · rintro (⟨y, hy, hkey, -⟩ | hv)
        · exact absurd hkey (hno y hy)
        · exact .inl hv
      · rintro (hv | ⟨y, hy, hkey, -⟩)
        · exact .inr hv
        · exact absurd hkey (hno y hy)
    · simp [hk, Ne.symm hk]

lemma get?_foldl_insert_empty {xs : List α} (hnodup : (xs.map key).Nodup) {k : κ} {v : ν} :
    (xs.foldl (fun m x => m.insert (key x) (val x)) empty).get? k = some v ↔
      ∃ x ∈ xs, key x = k ∧ val x = v := by
  rw [get?_foldl_insert_eq_some_iff key val xs empty hnodup]
  simp

lemma size_foldl_insert_empty {xs : List α} (hnodup : (xs.map key).Nodup) :
    (xs.foldl (fun m x => m.insert (key x) (val x)) empty).size = xs.length := by
  set m := xs.foldl (fun m x => m.insert (key x) (val x)) empty with hm
  have hkeys : m.keys.toFinset = (xs.map key).toFinset := by
    ext k
    rw [List.mem_toFinset, List.mem_toFinset, mem_keys_iff, Option.isSome_iff_exists]
    simp only [hm, get?_foldl_insert_empty key val hnodup, List.mem_map]
    constructor
    · rintro ⟨-, x, hx, hkey, -⟩
      exact ⟨x, hx, hkey⟩
    · rintro ⟨x, hx, hkey⟩
      exact ⟨_, x, hx, hkey, rfl⟩
  rw [← card_keys, hkeys, List.toFinset_card_of_nodup hnodup, List.length_map]

end FoldInsert

/-! ## The newest entry at or below a key -/

lemma getLast?_eq_some_iff_of_sorted (hs : es.Pairwise (fun a b => a.1 < b.1)) (a : κ × ν) :
    es.getLast? = some a ↔ a ∈ es ∧ ∀ b ∈ es, b.1 ≤ a.1 := by
  constructor
  · intro h
    obtain ⟨init, rfl⟩ := List.getLast?_eq_some_iff.mp h
    have hcross := (List.pairwise_append.mp hs).2.2
    refine ⟨by simp, fun b hb => ?_⟩
    rcases List.mem_append.mp hb with hb | hb
    · exact (hcross b hb a (by simp)).le
    · exact (List.mem_singleton.mp hb) ▸ le_rfl
  · rintro ⟨ha, hmax⟩
    obtain ⟨b, hb⟩ := List.getLast?_isSome.mpr (List.ne_nil_of_mem ha) |> Option.isSome_iff_exists.mp
    obtain ⟨init, rfl⟩ := List.getLast?_eq_some_iff.mp hb
    have hcross := (List.pairwise_append.mp hs).2.2
    rcases List.mem_append.mp ha with ha | ha
    · exact absurd (hcross a ha b (by simp)) (not_lt.mpr (hmax b (by simp)))
    · rw [hb, List.mem_singleton.mp ha]

lemma atOrBefore?_eq_some_iff (m : OrderedMap κ ν) (s k : κ) (v : ν) :
    m.atOrBefore? s = some (k, v) ↔
      m.get? k = some v ∧ k ≤ s ∧ ∀ k' v', m.get? k' = some v' → k' ≤ s → k' ≤ k := by
  rw [atOrBefore?, getLast?_eq_some_iff_of_sorted (m.sorted.filter _)]
  simp only [List.mem_filter, decide_eq_true_eq, Prod.forall, mem_entries_iff]
  constructor
  · rintro ⟨⟨hk, hle⟩, hmax⟩; exact ⟨hk, hle, fun k' v' hk' hle' => hmax k' v' ⟨hk', hle'⟩⟩
  · rintro ⟨hk, hle, hmax⟩; exact ⟨⟨hk, hle⟩, fun k' v' h => hmax k' v' h.1 h.2⟩

lemma atOrBefore?_eq_none_iff (m : OrderedMap κ ν) (s : κ) :
    m.atOrBefore? s = none ↔ ∀ k, k ≤ s → m.get? k = none := by
  simp only [atOrBefore?, List.getLast?_eq_none_iff, List.filter_eq_nil_iff, Prod.forall,
    decide_eq_true_eq, mem_entries_iff]
  constructor
  · intro h k hk
    cases hv : m.get? k with
    | none => rfl
    | some v => exact absurd hk (h k v hv)
  · intro h k v hv hk
    simp [h k hk] at hv

lemma atOrBefore?_isSome_of_get? {s : κ}
    (hk : m.get? k = some v) (hle : k ≤ s) : ∃ k' v', m.atOrBefore? s = some (k', v') := by
  cases h : m.atOrBefore? s with
  | none => simp [(atOrBefore?_eq_none_iff m s).mp h k hle] at hk
  | some e => exact ⟨e.1, e.2, rfl⟩

lemma get?_retainFrom_eq_some_iff (m : OrderedMap κ ν) (b k : κ) (v : ν) :
    (m.retainFrom b).get? k = some v ↔
      m.get? k = some v ∧ ∀ k' v', m.get? k' = some v' → k' ≤ b → k' ≤ k := by
  unfold retainFrom
  split
  · next h =>
    have hnone := (atOrBefore?_eq_none_iff m b).mp h
    refine ⟨fun hk => ⟨hk, fun k' v' hk' hle => ?_⟩, And.left⟩
    simp [hnone k' hle] at hk'
  · next k₀ v₀ h =>
    obtain ⟨hk₀, hle₀, hmax⟩ := (atOrBefore?_eq_some_iff m b k₀ v₀).mp h
    rw [get?_retain, Option.filter_eq_some_iff, decide_eq_true_eq]
    refine and_congr_right fun _ => ⟨fun hle k' v' hk' hle' => ?_, fun hall => hall k₀ v₀ hk₀ hle₀⟩
    exact (hmax k' v' hk' hle').trans hle

lemma atOrBefore?_retainFrom (m : OrderedMap κ ν) {b s : κ} (hbs : b ≤ s) :
    (m.retainFrom b).atOrBefore? s = m.atOrBefore? s := by
  apply Option.ext
  rintro ⟨k, v⟩
  simp only [atOrBefore?_eq_some_iff, get?_retainFrom_eq_some_iff]
  constructor
  · rintro ⟨⟨hk, hb⟩, hle, hmax⟩
    refine ⟨hk, hle, fun k' v' hk' hle' => ?_⟩
    -- the newest entry at or below `s` is itself retained, so `k` is not below it
    obtain ⟨k₁, v₁, h₁⟩ := atOrBefore?_isSome_of_get? hk' hle'
    obtain ⟨hk₁, hle₁, hmax₁⟩ := (atOrBefore?_eq_some_iff m s k₁ v₁).mp h₁
    have hkeep := hmax k₁ v₁ ⟨hk₁, fun k₂ v₂ hk₂ hle₂ => hmax₁ k₂ v₂ hk₂ (hle₂.trans hbs)⟩ hle₁
    exact (hmax₁ k' v' hk' hle').trans hkeep
  · rintro ⟨hk, hle, hmax⟩
    exact ⟨⟨hk, fun k' v' hk' hle' => hmax k' v' hk' (hle'.trans hbs)⟩, hle,
      fun k' v' hk' hle' => hmax k' v' hk'.1 hle'⟩

lemma retainFrom_retainFrom (m : OrderedMap κ ν) (a b : κ) :
    (m.retainFrom a).retainFrom b = m.retainFrom (max a b) := by
  refine ext_get? fun k => Option.ext fun v => ?_
  simp only [get?_retainFrom_eq_some_iff]
  constructor
  · rintro ⟨⟨hk, ha⟩, hb⟩
    refine ⟨hk, fun k' v' hk' hle => ?_⟩
    rcases le_or_gt k' a with hle' | hlt
    · exact ha k' v' hk' hle'
    · -- an entry above the first boundary is retained from it
      have hle' : k' ≤ b := (le_max_iff.1 hle).resolve_left (not_le.2 hlt)
      exact hb k' v' ⟨hk', fun k'' v'' _ hle'' => hle''.trans hlt.le⟩ hle'
  · rintro ⟨hk, hmax⟩
    exact ⟨⟨hk, fun k' v' hk' hle => hmax k' v' hk' (hle.trans (le_max_left a b))⟩,
      fun k' v' hk' hle => hmax k' v' hk'.1 (hle.trans (le_max_right a b))⟩

lemma foldl_retainFrom (m : OrderedMap κ ν) (bs : List κ) :
    bs.foldl retainFrom m =
      match bs.max? with
      | none => m
      | some b => m.retainFrom b := by
  cases bs with
  | nil => rfl
  | cons b bs =>
    rw [List.max?_cons', List.foldl_cons]
    induction bs generalizing b with
    | nil => rfl
    | cons b' bs ih =>
      rw [List.foldl_cons, retainFrom_retainFrom, ih, List.foldl_cons]

end OrderedMap
