import Etl.Lib.OrderedMap
import Etl.Postgres.Schema

/-!
# In-memory index of table schema versions

The in-memory store is this index; the Postgres store keeps one as a cache. Each operation is
described by what it does to `version?`.
-/

namespace Etl

structure TableSchemaSnapshots where
  tableSchemas : OrderedMap TableId (OrderedMap SnapshotId TableSchema)
deriving DecidableEq

namespace TableSchemaSnapshots

def empty : TableSchemaSnapshots := ⟨.empty⟩

def versions (c : TableSchemaSnapshots) (tableId : TableId) : OrderedMap SnapshotId TableSchema :=
  (c.tableSchemas.get? tableId).getD .empty

def version? (c : TableSchemaSnapshots) (tableId : TableId) (snapshotId : SnapshotId) :
    Option TableSchema :=
  (c.versions tableId).get? snapshotId

def getAtOrBefore (c : TableSchemaSnapshots) (tableId : TableId) (snapshotId : SnapshotId) :
    Option TableSchema :=
  ((c.tableSchemas.get? tableId).bind (·.atOrBefore? snapshotId)).map Prod.snd

def insert (c : TableSchemaSnapshots) (tableSchema : TableSchema) : TableSchemaSnapshots :=
  ⟨c.tableSchemas.insert tableSchema.id
    ((c.versions tableSchema.id).insert tableSchema.snapshotId tableSchema)⟩

def evictOldest (maxSnapshots : Nat) (schemas : OrderedMap SnapshotId TableSchema) :
    OrderedMap SnapshotId TableSchema :=
  OrderedMap.dropOldest^[schemas.size - maxSnapshots] schemas

def insertWithEviction (c : TableSchemaSnapshots) (tableSchema : TableSchema)
    (maxSnapshots : Nat) : TableSchemaSnapshots :=
  let c := c.insert tableSchema
  if maxSnapshots = 0 then ⟨c.tableSchemas.erase tableSchema.id⟩
  else ⟨c.tableSchemas.insert tableSchema.id (evictOldest maxSnapshots (c.versions tableSchema.id))⟩

def replaceAll (tableSchemas : List TableSchema) : TableSchemaSnapshots :=
  tableSchemas.foldl insert empty

def removeTable (c : TableSchemaSnapshots) (tableId : TableId) : TableSchemaSnapshots :=
  ⟨c.tableSchemas.erase tableId⟩

def prune (c : TableSchemaSnapshots) (retentionSnapshotIds : OrderedMap TableId SnapshotId) :
    TableSchemaSnapshots :=
  ⟨c.tableSchemas.mapValues (fun tableId schemas =>
    match retentionSnapshotIds.get? tableId with
    | none => schemas
    | some r => schemas.retainFrom r)⟩

def prunedCount (c : TableSchemaSnapshots) (retentionSnapshotIds : OrderedMap TableId SnapshotId) :
    Nat :=
  (c.tableSchemas.entries.map (fun e => e.2.size)).sum -
    ((c.prune retentionSnapshotIds).tableSchemas.entries.map (fun e => e.2.size)).sum

/-! ## What the operations do to one version -/

@[simp] lemma version?_empty (t : TableId) (s : SnapshotId) : empty.version? t s = none := rfl

lemma versions_mk_insert (m : OrderedMap TableId (OrderedMap SnapshotId TableSchema))
    (t t' : TableId) (v : OrderedMap SnapshotId TableSchema) :
    versions ⟨m.insert t v⟩ t' = if t' = t then v else versions ⟨m⟩ t' := by
  by_cases h : t' = t <;> simp [versions, OrderedMap.get?_insert, h]

lemma versions_removeTable (c : TableSchemaSnapshots) (t t' : TableId) :
    (c.removeTable t).versions t' = if t' = t then .empty else c.versions t' := by
  by_cases h : t' = t <;> simp [versions, removeTable, OrderedMap.get?_erase, h]

lemma version?_removeTable (c : TableSchemaSnapshots) (t t' : TableId) (s : SnapshotId) :
    (c.removeTable t).version? t' s = if t' = t then none else c.version? t' s := by
  by_cases h : t' = t <;> simp [version?, versions_removeTable, h]

lemma version?_insert (c : TableSchemaSnapshots) (x : TableSchema) (t : TableId)
    (s : SnapshotId) :
    (c.insert x).version? t s =
      if t = x.id ∧ s = x.snapshotId then some x else c.version? t s := by
  by_cases h : t = x.id
  · subst h
    simp [version?, insert, versions_mk_insert, OrderedMap.get?_insert]
  · simp [version?, insert, versions_mk_insert, h]

lemma versions_prune (c : TableSchemaSnapshots) (r : OrderedMap TableId SnapshotId)
    (t : TableId) :
    (c.prune r).versions t =
      match r.get? t with
      | none => c.versions t
      | some b => (c.versions t).retainFrom b := by
  simp only [versions, prune, OrderedMap.get?_mapValues]
  cases c.tableSchemas.get? t with
  | some m => cases r.get? t <;> rfl
  | none =>
    cases r.get? t with
    | none => rfl
    | some b => rfl

lemma getAtOrBefore_eq (c : TableSchemaSnapshots) (t : TableId) (s : SnapshotId) :
    c.getAtOrBefore t s = ((c.versions t).atOrBefore? s).map Prod.snd := by
  cases h : c.tableSchemas.get? t <;> simp [getAtOrBefore, versions, h]; rfl

lemma getAtOrBefore_eq_some_iff (c : TableSchemaSnapshots) (t : TableId) (s : SnapshotId)
    (x : TableSchema) :
    c.getAtOrBefore t s = some x ↔
      ∃ k, c.version? t k = some x ∧ k ≤ s ∧
        ∀ k', (c.version? t k').isSome → k' ≤ s → k' ≤ k := by
  rw [getAtOrBefore_eq, Option.map_eq_some_iff]
  constructor
  · rintro ⟨⟨k, v⟩, h, rfl⟩
    obtain ⟨hk, hle, hmax⟩ := (OrderedMap.atOrBefore?_eq_some_iff _ _ _ _).mp h
    refine ⟨k, hk, hle, fun k' hk' hle' => ?_⟩
    obtain ⟨v', hv'⟩ := Option.isSome_iff_exists.mp hk'
    exact hmax k' v' hv' hle'
  · rintro ⟨k, hk, hle, hmax⟩
    refine ⟨(k, x), (OrderedMap.atOrBefore?_eq_some_iff _ _ _ _).mpr ⟨hk, hle, ?_⟩, rfl⟩
    exact fun k' v' hv' hle' => hmax k' (by simp [version?, hv']) hle'

lemma getAtOrBefore_eq_none_iff (c : TableSchemaSnapshots) (t : TableId) (s : SnapshotId) :
    c.getAtOrBefore t s = none ↔ ∀ k ≤ s, c.version? t k = none := by
  rw [getAtOrBefore_eq, Option.map_eq_none_iff, OrderedMap.atOrBefore?_eq_none_iff]
  rfl

variable {n : Nat}

lemma evictOldest_upper {m : OrderedMap SnapshotId TableSchema} :
    (∀ k x, (evictOldest n m).get? k = some x → m.get? k = some x) ∧
      ∀ k k' x', ((evictOldest n m).get? k).isSome → k < k' → m.get? k' = some x' →
        (evictOldest n m).get? k' = some x' := by
  have iter : ∀ j,
      (∀ k x, (OrderedMap.dropOldest^[j] m).get? k = some x → m.get? k = some x) ∧
        ∀ k k' x', ((OrderedMap.dropOldest^[j] m).get? k).isSome → k < k' → m.get? k' = some x' →
          (OrderedMap.dropOldest^[j] m).get? k' = some x' := by
    intro j
    induction j with
    | zero => exact ⟨fun _ _ h => h, fun _ _ _ _ _ h => h⟩
    | succ j ih =>
      obtain ⟨hsub, hup⟩ := ih
      simp only [Function.iterate_succ_apply']
      refine ⟨fun k x h => ?_, fun k k' x' hk hlt hk' => ?_⟩
      · exact hsub k x ((OrderedMap.get?_dropOldest_eq_some_iff _ _ _).mp h).1
      · obtain ⟨x, hx⟩ := Option.isSome_iff_exists.mp hk
        have hx := ((OrderedMap.get?_dropOldest_eq_some_iff _ _ _).mp hx).1
        exact (OrderedMap.get?_dropOldest_eq_some_iff _ _ _).mpr
          ⟨hup k k' x' (by simp [hx]) hlt hk', k, hlt, by simp [hx]⟩
  exact iter _

lemma versions_insertWithEviction (c : TableSchemaSnapshots) (x : TableSchema)
    (hn : n ≠ 0) (t : TableId) : (c.insertWithEviction x n).versions t =
      if t = x.id then evictOldest n ((c.insert x).versions x.id) else c.versions t := by
  by_cases ht : t = x.id
  · simp [insertWithEviction, hn, versions_mk_insert, ht]
  · simp only [insertWithEviction, hn, if_false, versions_mk_insert, ht]
    simp [insert, versions_mk_insert, ht]

variable {c : TableSchemaSnapshots} {y : TableSchema} {t : TableId} {s : SnapshotId}

lemma version?_of_insertWithEviction {x : TableSchema} (hn : n ≠ 0)
    (h : (c.insertWithEviction x n).version? t s = some y) : (t = x.id ∧ s = x.snapshotId ∧ y = x) ∨
      (¬ (t = x.id ∧ s = x.snapshotId) ∧ c.version? t s = some y) := by
  have hins : (c.insert x).version? t s = some y := by
    rw [version?, versions_insertWithEviction c x hn] at h
    split_ifs at h with ht
    · subst ht
      exact evictOldest_upper.1 s y h
    · rw [version?_insert, if_neg (fun hc => ht hc.1)]
      exact h
  rw [version?_insert] at hins
  split_ifs at hins with hc
  · exact .inl ⟨hc.1, hc.2, (Option.some.inj hins).symm⟩
  · exact .inr ⟨hc, hins⟩

lemma version?_insertWithEviction_of_lt {x : TableSchema} (hn : n ≠ 0) {k k' : SnapshotId}
    (hk : ((c.insertWithEviction x n).version? t k).isSome) (hlt : k < k')
    (hk' : (c.insert x).version? t k' = some y) :
    (c.insertWithEviction x n).version? t k' = some y := by
  rw [version?, versions_insertWithEviction c x hn] at hk ⊢
  split_ifs at hk ⊢ with ht
  · subst ht
    exact evictOldest_upper.2 k k' y hk hlt hk'
  · rwa [version?_insert, if_neg (fun hc => ht hc.1)] at hk'

lemma version?_foldl_insert {xs : List TableSchema} (h : (xs.foldl insert c).version? t s = some y) :
    (y ∈ xs ∧ t = y.id ∧ s = y.snapshotId) ∨ c.version? t s = some y := by
  induction xs generalizing c with
  | nil => exact .inr h
  | cons x xs ih =>
    rcases ih h with ⟨hmem, hid, hs⟩ | hc
    · exact .inl ⟨List.mem_cons_of_mem _ hmem, hid, hs⟩
    · rw [version?_insert] at hc
      split_ifs at hc with hx
      · cases hc; exact .inl ⟨List.mem_cons_self, hx.1, hx.2⟩
      · exact .inr hc

lemma version?_of_replaceAll {xs : List TableSchema} (h : (replaceAll xs).version? t s = some y) :
    y ∈ xs ∧ t = y.id ∧ s = y.snapshotId :=
  (version?_foldl_insert h).resolve_right (by simp)

lemma version?_prune_eq_some_iff (c : TableSchemaSnapshots) (r : OrderedMap TableId SnapshotId)
    (t : TableId) (s : SnapshotId) (x : TableSchema) :
    (c.prune r).version? t s = some x ↔
      c.version? t s = some x ∧
        ∀ b, r.get? t = some b → ∀ k, (c.version? t k).isSome → k ≤ b → k ≤ s := by
  simp only [version?, versions_prune]
  cases hr : r.get? t with
  | none => simp
  | some b =>
    simp only [OrderedMap.get?_retainFrom_eq_some_iff, Option.some.injEq,
      Option.isSome_iff_exists]
    grind

end TableSchemaSnapshots

end Etl
