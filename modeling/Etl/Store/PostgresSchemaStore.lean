import Etl.Error
import Etl.Store.SchemaTables

/-!
# The schema store of the Postgres store

The schema tables with a cache of at most `maxCachedSchemasPerTable` versions per table in front. A
cached version hides a newer one that only the tables hold; `getTableSchema_eq_memory_iff` says when
lookups agree with the in-memory store (`memoryStep`).
-/

namespace Etl

def maxCachedSchemasPerTable : Nat := 2

structure PostgresSchemaStore where
  db : SchemaTables
  cache : TableSchemaSnapshots

namespace PostgresSchemaStore

def new : PostgresSchemaStore := ⟨⟨[]⟩, .empty⟩

def query (dbFails : Bool) (description : String) {α : Type} (result : Except SqlxError α) :
    Except EtlError α :=
  match dbFails, result with
  | false, .ok a => .ok a
  | _, _ => .error ⟨.sourceQueryFailed, description⟩

def getTableSchema (st : PostgresSchemaStore) (dbFails : Bool) (tableId : TableId)
    (snapshotId : SnapshotId) : Except EtlError (Option TableSchema) × PostgresSchemaStore :=
  match st.cache.getAtOrBefore tableId snapshotId with
  | some tableSchema => (.ok (some tableSchema), st)
  | none =>
    match query dbFails "Table schema loading failed"
        (st.db.loadTableSchemaAtSnapshot tableId snapshotId) with
    | .error e => (.error e, st)
    | .ok none => (.ok none, st)
    | .ok (some tableSchema) =>
      (.ok (some tableSchema),
        { st with cache := st.cache.insertWithEviction tableSchema maxCachedSchemasPerTable })

def loadTableSchemas (st : PostgresSchemaStore) (dbFails : Bool) :
    Except EtlError Nat × PostgresSchemaStore :=
  match query dbFails "Table schemas loading failed" st.db.loadTableSchemas with
  | .error e => (.error e, st)
  | .ok tableSchemas =>
    (.ok tableSchemas.length, { st with cache := .replaceAll tableSchemas })

def storeTableSchema (st : PostgresSchemaStore) (dbFails : Bool) (tableSchema : TableSchema) :
    Except EtlError TableSchema × PostgresSchemaStore :=
  match query dbFails "Table schema storage failed" (st.db.storeTableSchema tableSchema) with
  | .error e => (.error e, st)
  | .ok db =>
    (.ok tableSchema,
      ⟨db, st.cache.insertWithEviction tableSchema maxCachedSchemasPerTable⟩)

def pruneTableSchemas (st : PostgresSchemaStore) (dbFails : Bool)
    (retentionSnapshotIds : OrderedMap TableId SnapshotId) :
    Except EtlError Nat × PostgresSchemaStore :=
  match query dbFails "Obsolete table schema deletion failed"
      (.ok (st.db.deleteObsoleteTableSchemaVersions retentionSnapshotIds)) with
  | .error e => (.error e, st)
  | .ok db =>
    (.ok (st.db.rows.length - db.rows.length), ⟨db, st.cache.prune retentionSnapshotIds⟩)

def forgetTable (st : PostgresSchemaStore) (dbFails : Bool) (tableId : TableId) :
    Except EtlError Unit × PostgresSchemaStore :=
  match query dbFails "Table schema deletion failed"
      (.ok (st.db.deleteTableSchemaForTable tableId)) with
  | .error e => (.error e, st)
  | .ok db => (.ok (), ⟨db, st.cache.removeTable tableId⟩)

end PostgresSchemaStore

inductive SchemaStoreOp where
  | storeTableSchema (tableSchema : TableSchema)
  | getTableSchema (tableId : TableId) (snapshotId : SnapshotId)
  | loadTableSchemas
  | pruneTableSchemas (retentionSnapshotIds : OrderedMap TableId SnapshotId)
  | prepareForCopy (tableId : TableId)
  | resetForResync
  | delete (tableId : TableId)
  | restart

def PostgresSchemaStore.step (st : PostgresSchemaStore) (dbFails : Bool) :
    SchemaStoreOp → Bool × PostgresSchemaStore
  | .storeTableSchema x =>
    let (r, st') := st.storeTableSchema dbFails x
    (r.isOk, st')
  | .getTableSchema t s =>
    let (r, st') := st.getTableSchema dbFails t s
    (r.isOk, st')
  | .loadTableSchemas =>
    let (r, st') := st.loadTableSchemas dbFails
    (r.isOk, st')
  | .pruneTableSchemas ret =>
    let (r, st') := st.pruneTableSchemas dbFails ret
    (r.isOk, st')
  | .prepareForCopy t =>
    let (r, st') := st.forgetTable dbFails t
    (r.isOk, st')
  | .resetForResync => (true, st)
  | .delete t =>
    let (r, st') := st.forgetTable dbFails t
    (r.isOk, st')
  | .restart => (true, { st with cache := .empty })

def memoryStep (m : TableSchemaSnapshots) : SchemaStoreOp → TableSchemaSnapshots
  | .storeTableSchema x => m.insert x
  | .pruneTableSchemas ret => m.prune ret
  | .prepareForCopy t => m.removeTable t
  | .delete t => m.removeTable t
  | .getTableSchema _ _ | .loadTableSchemas | .resetForResync | .restart => m

def stepBoth (p : PostgresSchemaStore × TableSchemaSnapshots) (op : SchemaStoreOp × Bool) :
    PostgresSchemaStore × TableSchemaSnapshots :=
  let (ok, st) := p.1.step op.2 op.1
  (st, if ok then memoryStep p.2 op.1 else p.2)

def runBoth (ops : List (SchemaStoreOp × Bool)) : PostgresSchemaStore × TableSchemaSnapshots :=
  ops.foldl stepBoth (.new, .empty)

/-! ## The tables hold what the in-memory store holds -/

lemma PostgresSchemaStore.query_eq_ok_iff {α : Type} {dbFails : Bool} {description : String}
    {result : Except SqlxError α} {a : α} :
    query dbFails description result = .ok a ↔ dbFails = false ∧ result = .ok a := by
  cases dbFails <;> cases result <;> simp [query]

lemma stepBoth_cases (p : PostgresSchemaStore × TableSchemaSnapshots)
    (op : SchemaStoreOp × Bool) :
    stepBoth p op = p ∨
    (∃ x db, op.1 = .storeTableSchema x ∧ p.1.db.storeTableSchema x = .ok db ∧
      stepBoth p op =
        (⟨db, p.1.cache.insertWithEviction x maxCachedSchemasPerTable⟩, p.2.insert x)) ∨
    (∃ t s x, op.1 = .getTableSchema t s ∧ p.1.cache.getAtOrBefore t s = none ∧
      p.1.db.loadTableSchemaAtSnapshot t s = .ok (some x) ∧
      stepBoth p op =
        (⟨p.1.db, p.1.cache.insertWithEviction x maxCachedSchemasPerTable⟩, p.2)) ∨
    (∃ xs, p.1.db.loadTableSchemas = .ok xs ∧
      stepBoth p op = (⟨p.1.db, .replaceAll xs⟩, p.2)) ∨
    (∃ r, stepBoth p op =
      (⟨p.1.db.deleteObsoleteTableSchemaVersions r, p.1.cache.prune r⟩, p.2.prune r)) ∨
    (∃ t, stepBoth p op =
      (⟨p.1.db.deleteTableSchemaForTable t, p.1.cache.removeTable t⟩, p.2.removeTable t)) ∨
    stepBoth p op = (⟨p.1.db, .empty⟩, p.2) := by
  obtain ⟨st, m⟩ := p
  obtain ⟨op, dbFails⟩ := op
  have hok := @PostgresSchemaStore.query_eq_ok_iff
  cases op with
  | storeTableSchema x =>
    cases hq : PostgresSchemaStore.query dbFails "Table schema storage failed"
        (st.db.storeTableSchema x) with
    | error e =>
      exact .inl (by simp [stepBoth, PostgresSchemaStore.step,
        PostgresSchemaStore.storeTableSchema, hq, Except.isOk, Except.toBool])
    | ok db =>
      refine .inr (.inl ⟨x, db, rfl, (hok.mp hq).2, ?_⟩)
      simp [stepBoth, PostgresSchemaStore.step, PostgresSchemaStore.storeTableSchema, hq,
        Except.isOk, Except.toBool, memoryStep]
  | getTableSchema t s =>
    cases hc : st.cache.getAtOrBefore t s with
    | some x =>
      exact .inl (by simp [stepBoth, PostgresSchemaStore.step,
        PostgresSchemaStore.getTableSchema, hc, memoryStep])
    | none =>
      rcases hq : PostgresSchemaStore.query dbFails "Table schema loading failed"
          (st.db.loadTableSchemaAtSnapshot t s) with e | (_ | x)
      · exact .inl (by simp [stepBoth, PostgresSchemaStore.step,
          PostgresSchemaStore.getTableSchema, hc, hq, memoryStep])
      · exact .inl (by simp [stepBoth, PostgresSchemaStore.step,
          PostgresSchemaStore.getTableSchema, hc, hq, memoryStep])
      · refine .inr (.inr (.inl ⟨t, s, x, rfl, hc, (hok.mp hq).2, ?_⟩))
        simp [stepBoth, PostgresSchemaStore.step, PostgresSchemaStore.getTableSchema, hc, hq,
          memoryStep]
  | loadTableSchemas =>
    cases hq : PostgresSchemaStore.query dbFails "Table schemas loading failed"
        st.db.loadTableSchemas with
    | error e =>
      exact .inl (by simp [stepBoth, PostgresSchemaStore.step,
        PostgresSchemaStore.loadTableSchemas, hq, memoryStep])
    | ok xs =>
      refine .inr (.inr (.inr (.inl ⟨xs, (hok.mp hq).2, ?_⟩)))
      simp [stepBoth, PostgresSchemaStore.step, PostgresSchemaStore.loadTableSchemas, hq,
        memoryStep]
  | pruneTableSchemas r =>
    cases dbFails with
    | true =>
      exact .inl (by simp [stepBoth, PostgresSchemaStore.step,
        PostgresSchemaStore.pruneTableSchemas, PostgresSchemaStore.query, Except.isOk,
        Except.toBool])
    | false => exact .inr (.inr (.inr (.inr (.inl ⟨r, rfl⟩))))
  | prepareForCopy t | delete t =>
    cases dbFails with
    | true =>
      exact .inl (by simp [stepBoth, PostgresSchemaStore.step, PostgresSchemaStore.forgetTable,
        PostgresSchemaStore.query, Except.isOk, Except.toBool])
    | false => exact .inr (.inr (.inr (.inr (.inr (.inl ⟨t, rfl⟩)))))
  | resetForResync => exact .inl rfl
  | restart => exact .inr (.inr (.inr (.inr (.inr (.inr rfl)))))

lemma stepBoth_represents {p : PostgresSchemaStore × TableSchemaSnapshots}
    (h : p.1.db.Represents p.2) (op : SchemaStoreOp × Bool) :
    (stepBoth p op).1.db.Represents (stepBoth p op).2 := by
  rcases stepBoth_cases p op with heq | ⟨x, db, -, hs, heq⟩ | ⟨_, _, _, -, -, -, heq⟩ |
    ⟨_, -, heq⟩ | ⟨r, heq⟩ | ⟨t, heq⟩ | heq <;> rw [heq]
  · exact h
  · exact h.storeTableSchema hs
  · exact h
  · exact h
  · exact h.deleteObsoleteTableSchemaVersions r
  · exact h.deleteTableSchemaForTable t
  · exact h

lemma runBoth_represents (ops : List (SchemaStoreOp × Bool)) :
    (runBoth ops).1.db.Represents (runBoth ops).2 := by
  suffices hrun : ∀ p : PostgresSchemaStore × TableSchemaSnapshots, p.1.db.Represents p.2 →
      (ops.foldl stepBoth p).1.db.Represents (ops.foldl stepBoth p).2 from hrun _ .empty
  induction ops with
  | nil => exact fun _ h => h
  | cons op ops ih => exact fun p h => ih _ (stepBoth_represents h op)

lemma PostgresSchemaStore.getTableSchema_fst {st : PostgresSchemaStore}
    {m : TableSchemaSnapshots} (h : st.db.Represents m) (t : TableId) (s : SnapshotId) :
    (st.getTableSchema false t s).1 =
      .ok ((st.cache.getAtOrBefore t s).or ((m.getAtOrBefore t s).bind TableSchema.reload)) := by
  cases hc : st.cache.getAtOrBefore t s with
  | some x => simp [getTableSchema, hc]
  | none =>
    simp only [getTableSchema, hc, h.loadTableSchemaAtSnapshot_eq, query, Option.none_or]
    cases (m.getAtOrBefore t s).bind TableSchema.reload <;> rfl

/-! ## Runs that keep the cache an upper segment -/

/-- Cached versions are the stored ones, with no newer one missing, and stored versions read back as
themselves. -/
structure CacheUpper (st : PostgresSchemaStore) (m : TableSchemaSnapshots) : Prop where
  stored : ∀ t k x, st.cache.version? t k = some x → m.version? t k = some x
  upper : ∀ t k k', (st.cache.version? t k).isSome → k < k' → (m.version? t k').isSome →
    (st.cache.version? t k').isSome
  readable : ∀ t k x, m.version? t k = some x → x.reload = some x

/-- `x` is evicted at once, or all newer versions are cached. -/
def CachesWithoutGap (st : PostgresSchemaStore) (m : TableSchemaSnapshots) (x : TableSchema) :
    Prop :=
  ((st.cache.insertWithEviction x maxCachedSchemasPerTable).version? x.id x.snapshotId).isSome →
    ∀ k, x.snapshotId < k → (m.version? x.id k).isSome → (st.cache.version? x.id k).isSome

/-- A stored schema reads back as itself, and what is cached leaves no gap. -/
def SchemaStoreOp.Safe (p : PostgresSchemaStore × TableSchemaSnapshots) : SchemaStoreOp → Prop
  | .storeTableSchema x => x.reload = some x ∧ CachesWithoutGap p.1 p.2 x
  | .getTableSchema t s => p.1.cache.getAtOrBefore t s = none →
      ∀ x, p.2.getAtOrBefore t s = some x → CachesWithoutGap p.1 p.2 x
  | _ => True

def SafeRun (p : PostgresSchemaStore × TableSchemaSnapshots) :
    List (SchemaStoreOp × Bool) → Prop
  | [] => True
  | op :: ops => op.1.Safe p ∧ SafeRun (stepBoth p op) ops

namespace CacheUpper

variable {st : PostgresSchemaStore} {m : TableSchemaSnapshots}

lemma insertWithEviction {db : SchemaTables} {m' : TableSchemaSnapshots} {x : TableSchema}
    (h : CacheUpper st m) (hx : m'.version? x.id x.snapshotId = some x)
    (hother : ∀ t k, ¬ (t = x.id ∧ k = x.snapshotId) → m'.version? t k = m.version? t k)
    (hgap : CachesWithoutGap st m x) (hread : x.reload = some x) :
    CacheUpper ⟨db, st.cache.insertWithEviction x maxCachedSchemasPerTable⟩ m' := by
  have hn : maxCachedSchemasPerTable ≠ 0 := by decide
  refine ⟨fun t k y hy => ?_, fun t k k' hk hlt hk' => ?_, fun t k y hy => ?_⟩
  · rcases TableSchemaSnapshots.version?_of_insertWithEviction hn hy with ⟨rfl, rfl, rfl⟩ | ⟨hne, hc⟩
    · exact hx
    · rw [hother t k hne]; exact h.stored t k y hc
  · -- `k'` was cached before or is the inserted version, and the newer of two survivors survives
    have hins : ((st.cache.insert x).version? t k').isSome := by
      rw [TableSchemaSnapshots.version?_insert]
      split_ifs with hc
      · rfl
      · rw [hother t k' hc] at hk'
        obtain ⟨y, hy⟩ := Option.isSome_iff_exists.mp hk
        rcases TableSchemaSnapshots.version?_of_insertWithEviction hn hy with
          ⟨rfl, rfl, rfl⟩ | ⟨-, hold⟩
        · exact hgap (by simp [hy]) k' hlt hk'
        · exact h.upper t k k' (by simp [hold]) hlt hk'
    obtain ⟨y', hy'⟩ := Option.isSome_iff_exists.mp hins
    simp [TableSchemaSnapshots.version?_insertWithEviction_of_lt hn hk hlt hy']
  · by_cases hc : t = x.id ∧ k = x.snapshotId
    · obtain ⟨rfl, rfl⟩ := hc
      rw [hx] at hy
      cases hy
      exact hread
    · rw [hother t k hc] at hy
      exact h.readable t k y hy

lemma getAtOrBefore_eq (h : CacheUpper st m) {t : TableId} {s : SnapshotId} {x : TableSchema}
    (hx : st.cache.getAtOrBefore t s = some x) : m.getAtOrBefore t s = some x := by
  obtain ⟨k, hk, hle, hmax⟩ := (st.cache.getAtOrBefore_eq_some_iff t s x).mp hx
  refine (m.getAtOrBefore_eq_some_iff t s x).mpr ⟨k, h.stored t k x hk, hle, ?_⟩
  intro k' hk' hle'
  by_contra hlt
  have hlt := not_le.mp hlt
  exact absurd (hmax k' (h.upper t k k' (by simp [hk]) hlt hk') hle') (not_le.mpr hlt)

lemma prune (h : CacheUpper st m) (db : SchemaTables) (r : OrderedMap TableId SnapshotId) :
    CacheUpper ⟨db, st.cache.prune r⟩ (m.prune r) := by
  have hiff := @TableSchemaSnapshots.version?_prune_eq_some_iff
  refine ⟨fun t k x hx => ?_, fun t k k' hk hlt hk' => ?_, fun t k x hx => ?_⟩
  · obtain ⟨hc, hb⟩ := (hiff _ r t k x).mp hx
    refine (hiff _ r t k x).mpr ⟨h.stored t k x hc, fun b hrb k' hk' hle => ?_⟩
    -- a newer stored version at or below the boundary would be cached
    by_contra hlt
    have hlt := not_le.mp hlt
    exact absurd (hb b hrb k' (h.upper t k k' (by simp [hc]) hlt hk') hle) (not_le.mpr hlt)
  · obtain ⟨x, hx⟩ := Option.isSome_iff_exists.mp hk
    obtain ⟨hc, hb⟩ := (hiff _ r t k x).mp hx
    obtain ⟨x', hx'⟩ := Option.isSome_iff_exists.mp hk'
    obtain ⟨hm', -⟩ := (hiff _ r t k' x').mp hx'
    obtain ⟨y, hy⟩ := Option.isSome_iff_exists.mp (h.upper t k k' (by simp [hc]) hlt (by simp [hm']))
    have hkeep := (hiff _ r t k' y).mpr
      ⟨hy, fun b hrb k'' hk'' hle => (hb b hrb k'' hk'' hle).trans hlt.le⟩
    simp [hkeep]
  · exact h.readable t k x ((hiff _ r t k x).mp hx).1

lemma forget (h : CacheUpper st m) (db : SchemaTables) (t₀ : TableId) :
    CacheUpper ⟨db, st.cache.removeTable t₀⟩ (m.removeTable t₀) := by
  refine ⟨fun t k x hx => ?_, fun t k k' hk hlt hk' => ?_, fun t k x hx => ?_⟩
  all_goals simp only [TableSchemaSnapshots.version?_removeTable] at *
  · split_ifs at hx ⊢
    exact h.stored t k x hx
  · split_ifs at hk hk' ⊢
    · simp at hk
    · exact h.upper t k k' hk hlt hk'
  · split_ifs at hx
    exact h.readable t k x hx

lemma load (h : CacheUpper st m) (hdb : st.db.Represents m) {xs : List TableSchema}
    (hload : st.db.loadTableSchemas = .ok xs) : CacheUpper { st with cache := .replaceAll xs } m := by
  have hnewest : ∀ t k x, (TableSchemaSnapshots.replaceAll xs).version? t k = some x →
      m.getAtOrBefore t .max = some x ∧ x.snapshotId = k := by
    intro t k x hx
    obtain ⟨hmem, rfl, rfl⟩ := TableSchemaSnapshots.version?_of_replaceAll hx
    rw [hdb.loadTableSchemas_eq] at hload
    cases hload
    obtain ⟨t', -, hbind⟩ := List.mem_filterMap.mp hmem
    obtain ⟨y, hy, hr⟩ := Option.bind_eq_some_iff.mp hbind
    obtain ⟨k, hk, -⟩ := (m.getAtOrBefore_eq_some_iff t' .max y).mp hy
    have hyx : y = x := Option.some.inj ((h.readable t' k y hk).symm.trans hr)
    subst hyx
    obtain ⟨rfl, -⟩ := hdb.keyed t' k y hk
    exact ⟨hy, rfl⟩
  refine ⟨fun t k x hx => ?_, fun t k k' hk hlt hk' => ?_, h.readable⟩
  · obtain ⟨hnew, rfl⟩ := hnewest t k x hx
    obtain ⟨k', hk', -⟩ := (m.getAtOrBefore_eq_some_iff t .max x).mp hnew
    obtain ⟨-, rfl⟩ := hdb.keyed t k' x hk'
    exact hk'
  · obtain ⟨x, hx⟩ := Option.isSome_iff_exists.mp hk
    obtain ⟨hnew, rfl⟩ := hnewest t k x hx
    obtain ⟨k₀, hk₀, -, hmax⟩ := (m.getAtOrBefore_eq_some_iff t .max x).mp hnew
    obtain ⟨-, rfl⟩ := hdb.keyed t k₀ x hk₀
    exact absurd (hmax k' hk' (SnapshotId.le_max k')) (not_le.mpr hlt)

lemma stepBoth {p : PostgresSchemaStore × TableSchemaSnapshots} (h : CacheUpper p.1 p.2)
    (hdb : p.1.db.Represents p.2) {op : SchemaStoreOp × Bool} (hsafe : op.1.Safe p) :
    CacheUpper (stepBoth p op).1 (stepBoth p op).2 := by
  rcases stepBoth_cases p op with heq | ⟨x, db, hop, -, heq⟩ | ⟨t, s, x, hop, hmiss, hl, heq⟩ |
    ⟨_, hl, heq⟩ | ⟨r, heq⟩ | ⟨t, heq⟩ | heq <;> rw [heq]
  · exact h
  · rw [hop] at hsafe
    refine h.insertWithEviction ?_ (fun t k hne => ?_) hsafe.2 hsafe.1
    · simp [TableSchemaSnapshots.version?_insert]
    · rw [TableSchemaSnapshots.version?_insert, if_neg hne]
  · rw [hop] at hsafe
    rw [hdb.loadTableSchemaAtSnapshot_eq, Except.ok.injEq, Option.bind_eq_some_iff] at hl
    obtain ⟨y, hy, hr⟩ := hl
    obtain ⟨k, hk, -⟩ := (p.2.getAtOrBefore_eq_some_iff t s y).mp hy
    have hread := h.readable t k y hk
    obtain rfl : y = x := Option.some.inj (hread.symm.trans hr)
    obtain ⟨rfl, rfl⟩ := hdb.keyed t k y hk
    exact h.insertWithEviction hk (fun _ _ _ => rfl) (hsafe hmiss y hy) hread
  · exact h.load hdb hl
  · exact h.prune _ r
  · exact h.forget _ t
  · exact ⟨fun t k x hx => by simp at hx, fun t k k' hk => by simp at hk, h.readable⟩

lemma runBoth {ops : List (SchemaStoreOp × Bool)} (hsafe : SafeRun (.new, .empty) ops) :
    CacheUpper (runBoth ops).1 (runBoth ops).2 := by
  suffices hrun : ∀ p : PostgresSchemaStore × TableSchemaSnapshots, CacheUpper p.1 p.2 →
      p.1.db.Represents p.2 → SafeRun p ops →
      CacheUpper (ops.foldl Etl.stepBoth p).1 (ops.foldl Etl.stepBoth p).2 from
    hrun _ ⟨fun t k x hx => by simp [PostgresSchemaStore.new] at hx,
      fun t k k' hk => by simp [PostgresSchemaStore.new] at hk,
      fun t k x hx => by simp at hx⟩ .empty hsafe
  clear hsafe
  induction ops with
  | nil => exact fun p h _ _ => h
  | cons op ops ih =>
    exact fun p h hdb hs => ih _ (h.stepBoth hdb hs.1) (stepBoth_represents hdb op) hs.2

end CacheUpper

/-! ## When a lookup agrees with the in-memory store -/

/-- A lookup in the Postgres store gives the answer of the in-memory store exactly when the newest
cached version at or before the snapshot is the newest stored one, or none is cached and the newest
stored one reads back as itself. In a run whose operations are all safe every lookup does. -/
theorem getTableSchema_eq_memory_iff (ops : List (SchemaStoreOp × Bool)) (t : TableId)
    (s : SnapshotId) :
    let st := (Etl.runBoth ops).1
    let m := (Etl.runBoth ops).2
    ((st.getTableSchema false t s).1 = .ok (m.getAtOrBefore t s) ↔
      (∃ x, st.cache.getAtOrBefore t s = some x ∧ m.getAtOrBefore t s = some x) ∨
      ((∀ k ≤ s, st.cache.version? t k = none) ∧
        ∀ x, m.getAtOrBefore t s = some x → x.reload = some x)) ∧
    (SafeRun (.new, .empty) ops → (st.getTableSchema false t s).1 = .ok (m.getAtOrBefore t s)) := by
  intro st m
  have hfst := PostgresSchemaStore.getTableSchema_fst (runBoth_represents ops) t s
  have hiff : (st.getTableSchema false t s).1 = .ok (m.getAtOrBefore t s) ↔
      (∃ x, st.cache.getAtOrBefore t s = some x ∧ m.getAtOrBefore t s = some x) ∨
      ((∀ k ≤ s, st.cache.version? t k = none) ∧
        ∀ x, m.getAtOrBefore t s = some x → x.reload = some x) := by
    rw [hfst, Except.ok.injEq, ← TableSchemaSnapshots.getAtOrBefore_eq_none_iff]
    cases st.cache.getAtOrBefore t s <;> cases m.getAtOrBefore t s <;> simp [eq_comm]
  refine ⟨hiff, fun hsafe => hiff.mpr ?_⟩
  have hup := CacheUpper.runBoth hsafe
  cases hc : st.cache.getAtOrBefore t s with
  | some x => exact .inl ⟨x, rfl, hup.getAtOrBefore_eq hc⟩
  | none =>
    refine .inr ⟨(st.cache.getAtOrBefore_eq_none_iff t s).mp hc, fun x hx => ?_⟩
    obtain ⟨k, hk, -⟩ := (m.getAtOrBefore_eq_some_iff t s x).mp hx
    exact hup.readable t k x hk

def sampleVersion (commitLsn : PgLsn) : TableSchema where
  id := 1
  name := ⟨"public", "users"⟩
  columnSchemas := [⟨"id", .text, -1, 1, some 1, false, none⟩]
  snapshotId := ⟨commitLsn, 0⟩

def shadowingOps : List (SchemaStoreOp × Bool) :=
  [(.storeTableSchema (sampleVersion 10), false), (.storeTableSchema (sampleVersion 20), false),
   (.storeTableSchema (sampleVersion 30), false), (.restart, false), (.loadTableSchemas, false),
   (.getTableSchema 1 ⟨15, 0⟩, false)]

/-- The version cached for the first lookup hides the middle one from the next. -/
theorem getTableSchema_shadowed :
    ((Etl.runBoth shadowingOps).1.getTableSchema false 1 ⟨25, 0⟩).1 =
        .ok (some (sampleVersion 10)) ∧
      (Etl.runBoth shadowingOps).2.getAtOrBefore 1 ⟨25, 0⟩ = some (sampleVersion 20) := by
  constructor <;> rfl

end Etl
