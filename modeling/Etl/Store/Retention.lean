import Etl.Store.SchemaTables

/-!
# Pruning schema versions again and again

Pruning keeps the version in force at the boundary of a table and every newer one. Boundaries may
come in any order: what is left is that of the greatest (`prune_all_eq_prune_greatest`).
-/

namespace Etl

def boundariesOf (applied : List (OrderedMap TableId SnapshotId)) (tableId : TableId) :
    List SnapshotId :=
  applied.filterMap fun retentionSnapshotIds => retentionSnapshotIds.get? tableId

def greatestRetentions (applied : List (OrderedMap TableId SnapshotId)) :
    OrderedMap TableId SnapshotId :=
  (applied.flatMap OrderedMap.keys).foldl
    (fun greatest tableId =>
      match (boundariesOf applied tableId).max? with
      | some boundary => greatest.insert tableId boundary
      | none => greatest)
    .empty

lemma get?_foldl_boundaries (boundary? : TableId → Option SnapshotId) (tableIds : List TableId)
    (greatest : OrderedMap TableId SnapshotId) (t : TableId) :
    (tableIds.foldl (fun greatest tableId =>
      match boundary? tableId with
      | some boundary => greatest.insert tableId boundary
      | none => greatest) greatest).get? t =
      if t ∈ tableIds ∧ (boundary? t).isSome then boundary? t else greatest.get? t := by
  induction tableIds generalizing greatest with
  | nil => simp
  | cons tableId tableIds ih =>
    rw [List.foldl_cons, ih]
    by_cases ht : t = tableId
    · subst ht
      cases h : boundary? t <;> simp
    · cases h : boundary? tableId <;> simp [ht, OrderedMap.get?_insert]

lemma get?_greatestRetentions (applied : List (OrderedMap TableId SnapshotId)) (t : TableId) :
    (greatestRetentions applied).get? t = (boundariesOf applied t).max? := by
  rw [greatestRetentions, get?_foldl_boundaries]
  cases h : (boundariesOf applied t).max? with
  | none => simp [OrderedMap.get?, OrderedMap.empty]
  | some boundary =>
    -- a table with a boundary is a key of the map it comes from
    obtain ⟨retention, hmem, hget⟩ := List.mem_filterMap.1 (List.max?_mem h)
    have hkey : t ∈ applied.flatMap OrderedMap.keys :=
      List.mem_flatMap.2 ⟨retention, hmem, (retention.mem_keys_iff t).2 (by rw [hget]; rfl)⟩
    simp [hkey]

lemma greatestRetentions_perm {order applied : List (OrderedMap TableId SnapshotId)}
    (h : order.Perm applied) : greatestRetentions order = greatestRetentions applied := by
  refine OrderedMap.ext_get? fun t => Option.ext fun boundary => ?_
  have hperm : (boundariesOf order t).Perm (boundariesOf applied t) := h.filterMap _
  rw [get?_greatestRetentions, get?_greatestRetentions, List.max?_eq_some_iff,
    List.max?_eq_some_iff]
  simp only [hperm.mem_iff]

namespace TableSchemaSnapshots

def pruneAll (c : TableSchemaSnapshots) (applied : List (OrderedMap TableId SnapshotId)) :
    TableSchemaSnapshots :=
  applied.foldl prune c

lemma get?_pruneAll (c : TableSchemaSnapshots) (applied : List (OrderedMap TableId SnapshotId))
    (t : TableId) :
    (c.pruneAll applied).tableSchemas.get? t =
      (c.tableSchemas.get? t).map fun schemas =>
        (boundariesOf applied t).foldl OrderedMap.retainFrom schemas := by
  induction applied generalizing c with
  | nil => simp [pruneAll, boundariesOf]
  | cons retention applied ih =>
    rw [pruneAll, List.foldl_cons, ← pruneAll, ih, prune, OrderedMap.get?_mapValues, Option.map_map]
    congr 1
    funext schemas
    simp only [Function.comp_apply, boundariesOf, List.filterMap_cons]
    cases retention.get? t <;> rfl

lemma pruneAll_eq (c : TableSchemaSnapshots) (applied : List (OrderedMap TableId SnapshotId)) :
    c.pruneAll applied = c.prune (greatestRetentions applied) := by
  have hget (t : TableId) : (c.pruneAll applied).tableSchemas.get? t =
      (c.prune (greatestRetentions applied)).tableSchemas.get? t := by
    rw [get?_pruneAll, prune, OrderedMap.get?_mapValues, get?_greatestRetentions]
    congr 1
    funext schemas
    rw [OrderedMap.foldl_retainFrom]
    cases (boundariesOf applied t).max? <;> rfl
  exact congrArg TableSchemaSnapshots.mk (OrderedMap.ext_get? hget)

lemma getAtOrBefore_prune (c : TableSchemaSnapshots) (r : OrderedMap TableId SnapshotId)
    (t : TableId) (s : SnapshotId) (h : ∀ b, r.get? t = some b → b ≤ s) :
    (c.prune r).getAtOrBefore t s = c.getAtOrBefore t s := by
  rw [getAtOrBefore_eq, getAtOrBefore_eq, versions_prune]
  cases hr : r.get? t with
  | none => rfl
  | some b => rw [OrderedMap.atOrBefore?_retainFrom _ (h b hr)]

end TableSchemaSnapshots

def SchemaTables.deleteAllObsolete (db : SchemaTables)
    (applied : List (OrderedMap TableId SnapshotId)) : SchemaTables :=
  applied.foldl SchemaTables.deleteObsoleteTableSchemaVersions db

lemma SchemaTables.Represents.deleteAllObsolete {db : SchemaTables} {m : TableSchemaSnapshots}
    (h : db.Represents m) (applied : List (OrderedMap TableId SnapshotId)) :
    (db.deleteAllObsolete applied).Represents (m.pruneAll applied) := by
  induction applied generalizing db m with
  | nil => exact h
  | cons retention applied ih => exact ih (h.deleteObsoleteTableSchemaVersions retention)

/-- Whatever boundaries are applied and in whatever order, the versions that are left are those one
pruning with the greatest boundary of each table leaves: lookups at or above it find what they found
before, tables without a boundary keep all their versions, and the tables of the Postgres store, if
they hold the versions of the index, go on holding them. -/
theorem prune_all_eq_prune_greatest (c : TableSchemaSnapshots)
    (applied : List (OrderedMap TableId SnapshotId)) :
    (∀ order, order.Perm applied →
      c.pruneAll order = c.prune (greatestRetentions applied)) ∧
    (∀ t b s, (boundariesOf applied t).max? = some b → b ≤ s →
      (c.pruneAll applied).getAtOrBefore t s = c.getAtOrBefore t s) ∧
    (∀ t, boundariesOf applied t = [] →
      (c.pruneAll applied).versions t = c.versions t) ∧
    (∀ db : SchemaTables, db.Represents c →
      (db.deleteAllObsolete applied).Represents (c.prune (greatestRetentions applied))) := by
  refine ⟨fun order hperm => ?_, fun t b s hb hle => ?_, fun t hnone => ?_, fun db hdb => ?_⟩
  · rw [TableSchemaSnapshots.pruneAll_eq, greatestRetentions_perm hperm]
  · rw [TableSchemaSnapshots.pruneAll_eq]
    refine c.getAtOrBefore_prune _ t s fun b' hb' => ?_
    rw [get?_greatestRetentions, hb] at hb'
    cases hb'
    exact hle
  · rw [TableSchemaSnapshots.pruneAll_eq, TableSchemaSnapshots.versions_prune,
      get?_greatestRetentions, hnone]
    rfl
  · rw [← TableSchemaSnapshots.pruneAll_eq]
    exact hdb.deleteAllObsolete applied

/-- Three versions of a table, pruned with two boundaries in either order. -/
theorem prune_all_eq_prune_greatest_sample :
    let version (commitLsn : PgLsn) : TableSchema :=
      ⟨1, ⟨"public", "users"⟩, [⟨"id", .text, -1, 1, some 1, false, none⟩], ⟨commitLsn, 0⟩⟩
    let boundary (commitLsn : PgLsn) : OrderedMap TableId SnapshotId :=
      OrderedMap.empty.insert 1 ⟨commitLsn, 0⟩
    let index := TableSchemaSnapshots.replaceAll [version 10, version 20, version 30]
    index.pruneAll [boundary 25, boundary 15] =
        index.prune (greatestRetentions [boundary 15, boundary 25]) ∧
      ((index.pruneAll [boundary 15, boundary 25]).versions 1).keys = [⟨20, 0⟩, ⟨30, 0⟩] ∧
      (index.pruneAll [boundary 15, boundary 25]).getAtOrBefore 1 ⟨29, 0⟩ =
        index.getAtOrBefore 1 ⟨29, 0⟩ :=
  ⟨(prune_all_eq_prune_greatest _ _).1 _ (.swap _ _ _), by decide +kernel,
    (prune_all_eq_prune_greatest _ _).2.1 1 ⟨25, 0⟩ _ (by decide +kernel) (by decide +kernel)⟩

end Etl
