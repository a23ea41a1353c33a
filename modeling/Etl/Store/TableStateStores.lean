import Etl.Lib.HistoryRows
import Etl.Lib.OrderedMap
import Etl.Store.TableStateFormat

/-!
# The two stores of table states and checkpoints

The in-memory store keeps the states of a table in a stack, the one in the database as linked rows
with a cache in front. They give the same answers, except for what an error was raised from. Schema
versions and destination metadata have stores of their own.
-/

namespace Etl.Durable

/-! ## Operations -/

inductive TableStateOperation where
  | prepareForCopy (tableId : TableId)
  | resetForResync
  | delete (tableId : TableId)

inductive StoreOperation where
  | getTableState (tableId : TableId)
  | getTableStates
  | updateTableStates (updates : List (TableId × TableState))
  | rollbackTableState (tableId : TableId)
  | getReplicationCheckpoint (worker : WorkerType)
  | upsertReplicationCheckpoint (worker : WorkerType) (lsn : PgLsn)
  | deleteReplicationCheckpoint (worker : WorkerType)
  | applyTableStateOperation (operation : TableStateOperation)

def StoreOperation.isStorable : StoreOperation → Bool
  | .updateTableStates updates => updates.all fun update => update.2.isStorable
  | _ => true

inductive StoreAnswer where
  | done
  | state (state : Option TableState)
  | states (states : OrderedMap TableId TableState)
  | checkpoint (lsn : Option PgLsn)
  | count (tables : Nat)
deriving DecidableEq

namespace StoreAnswer

def withoutSourceErr : StoreAnswer → StoreAnswer
  | .state found => .state (found.map (·.withoutSourceErr))
  | .states found => .states (found.mapValues fun _ state => state.withoutSourceErr)
  | answer => answer

end StoreAnswer

def observe : Except EtlError StoreAnswer → Except ErrorKind StoreAnswer
  | .ok answer => .ok answer.withoutSourceErr
  | .error e => .error e.kind

/-! ## The store in memory -/

structure MemoryStore where
  tableStates : OrderedMap TableId TableState
  /-- The latest first. -/
  tableStateHistory : TableId → List TableState
  replicationCheckpoints : WorkerType → Option PgLsn

namespace MemoryStore

def new : MemoryStore := ⟨.empty, fun _ => [], fun _ => none⟩

variable (store : MemoryStore)

def updateTableState (tableId : TableId) (state : TableState) : MemoryStore :=
  { store with
    tableStates := store.tableStates.insert tableId state
    tableStateHistory :=
      match store.tableStates.get? tableId with
      | some current =>
        Function.update store.tableStateHistory tableId (current :: store.tableStateHistory tableId)
      | none => store.tableStateHistory }

def updateTableStates (updates : List (TableId × TableState)) : MemoryStore :=
  updates.foldl (fun store update => store.updateTableState update.1 update.2) store

def rollbackTableState (tableId : TableId) : Except EtlError TableState × MemoryStore :=
  match store.tableStateHistory tableId with
  | [] => (.error ⟨.stateRollbackError, "No previous state available to roll back to"⟩, store)
  | previous :: rest =>
    (.ok previous,
      { store with
        tableStates := store.tableStates.insert tableId previous
        tableStateHistory := Function.update store.tableStateHistory tableId rest })

def deleteReplicationCheckpoint (worker : WorkerType) : MemoryStore :=
  { store with
    replicationCheckpoints := Function.update store.replicationCheckpoints worker none }

def upsertReplicationCheckpoint (worker : WorkerType) (lsn : PgLsn) : PgLsn × MemoryStore :=
  let persisted := match store.replicationCheckpoints worker with
    | some persisted => if persisted < lsn then lsn else persisted
    | none => lsn
  (persisted,
    { store with
      replicationCheckpoints := Function.update store.replicationCheckpoints worker (some persisted) })

def applyTableStateOperation : TableStateOperation → Nat × MemoryStore
  | .prepareForCopy tableId => (0, store.deleteReplicationCheckpoint (.tableSync tableId))
  | .resetForResync =>
    let tableIds := store.tableStates.keys
    (tableIds.length,
      (store.updateTableStates (tableIds.map fun tableId => (tableId, .init))).deleteReplicationCheckpoint
        .apply)
  | .delete tableId =>
    (if (store.tableStates.get? tableId).isSome then 1 else 0,
      ({ store with
        tableStates := store.tableStates.erase tableId
        tableStateHistory := Function.update store.tableStateHistory tableId [] } :
          MemoryStore).deleteReplicationCheckpoint (.tableSync tableId))

def apply : StoreOperation → Except EtlError StoreAnswer × MemoryStore
  | .getTableState tableId => (.ok (.state (store.tableStates.get? tableId)), store)
  | .getTableStates => (.ok (.states store.tableStates), store)
  | .updateTableStates updates => (.ok .done, store.updateTableStates updates)
  | .rollbackTableState tableId =>
    let (result, store) := store.rollbackTableState tableId
    (result.map fun state => .state (some state), store)
  | .getReplicationCheckpoint worker => (.ok (.checkpoint (store.replicationCheckpoints worker)), store)
  | .upsertReplicationCheckpoint worker lsn =>
    let (persisted, store) := store.upsertReplicationCheckpoint worker lsn
    (.ok (.checkpoint (some persisted)), store)
  | .deleteReplicationCheckpoint worker => (.ok .done, store.deleteReplicationCheckpoint worker)
  | .applyTableStateOperation operation =>
    let (tables, store) := store.applyTableStateOperation operation
    (.ok (.count tables), store)

def run : MemoryStore → List StoreOperation → List (Except EtlError StoreAnswer)
  | _, [] => []
  | store, operation :: operations =>
    (store.apply operation).1 :: run (store.apply operation).2 operations

end MemoryStore

/-! ## The store in the database -/

def workerTypeName : WorkerType → String
  | .apply => "apply"
  | .tableSync _ => "table_sync"

def checkpointTableId : WorkerType → Option TableId
  | .apply => none
  | .tableSync tableId => some tableId

abbrev ProgressKey := Nat × String × Option TableId

structure PostgresStore where
  pipelineId : Nat
  tableStates : OrderedMap TableId TableState
  /-- `etl.replication_state`, by pipeline and table. -/
  replicationState : HistoryRows (Nat × TableId) (StoredTableStateType × Json)
  /-- `etl.replication_progress`, by its unique indexes. -/
  replicationProgress : ProgressKey → Option PgLsn

namespace PostgresStore

def new (pipelineId : Nat) : PostgresStore := ⟨pipelineId, .empty, .empty, fun _ => none⟩

def databaseError : EtlError := ⟨.sourceQueryFailed, "Database operation failed"⟩

variable (format : DateTimeFormat) (store : PostgresStore)

def updateTableStateRaw (rows : HistoryRows (Nat × TableId) (StoredTableStateType × Json))
    (tableId : TableId) (stored : StoredTableStateType × Json) :
    Except EtlError (HistoryRows (Nat × TableId) (StoredTableStateType × Json)) :=
  if stored.2.isStorable then .ok (rows.push (store.pipelineId, tableId) stored)
  else .error databaseError

def updateTableStatesRaw (rows : HistoryRows (Nat × TableId) (StoredTableStateType × Json)) :
    List (TableId × StoredTableStateType × Json) →
      Except EtlError (HistoryRows (Nat × TableId) (StoredTableStateType × Json))
  | [] => .ok rows
  | (tableId, stored) :: updates => do
    let rows ← store.updateTableStateRaw rows tableId stored
    updateTableStatesRaw rows updates

def setTableStates (states : OrderedMap TableId TableState) (updates : List (TableId × TableState)) :
    OrderedMap TableId TableState :=
  updates.foldl (fun states update => states.insert update.1 update.2) states

def toDbUpdates (updates : List (TableId × TableState)) :
    Except EtlError (List (TableId × StoredTableStateType × Json)) :=
  updates.mapM fun update => do return (update.1, ← update.2.toStorageFormat format)

def updateTableStates (updates : List (TableId × TableState)) : Except EtlError PostgresStore := do
  let dbUpdates ← toDbUpdates format updates
  let rows ← store.updateTableStatesRaw store.replicationState dbUpdates
  return { store with
    tableStates := setTableStates store.tableStates updates
    replicationState := rows }

def rollbackTableState (tableId : TableId) : Except EtlError (TableState × PostgresStore) :=
  match store.replicationState.pop (store.pipelineId, tableId) with
  | .error _ => .error databaseError
  | .ok none => .error ⟨.stateRollbackError, "Previous table state not found"⟩
  | .ok (some (restoredRow, rows)) => do
    let restored ← TableState.fromStateRow format restoredRow.value.2
    return (restored,
      { store with
        tableStates := store.tableStates.insert tableId restored
        replicationState := rows })

def progressKey (worker : WorkerType) : ProgressKey :=
  (store.pipelineId, workerTypeName worker, checkpointTableId worker)

def getReplicationCheckpoint (worker : WorkerType) : Option PgLsn :=
  store.replicationProgress (store.progressKey worker)

def upsertReplicationCheckpoint (worker : WorkerType) (lsn : PgLsn) : PgLsn × PostgresStore :=
  let persisted := match store.replicationProgress (store.progressKey worker) with
    | some existing => if existing < lsn then lsn else existing
    | none => lsn
  (persisted,
    { store with
      replicationProgress :=
        Function.update store.replicationProgress (store.progressKey worker) (some persisted) })

def deleteReplicationCheckpoint (worker : WorkerType) : PostgresStore :=
  { store with
    replicationProgress :=
      Function.update store.replicationProgress (store.progressKey worker) none }

def applyTableStateOperation : TableStateOperation → Except EtlError (Nat × PostgresStore)
  | .prepareForCopy tableId => .ok (0, store.deleteReplicationCheckpoint (.tableSync tableId))
  | .resetForResync => do
    let init ← TableState.init.toStorageFormat format
    let tableIds := store.tableStates.keys
    let rows ← store.updateTableStatesRaw store.replicationState
      (tableIds.map fun tableId => (tableId, init))
    let store := store.deleteReplicationCheckpoint .apply
    return (tableIds.length,
      { store with
        tableStates := setTableStates store.tableStates (tableIds.map fun tableId => (tableId, .init))
        replicationState := rows })
  | .delete tableId =>
    match store.replicationState.drop (store.pipelineId, tableId) with
    | .error _ => .error databaseError
    | .ok rows =>
      let affected := if (store.tableStates.get? tableId).isSome then 1 else 0
      let store := store.deleteReplicationCheckpoint (.tableSync tableId)
      .ok (affected,
        { store with
          tableStates := store.tableStates.erase tableId
          replicationState := rows })

def orKeep {α : Type} (answer : α → StoreAnswer) :
    Except EtlError (α × PostgresStore) → Except EtlError StoreAnswer × PostgresStore
  | .ok (a, store) => (.ok (answer a), store)
  | .error e => (.error e, store)

def apply : StoreOperation → Except EtlError StoreAnswer × PostgresStore
  | .getTableState tableId => (.ok (.state (store.tableStates.get? tableId)), store)
  | .getTableStates => (.ok (.states store.tableStates), store)
  | .updateTableStates updates =>
    store.orKeep (fun _ => .done) ((store.updateTableStates format updates).map fun store => ((), store))
  | .rollbackTableState tableId =>
    store.orKeep (fun state => .state (some state)) (store.rollbackTableState format tableId)
  | .getReplicationCheckpoint worker =>
    (.ok (.checkpoint (store.getReplicationCheckpoint worker)), store)
  | .upsertReplicationCheckpoint worker lsn =>
    let (persisted, store) := store.upsertReplicationCheckpoint worker lsn
    (.ok (.checkpoint (some persisted)), store)
  | .deleteReplicationCheckpoint worker => (.ok .done, store.deleteReplicationCheckpoint worker)
  | .applyTableStateOperation operation =>
    store.orKeep .count (store.applyTableStateOperation format operation)

def run : PostgresStore → List StoreOperation → List (Except EtlError StoreAnswer)
  | _, [] => []
  | store, operation :: operations =>
    (store.apply format operation).1 :: run (store.apply format operation).2 operations

end PostgresStore

/-! ## Agreement -/

section Agreement

variable {format : DateTimeFormat}

def storedForm (format : DateTimeFormat) (state : TableState) : StoredTableStateType × Json :=
  match toStorageType state.asType with
  | .ok stateType => (stateType, state.toValue format)
  | .error _ => (.init, state.toValue format)

lemma toStorageFormat_eq {state : TableState} (h : state.isStorable = true) :
    state.toStorageFormat format = .ok (storedForm format state) := by
  cases state <;> first | rfl | cases h

lemma isStorable_storedForm {state : TableState} (h : state.isStorable = true) :
    (storedForm format state).2.isStorable = true := by
  have hvalue := TableState.isStorable_toValue format h
  unfold storedForm
  split <;> exact hvalue

lemma fromStateRow_storedForm (state : TableState) :
    TableState.fromStateRow format (storedForm format state).2 = .ok state.withoutSourceErr := by
  have hvalue : (storedForm format state).2 = state.toValue format := by
    unfold storedForm
    split <;> rfl
  rw [hvalue, TableState.fromStateRow, TableState.ofValue?_toValue]

namespace MemoryStore

variable {m : MemoryStore}

def states (m : MemoryStore) (tableId : TableId) : List TableState :=
  (m.tableStates.get? tableId).toList ++ m.tableStateHistory tableId

structure IsValid (m : MemoryStore) : Prop where
  known : ∀ tableId, m.tableStates.get? tableId = none → m.tableStateHistory tableId = []
  storable : ∀ tableId, ∀ state ∈ m.states tableId, state.isStorable = true

lemma states_updateTableState (h : m.IsValid) (tableId : TableId) (state : TableState) :
    (m.updateTableState tableId state).states =
      Function.update m.states tableId (state :: m.states tableId) := by
  funext t
  unfold states updateTableState
  by_cases ht : t = tableId
  · subst ht
    cases hstate : m.tableStates.get? t with
    | none => simp [h.known t hstate]
    | some current => simp
  · cases m.tableStates.get? tableId <;> simp [OrderedMap.get?_insert, ht]

lemma IsValid.updateTableState (h : m.IsValid) (tableId : TableId) {state : TableState}
    (hstate : state.isStorable = true) : (m.updateTableState tableId state).IsValid where
  known t ht := by
    by_cases hk : t = tableId
    · simp [MemoryStore.updateTableState, hk] at ht
    · have hnone : m.tableStates.get? t = none := by
        simpa [MemoryStore.updateTableState, OrderedMap.get?_insert, hk] using ht
      have hhistory := h.known t hnone
      unfold MemoryStore.updateTableState
      cases m.tableStates.get? tableId <;> simpa [hk] using hhistory
  storable t s hs := by
    rw [states_updateTableState h] at hs
    by_cases hk : t = tableId
    · subst hk
      rw [Function.update_self, List.mem_cons] at hs
      exact hs.elim (fun heq => heq ▸ hstate) (h.storable t s)
    · rw [Function.update_of_ne hk] at hs
      exact h.storable t s hs

lemma IsValid.updateTableStates (h : m.IsValid) {updates : List (TableId × TableState)}
    (hupdates : ∀ update ∈ updates, update.2.isStorable = true) :
    (m.updateTableStates updates).IsValid := by
  induction updates generalizing m with
  | nil => exact h
  | cons update updates ih =>
    exact ih (h.updateTableState update.1 (hupdates update (List.mem_cons_self ..)))
      fun u hu => hupdates u (List.mem_cons_of_mem _ hu)

lemma tableStates_updateTableStates (updates : List (TableId × TableState)) :
    (m.updateTableStates updates).tableStates =
      PostgresStore.setTableStates m.tableStates updates := by
  induction updates generalizing m with
  | nil => rfl
  | cons update updates ih => exact ih

lemma replicationCheckpoints_updateTableStates (updates : List (TableId × TableState)) :
    (m.updateTableStates updates).replicationCheckpoints = m.replicationCheckpoints := by
  induction updates generalizing m with
  | nil => rfl
  | cons update updates ih => exact ih

end MemoryStore

def storedStates (format : DateTimeFormat) (pipelineId : Nat) (states : TableId → List TableState)
    (key : Nat × TableId) : List (StoredTableStateType × Json) :=
  if key.1 = pipelineId then (states key.2).map (storedForm format) else []

lemma storedStates_update {pipelineId : Nat} {states : TableId → List TableState}
    (tableId : TableId) (history : List TableState) :
    storedStates format pipelineId (Function.update states tableId history) =
      Function.update (storedStates format pipelineId states) (pipelineId, tableId)
        (history.map (storedForm format)) := by
  funext ⟨id, t⟩
  by_cases ht : t = tableId
  · subst ht
    by_cases hid : id = pipelineId
    · subst hid
      simp [storedStates]
    · rw [Function.update_of_ne (by simp [hid])]
      simp [storedStates, hid]
  · rw [Function.update_of_ne (by simp [ht])]
    simp [storedStates, ht]

namespace PostgresStore

variable {p : PostgresStore} {m : MemoryStore}

lemma updateTableStatesRaw_eq_ok {updates : List (TableId × TableState)}
    (hupdates : ∀ update ∈ updates, update.2.isStorable = true)
    {rows : HistoryRows (Nat × TableId) (StoredTableStateType × Json)} (hm : m.IsValid)
    (hrows : rows.Represents (storedStates format p.pipelineId m.states)) :
    ∃ rows', p.updateTableStatesRaw rows
        (updates.map fun update => (update.1, storedForm format update.2)) = .ok rows' ∧
      rows'.Represents (storedStates format p.pipelineId (m.updateTableStates updates).states) := by
  induction updates generalizing m rows with
  | nil => exact ⟨rows, rfl, hrows⟩
  | cons update updates ih =>
    have hstate := hupdates update (List.mem_cons_self ..)
    have hpush := hrows.push (p.pipelineId, update.1) (storedForm format update.2)
    have hstack : Function.update (storedStates format p.pipelineId m.states)
        (p.pipelineId, update.1) (storedForm format update.2 ::
          storedStates format p.pipelineId m.states (p.pipelineId, update.1)) =
        storedStates format p.pipelineId (m.updateTableState update.1 update.2).states := by
      rw [MemoryStore.states_updateTableState hm, storedStates_update]
      simp [storedStates]
    rw [hstack] at hpush
    obtain ⟨rows', hok, hrows'⟩ := ih (fun u hu => hupdates u (List.mem_cons_of_mem _ hu))
      (hm.updateTableState update.1 hstate) hpush
    refine ⟨rows', ?_, hrows'⟩
    simp only [List.map_cons, updateTableStatesRaw, updateTableStateRaw,
      isStorable_storedForm hstate, if_true, bind, Except.bind]
    exact hok

lemma toDbUpdates_eq_ok {updates : List (TableId × TableState)}
    (hupdates : ∀ update ∈ updates, update.2.isStorable = true) :
    toDbUpdates format updates =
      .ok (updates.map fun update => (update.1, storedForm format update.2)) := by
  induction updates with
  | nil => rfl
  | cons update updates ih =>
    have hrest := ih fun u hu => hupdates u (List.mem_cons_of_mem _ hu)
    unfold toDbUpdates at hrest ⊢
    rw [List.mapM_cons, hrest, toStorageFormat_eq (hupdates update (List.mem_cons_self ..))]
    rfl

lemma setTableStates_congr {states states' : OrderedMap TableId TableState}
    (h : states.mapValues (fun _ state => state.withoutSourceErr) =
      states'.mapValues fun _ state => state.withoutSourceErr)
    (updates : List (TableId × TableState)) :
    (setTableStates states updates).mapValues (fun _ state => state.withoutSourceErr) =
      (setTableStates states' updates).mapValues fun _ state => state.withoutSourceErr := by
  induction updates generalizing states states' with
  | nil => exact h
  | cons update updates ih =>
    refine ih ?_
    rw [OrderedMap.mapValues_insert, OrderedMap.mapValues_insert, h]

lemma progressKey_injective : Function.Injective p.progressKey := by
  intro worker worker' h
  cases worker <;> cases worker' <;> simp_all [progressKey, workerTypeName, checkpointTableId]

end PostgresStore

/-- The rows and the cache have the states in memory, except for what an error was raised from. -/
structure Agrees (format : DateTimeFormat) (m : MemoryStore) (p : PostgresStore) : Prop where
  valid : m.IsValid
  rows : p.replicationState.Represents (storedStates format p.pipelineId m.states)
  cache : p.tableStates.mapValues (fun _ state => state.withoutSourceErr) =
    m.tableStates.mapValues fun _ state => state.withoutSourceErr
  checkpoints : ∀ worker,
    p.replicationProgress (p.progressKey worker) = m.replicationCheckpoints worker

namespace Agrees

variable {m : MemoryStore} {p : PostgresStore}

lemma new (format : DateTimeFormat) (pipelineId : Nat) : Agrees format .new (.new pipelineId) where
  valid := ⟨fun _ _ => rfl, nofun⟩
  rows := by
    have hempty : storedStates format pipelineId MemoryStore.new.states = fun _ => [] := by
      funext key
      simp [storedStates, MemoryStore.states, MemoryStore.new]
    change HistoryRows.empty.Represents (storedStates format pipelineId MemoryStore.new.states)
    rw [hempty]
    exact HistoryRows.represents_empty
  cache := rfl
  checkpoints _ := rfl

variable (h : Agrees format m p)

include h

lemma get?_eq (tableId : TableId) :
    (p.tableStates.get? tableId).map (·.withoutSourceErr) =
      (m.tableStates.get? tableId).map (·.withoutSourceErr) := by
  have hget := congrArg (·.get? tableId) h.cache
  simpa [OrderedMap.get?_mapValues] using hget

lemma isSome_get? (tableId : TableId) :
    (p.tableStates.get? tableId).isSome = (m.tableStates.get? tableId).isSome := by
  simpa using congrArg Option.isSome (h.get?_eq tableId)

lemma keys_eq : p.tableStates.keys = m.tableStates.keys := by
  simpa using congrArg OrderedMap.keys h.cache

lemma deleteReplicationCheckpoint (worker : WorkerType) :
    Agrees format (m.deleteReplicationCheckpoint worker) (p.deleteReplicationCheckpoint worker) where
  valid := ⟨h.valid.known, h.valid.storable⟩
  rows := h.rows
  cache := h.cache
  checkpoints worker' := by
    change Function.update p.replicationProgress (p.progressKey worker) none (p.progressKey worker') =
      Function.update m.replicationCheckpoints worker none worker'
    by_cases hw : worker' = worker
    · subst hw
      simp
    · rw [Function.update_of_ne (PostgresStore.progressKey_injective.ne hw), Function.update_of_ne hw]
      exact h.checkpoints worker'

lemma upsertReplicationCheckpoint (worker : WorkerType) (lsn : PgLsn) :
    (p.upsertReplicationCheckpoint worker lsn).1 = (m.upsertReplicationCheckpoint worker lsn).1 ∧
      Agrees format (m.upsertReplicationCheckpoint worker lsn).2
        (p.upsertReplicationCheckpoint worker lsn).2 := by
  have hpersisted : (p.upsertReplicationCheckpoint worker lsn).1 =
      (m.upsertReplicationCheckpoint worker lsn).1 := by
    simp only [PostgresStore.upsertReplicationCheckpoint, MemoryStore.upsertReplicationCheckpoint,
      h.checkpoints worker]
  refine ⟨hpersisted, ⟨h.valid.known, h.valid.storable⟩, h.rows, h.cache, fun worker' => ?_⟩
  change Function.update p.replicationProgress (p.progressKey worker)
      (some (p.upsertReplicationCheckpoint worker lsn).1) (p.progressKey worker') =
    Function.update m.replicationCheckpoints worker
      (some (m.upsertReplicationCheckpoint worker lsn).1) worker'
  by_cases hw : worker' = worker
  · subst hw
    simp [hpersisted]
  · rw [Function.update_of_ne (PostgresStore.progressKey_injective.ne hw), Function.update_of_ne hw]
    exact h.checkpoints worker'

lemma update {updates : List (TableId × TableState)}
    (hupdates : ∀ update ∈ updates, update.2.isStorable = true) :
    ∃ rows, p.updateTableStatesRaw p.replicationState
        (updates.map fun update => (update.1, storedForm format update.2)) = .ok rows ∧
      Agrees format (m.updateTableStates updates)
        { p with
          tableStates := PostgresStore.setTableStates p.tableStates updates
          replicationState := rows } := by
  obtain ⟨rows, hok, hrows⟩ := PostgresStore.updateTableStatesRaw_eq_ok hupdates h.valid h.rows
  refine ⟨rows, hok, h.valid.updateTableStates hupdates, hrows, ?_, fun worker => ?_⟩
  · rw [MemoryStore.tableStates_updateTableStates]
    exact PostgresStore.setTableStates_congr h.cache updates
  · rw [MemoryStore.replicationCheckpoints_updateTableStates]
    exact h.checkpoints worker

lemma updateTableStates {updates : List (TableId × TableState)}
    (hupdates : ∀ update ∈ updates, update.2.isStorable = true) :
    ∃ p', p.updateTableStates format updates = .ok p' ∧
      Agrees format (m.updateTableStates updates) p' := by
  obtain ⟨rows, hok, hagrees⟩ := h.update hupdates
  refine ⟨_, ?_, hagrees⟩
  simp [PostgresStore.updateTableStates, PostgresStore.toDbUpdates_eq_ok hupdates, hok, bind,
    Except.bind, pure, Except.pure]

lemma rollbackTableState (tableId : TableId) :
    (∃ e, (m.rollbackTableState tableId).1 = .error e ∧ (m.rollbackTableState tableId).2 = m ∧
      ∃ e', p.rollbackTableState format tableId = .error e' ∧ e'.kind = e.kind) ∨
    ∃ previous p', (m.rollbackTableState tableId).1 = .ok previous ∧
      p.rollbackTableState format tableId = .ok (previous.withoutSourceErr, p') ∧
      Agrees format (m.rollbackTableState tableId).2 p' := by
  have hstack : storedStates format p.pipelineId m.states (p.pipelineId, tableId) =
      (m.states tableId).map (storedForm format) := by simp [storedStates]
  cases hhistory : m.tableStateHistory tableId with
  | nil =>
    left
    have hpop := h.rows.pop_eq_none (k := (p.pipelineId, tableId)) (by
      rw [hstack, MemoryStore.states, hhistory]
      cases m.tableStates.get? tableId <;> rfl)
    refine ⟨⟨.stateRollbackError, "No previous state available to roll back to"⟩, ?_, ?_,
      ⟨.stateRollbackError, "Previous table state not found"⟩, ?_, rfl⟩
    · rw [MemoryStore.rollbackTableState, hhistory]
    · rw [MemoryStore.rollbackTableState, hhistory]
    · rw [PostgresStore.rollbackTableState, hpop]
  | cons previous rest =>
    right
    obtain ⟨current, hcurrent⟩ : ∃ current, m.tableStates.get? tableId = some current := by
      rw [← Option.ne_none_iff_exists']
      intro hnone
      rw [h.valid.known tableId hnone] at hhistory
      cases hhistory
    have hstates : m.states tableId = current :: previous :: rest := by
      simp [MemoryStore.states, hcurrent, hhistory]
    rw [hstates] at hstack
    obtain ⟨restored, rows, hpop, hvalue, hrows⟩ := h.rows.pop hstack
    have hmemory : m.rollbackTableState tableId = (.ok previous,
        { m with
          tableStates := m.tableStates.insert tableId previous
          tableStateHistory := Function.update m.tableStateHistory tableId rest }) := by
      rw [MemoryStore.rollbackTableState, hhistory]
    have hafter : ({ m with
        tableStates := m.tableStates.insert tableId previous
        tableStateHistory := Function.update m.tableStateHistory tableId rest } :
          MemoryStore).states = Function.update m.states tableId (previous :: rest) := by
      funext t
      by_cases ht : t = tableId
      · subst ht
        simp [MemoryStore.states]
      · simp [MemoryStore.states, OrderedMap.get?_insert, ht]
    rw [hmemory]
    refine ⟨previous, { p with
      tableStates := p.tableStates.insert tableId previous.withoutSourceErr
      replicationState := rows }, rfl, ?_, ⟨fun t ht => ?_, fun t state hs => ?_⟩, ?_, ?_,
      h.checkpoints⟩
    · simp [PostgresStore.rollbackTableState, hpop, hvalue, fromStateRow_storedForm, bind, Except.bind,
        pure, Except.pure]
    · have hne : t ≠ tableId := by
        rintro rfl
        simp at ht
      have hnone : m.tableStates.get? t = none := by
        simpa [OrderedMap.get?_insert, hne] using ht
      simpa [hne] using h.valid.known t hnone
    · rw [hafter] at hs
      by_cases ht : t = tableId
      · subst ht
        rw [Function.update_self] at hs
        exact h.valid.storable t state (hstates ▸ List.mem_cons_of_mem _ hs)
      · rw [Function.update_of_ne ht] at hs
        exact h.valid.storable t state hs
    · rw [hafter, storedStates_update]
      exact hrows
    · change (p.tableStates.insert tableId previous.withoutSourceErr).mapValues _ = _
      rw [OrderedMap.mapValues_insert, OrderedMap.mapValues_insert, h.cache,
        TableState.withoutSourceErr_withoutSourceErr]

lemma delete (tableId : TableId) :
    ∃ rows, p.replicationState.drop (p.pipelineId, tableId) = .ok rows ∧
      Agrees format
        { m with
          tableStates := m.tableStates.erase tableId
          tableStateHistory := Function.update m.tableStateHistory tableId [] }
        { p with tableStates := p.tableStates.erase tableId, replicationState := rows } := by
  obtain ⟨rows, hdrop, hrows⟩ := h.rows.drop (p.pipelineId, tableId)
  have hafter : ({ m with
      tableStates := m.tableStates.erase tableId
      tableStateHistory := Function.update m.tableStateHistory tableId [] } :
        MemoryStore).states = Function.update m.states tableId [] := by
    funext t
    by_cases ht : t = tableId
    · subst ht
      simp [MemoryStore.states, OrderedMap.get?_erase]
    · simp [MemoryStore.states, OrderedMap.get?_erase, ht]
  refine ⟨rows, hdrop, ⟨fun t ht => ?_, fun t state hs => ?_⟩, ?_, ?_, h.checkpoints⟩
  · by_cases hk : t = tableId
    · subst hk
      simp
    · have hnone : m.tableStates.get? t = none := by
        simpa [OrderedMap.get?_erase, hk] using ht
      simpa [hk] using h.valid.known t hnone
  · rw [hafter] at hs
    by_cases ht : t = tableId
    · subst ht
      simp at hs
    · rw [Function.update_of_ne ht] at hs
      exact h.valid.storable t state hs
  · rw [hafter, storedStates_update]
    exact hrows
  · change (p.tableStates.erase tableId).mapValues _ = _
    rw [OrderedMap.mapValues_erase, OrderedMap.mapValues_erase, h.cache]

lemma applyTableStateOperation (operation : TableStateOperation) :
    ∃ p', p.applyTableStateOperation format operation =
        .ok ((m.applyTableStateOperation operation).1, p') ∧
      Agrees format (m.applyTableStateOperation operation).2 p' := by
  cases operation with
  | prepareForCopy tableId =>
    exact ⟨_, rfl, h.deleteReplicationCheckpoint (.tableSync tableId)⟩
  | resetForResync =>
    have hinit : ∀ update ∈ m.tableStates.keys.map fun tableId => (tableId, TableState.init),
        update.2.isStorable = true := by
      simp [TableState.isStorable]
    obtain ⟨rows, hok, hagrees⟩ := h.update hinit
    refine ⟨_, ?_, hagrees.deleteReplicationCheckpoint .apply⟩
    rw [List.map_map, Function.comp_def] at hok
    have hform : TableState.init.toStorageFormat format = .ok (storedForm format .init) :=
      toStorageFormat_eq rfl
    simp only [PostgresStore.applyTableStateOperation, hform, h.keys_eq, hok, bind, Except.bind]
    rfl
  | delete tableId =>
    obtain ⟨rows, hdrop, hagrees⟩ := h.delete tableId
    refine ⟨_, ?_, hagrees.deleteReplicationCheckpoint (.tableSync tableId)⟩
    simp only [PostgresStore.applyTableStateOperation, hdrop, h.isSome_get? tableId]
    rfl

lemma apply {operation : StoreOperation} (hstorable : operation.isStorable = true) :
    observe (p.apply format operation).1 = observe (m.apply operation).1 ∧
      Agrees format (m.apply operation).2 (p.apply format operation).2 := by
  cases operation with
  | getTableState tableId =>
    refine ⟨?_, h⟩
    simp only [PostgresStore.apply, MemoryStore.apply, observe, StoreAnswer.withoutSourceErr,
      h.get?_eq tableId]
  | getTableStates =>
    refine ⟨?_, h⟩
    simp only [PostgresStore.apply, MemoryStore.apply, observe, StoreAnswer.withoutSourceErr, h.cache]
  | updateTableStates updates =>
    have hupdates : ∀ update ∈ updates, update.2.isStorable = true := by
      simpa [StoreOperation.isStorable] using hstorable
    obtain ⟨p', hok, hagrees⟩ := h.updateTableStates hupdates
    simp only [PostgresStore.apply, hok]
    exact ⟨rfl, hagrees⟩
  | rollbackTableState tableId =>
    simp only [PostgresStore.apply, MemoryStore.apply]
    rcases h.rollbackTableState tableId with ⟨e, he, hm, e', he', hkind⟩ | ⟨previous, p', hok, hok', hagrees⟩
    · rw [he, he', hm]
      exact ⟨congrArg Except.error hkind, h⟩
    · rw [hok, hok']
      refine ⟨?_, hagrees⟩
      simp [PostgresStore.orKeep, observe, Except.map, StoreAnswer.withoutSourceErr]
  | getReplicationCheckpoint worker =>
    refine ⟨?_, h⟩
    simp only [PostgresStore.apply, MemoryStore.apply, PostgresStore.getReplicationCheckpoint,
      h.checkpoints worker]
  | upsertReplicationCheckpoint worker lsn =>
    obtain ⟨hlsn, hagrees⟩ := h.upsertReplicationCheckpoint worker lsn
    refine ⟨?_, hagrees⟩
    simp only [PostgresStore.apply, MemoryStore.apply, hlsn]
  | deleteReplicationCheckpoint worker => exact ⟨rfl, h.deleteReplicationCheckpoint worker⟩
  | applyTableStateOperation operation =>
    obtain ⟨p', hok, hagrees⟩ := h.applyTableStateOperation operation
    simp only [PostgresStore.apply, hok]
    exact ⟨rfl, hagrees⟩

lemma run {operations : List StoreOperation}
    (hstorable : ∀ operation ∈ operations, operation.isStorable = true) :
    (p.run format operations).map observe = (m.run operations).map observe := by
  induction operations generalizing m p with
  | nil => rfl
  | cons operation operations ih =>
    obtain ⟨hresult, hagrees⟩ := h.apply (hstorable operation (List.mem_cons_self ..))
    have hrest := ih hagrees fun o ho => hstorable o (List.mem_cons_of_mem _ ho)
    simp only [PostgresStore.run, MemoryStore.run, List.map_cons, hresult, hrest]

end Agrees

end Agreement

/-- The stores give the same results to every sequence of operations, except for what an error was
raised from. -/
theorem postgresStore_run_eq (format : DateTimeFormat) (pipelineId : Nat)
    (operations : List StoreOperation)
    (hstorable : ∀ operation ∈ operations, operation.isStorable = true) :
    ((PostgresStore.new pipelineId).run format operations).map observe =
      (MemoryStore.new.run operations).map observe :=
  (Agrees.new format pipelineId).run hstorable

def DateTimeFormat.decimal : DateTimeFormat where
  toText time := String.ofList (Text.render 10 time.nanoseconds)
  ofText? text := (Text.parse? 10 text.toList).map DateTime.mk
  ofText?_toText time := by simp [Text.parse?_render]
  isText_toText time := by
    have hzero : Text.digitVal? 10 (Char.ofNat 0) = none := by decide
    simp [Json.isText, Text.notMem_render (by decide) (by decide) hzero]

def StoreOperation.failedThenReset : List StoreOperation :=
  [.updateTableStates [(1, .ready)],
    .updateTableStates [(1, .errored "connection lost" none (.timedRetry ⟨5⟩)
      ⟨.sourceConnectionFailed, "PostgreSQL connection failed"⟩)],
    .upsertReplicationCheckpoint .apply 40,
    .applyTableStateOperation .resetForResync,
    .getReplicationCheckpoint .apply,
    .rollbackTableState 1]

theorem postgresStore_run_eq_failedThenReset :
    ((PostgresStore.new 7).run .decimal StoreOperation.failedThenReset).map observe =
        (MemoryStore.new.run StoreOperation.failedThenReset).map observe ∧
      (MemoryStore.new.run StoreOperation.failedThenReset).map observe =
        [.ok .done, .ok .done, .ok (.checkpoint (some 40)), .ok (.count 1), .ok (.checkpoint none),
          .ok (.state (some (.errored "connection lost" none (.timedRetry ⟨5⟩) defaultSourceErr)))] :=
  ⟨postgresStore_run_eq .decimal 7 _ (by decide), by decide +kernel⟩

/-- What an error was raised from tells the stores apart. -/
theorem postgresStore_run_ne_failedThenReset :
    (MemoryStore.new.run StoreOperation.failedThenReset).getLast? =
        some (.ok (.state (some (.errored "connection lost" none (.timedRetry ⟨5⟩)
          ⟨.sourceConnectionFailed, "PostgreSQL connection failed"⟩)))) ∧
      ((PostgresStore.new 7).run .decimal StoreOperation.failedThenReset).getLast? =
        some (.ok (.state (some (.errored "connection lost" none (.timedRetry ⟨5⟩)
          ⟨.unknown, "Table replication error restored from state store"⟩)))) := by
  decide +kernel

end Etl.Durable
