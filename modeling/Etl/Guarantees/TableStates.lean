import Etl.Runtime.System

/-!
# The state of a table, in the store and in memory

The worker, the store and the apply worker may know different states of a table. They agree as far
as its handover is concerned.
-/

namespace Etl

open World

/-! ## States -/

namespace TableState

def isCopyable : TableState → Bool
  | .init | .dataSync | .finishedCopy => true
  | _ => false

def isPending : TableState → Bool
  | .syncWait _ | .catchup _ => true
  | state => state.isCopyable

def isHanded : TableState → Bool
  | .syncDone _ _ | .ready | .errored _ _ => true
  | _ => false

lemma isCopyable_of_shouldStore {state : TableState} (h : state.isPending = true)
    (hstore : state.asType.shouldStore = true) : state.isCopyable = true := by
  cases state <;> simp_all [isPending, isCopyable, asType, TableStateType.shouldStore]

lemma not_isCopyable_of_isHanded {state : TableState} (h : state.isHanded = true) :
    state.isCopyable = false := by
  cases state <;> first | rfl | cases h

end TableState

namespace Store

variable {store store' : Store} {tableId t : TableId} {state : TableState}

lemma tableStateHistory_updateTableState :
    (store.updateTableState tableId state).tableStateHistory t =
      if t = tableId then (store.getTableState t).toList ++ store.tableStateHistory t
      else store.tableStateHistory t := by
  unfold updateTableState getTableState
  by_cases h : t = tableId
  · subst h
    cases hstate : store.tableStates.get? t <;> simp
  · cases store.tableStates.get? tableId <;> simp [h]

lemma getTableState_resetForResync :
    store.resetForResync.getTableState t = (store.getTableState t).map fun _ => .init := by
  simp [getTableState, resetForResync, OrderedMap.get?_mapValues]

lemma tableStateHistory_resetForResync :
    store.resetForResync.tableStateHistory t =
      (store.getTableState t).toList ++ store.tableStateHistory t := by
  simp only [resetForResync, getTableState]
  cases store.tableStates.get? t <;> rfl

lemma rollbackTableState_eq_ok {previous : TableState}
    (h : store.rollbackTableState tableId = .ok (previous, store')) :
    ∃ rest, store.tableStateHistory tableId = previous :: rest ∧
      (∀ t, store'.getTableState t = if t = tableId then some previous else store.getTableState t) ∧
      ∀ t, store'.tableStateHistory t = if t = tableId then rest else store.tableStateHistory t := by
  unfold rollbackTableState at h
  split at h
  · cases h
  · rename_i previous' rest hhistory
    cases h
    refine ⟨rest, hhistory, fun t => ?_, fun t => ?_⟩
    · simp [getTableState, OrderedMap.get?_insert]
    · by_cases ht : t = tableId
      · subst ht
        simp
      · simp [ht]

end Store

namespace World

def Vouches (w : World) (t : TableId) : TableState → Prop
  | .syncDone h _ => w.handover t = some h
  | .ready => w.promoted t = true
  | _ => True

/-- The same for one table, except that its worker may have ended. -/
structure SameTable (t : TableId) (w w' : World) : Prop where
  pool : w'.poolState t = w.poolState t
  active : w'.isActive t = true → w.isActive t = true
  stored : w'.store.getTableState t = w.store.getTableState t
  history : w'.store.tableStateHistory t = w.store.tableStateHistory t
  handover : w'.handover t = w.handover t
  promoted : w'.promoted t = w.promoted t

variable {w w' : World} {t : TableId} {state : TableState}

lemma SameTable.vouches (h : SameTable t w w') : w'.Vouches t state ↔ w.Vouches t state := by
  cases state <;> simp [Vouches, h.handover, h.promoted]

lemma SameTable.of_pool (hpool : w'.pool t = w.pool t)
    (hstored : w'.store.getTableState t = w.store.getTableState t)
    (hhistory : w'.store.tableStateHistory t = w.store.tableStateHistory t)
    (hhandover : w'.handover t = w.handover t) (hpromoted : w'.promoted t = w.promoted t) :
    SameTable t w w' :=
  ⟨by simp [poolState, hpool], by simp [isActive, hpool], hstored, hhistory, hhandover, hpromoted⟩

lemma sameTable_setAndStore {tableId : TableId} (h : t ≠ tableId) :
    SameTable t w (w.setAndStore tableId state) := by
  refine .of_pool (by simp [setAndStore, setPoolState, h]) ?_ ?_ rfl rfl
  · simp only [setAndStore]
    split <;> simp [h]
  · simp only [setAndStore]
    split <;> simp [h, Store.tableStateHistory_updateTableState]

lemma sameTable_finishWorker {tableId : TableId} : SameTable t w (w.finishWorker tableId) := by
  by_cases h : t = tableId
  · subst h
    refine ⟨?_, ?_, rfl, rfl, rfl, rfl⟩ <;> cases hentry : w.pool t <;>
      simp [finishWorker, poolState, isActive, hentry]
  · exact .of_pool (by simp [finishWorker, h]) rfl rfl rfl rfl

end World

lemma WorkerStep.sameTable {wal : Option Wal} {t k : TableId} {l l' : ApplyLoop} {w w' : World}
    (hstep : WorkerStep wal l w l' w') (hk : t ≠ k) (hworker : l.workerType = .tableSync k) :
    SameTable t w w' := by
  have hnot := WorkerType.ne_apply hworker
  cases hstep
  case loop hstep =>
    cases hstep
    case syncDone tableId lsn schema hworker' _ _ _ _ _ _ _ _ =>
      cases hworker.symm.trans hworker'
      have hsame : SameTable t w (w.setAndStore k (.ofSyncDone lsn schema)) :=
        sameTable_setAndStore hk
      exact ⟨hsame.pool, hsame.active, hsame.stored, hsame.history,
        by simp [recordHandover, hk, setAndStore, setPoolState], rfl⟩
    all_goals first
      | exact absurd ‹l.workerType = .apply› hnot
      | exact .of_pool rfl rfl rfl rfl rfl
  all_goals try exact absurd ‹l.workerType = .apply› hnot
  case beginCopy tableId hworker' _ _ =>
    cases hworker.symm.trans hworker'
    exact sameTable_setAndStore hk
  case finishCopy tableId hworker' _ _ _ =>
    cases hworker.symm.trans hworker'
    exact sameTable_setAndStore hk
  case syncWait tableId hworker' _ _ =>
    cases hworker.symm.trans hworker'
    exact sameTable_setAndStore hk
  case storeError tableId e policy hworker' _ _ =>
    cases hworker.symm.trans hworker'
    exact sameTable_setAndStore hk
  case createSyncSlot tableId point hworker' _ _ _ =>
    cases hworker.symm.trans hworker'
    exact .of_pool rfl rfl rfl (by simp [World.recordCopy, World.createSlot, hk])
      (by simp [World.recordCopy, World.createSlot, hk])
  case rollback tableId previous store hworker' _ _ hrolled =>
    cases hworker.symm.trans hworker'
    obtain ⟨rest, -, hstored, hhistory⟩ := Store.rollbackTableState_eq_ok hrolled
    exact .of_pool (by simp [World.rollback, setPoolState, hk])
      (by simp [World.rollback, hstored, hk]) (by simp [World.rollback, hhistory, hk]) rfl rfl
  case countAttempts tableId attempts hworker' =>
    exact ⟨poolState_setRetryAttempts, by simp [isActive_setRetryAttempts], rfl, rfl, rfl, rfl⟩
  case finish tableId hworker' hlive => exact sameTable_finishWorker
  all_goals exact .of_pool rfl rfl rfl rfl rfl

/-! ## Agreement -/

def ApplyLoop.Unhanded (l : ApplyLoop) : Prop :=
  l.phase = .slotted ∨ l.phase = .copied ∨ l.phase = .waiting ∨ l.live = true ∧ l.done = false

structure Handing (t : TableId) (la lt : ApplyLoop) (w : World) : Prop where
  /-- The store knows a table whose worker runs. -/
  known : w.isActive t = true → (w.store.getTableState t).isSome
  durable : ∀ stored, w.store.getTableState t = some stored → stored.asType.shouldStore = true
  /-- A table not handed over is copied again after a restart. -/
  copyable : w.isActive t = true → ∀ state, w.poolState t = some state → state.isPending = true →
    ∀ stored, w.store.getTableState t = some stored → stored.isCopyable = true
  /-- Between copy and handover the history has no handover. -/
  unhanded : lt.Unhanded → w.handover t = none
  promoted : w.promoted t = true → (w.handover t).isSome
  pool : ∀ state, w.poolState t = some state → w.Vouches t state
  store : ∀ state, w.store.getTableState t = some state → w.Vouches t state
  /-- What the apply worker remembers of a table that was handed over. -/
  listed : la.live = true → ∀ lsn payload, (t, .syncDone lsn payload) ∈ la.listed →
    w.handover t = some lsn ∧ ∃ stored, w.store.getTableState t = some stored ∧ stored.isHanded = true
  /-- What a rollback of a failed worker returns to. -/
  failed : lt.phase = .failed →
    (∀ lsn payload, w.store.getTableState t ≠ some (.syncDone lsn payload)) ∧
    ∃ previous rest, w.store.tableStateHistory t = previous :: rest ∧ w.Vouches t previous ∧
      previous.asType.shouldStore = true ∧
      (la.live = true → ∀ lsn payload, (t, .syncDone lsn payload) ∈ la.listed →
        previous.isHanded = true)

namespace Handing

variable {t : TableId} {la la' lt lt' : ApplyLoop} {w w' : World} {wal : Option Wal}

lemma frame (h : Handing t la lt w) (hsame : SameTable t w w')
    (hlive : la'.live = true → la.live = true) (hlisted : la'.listed = la.listed)
    (hunhanded : lt'.Unhanded → w.handover t = none) (hfailed : lt'.phase = .failed → lt.phase = .failed) :
    Handing t la' lt' w' where
  known := by
    rw [hsame.stored]
    exact fun hactive => h.known (hsame.active hactive)
  durable := by
    rw [hsame.stored]
    exact h.durable
  copyable := by
    rw [hsame.stored, hsame.pool]
    exact fun hactive => h.copyable (hsame.active hactive)
  unhanded := by
    rw [hsame.handover]
    exact hunhanded
  promoted := by
    rw [hsame.promoted, hsame.handover]
    exact h.promoted
  pool state hs := hsame.vouches.2 (h.pool state (hsame.pool ▸ hs))
  store state hs := hsame.vouches.2 (h.store state (hsame.stored ▸ hs))
  listed := by
    rw [hlisted, hsame.handover, hsame.stored]
    exact fun hl => h.listed (hlive hl)
  failed hf := by
    obtain ⟨hnot, previous, rest, hhistory, hvouches, hdurable, hhanded⟩ := h.failed (hfailed hf)
    rw [hlisted, hsame.stored, hsame.history]
    exact ⟨hnot, previous, rest, hhistory, hsame.vouches.2 hvouches, hdurable,
      fun hl => hhanded (hlive hl)⟩

lemma frame_world (h : Handing t la lt w) (hsame : SameTable t w w') : Handing t la lt w' :=
  h.frame hsame id rfl h.unhanded id

variable {state : TableState} {lsn : PgLsn}

lemma not_listed (h : Handing t la lt w) (hactive : w.isActive t = true)
    (hpool : w.poolState t = some state) (hpending : state.isPending = true) (hlive : la.live = true) {payload : Option StoredTableDecodingState} :
    (t, .syncDone lsn payload) ∉ la.listed := by
  intro hmem
  obtain ⟨-, stored, hstored, hhanded⟩ := h.listed hlive lsn payload hmem
  have hcopyable := h.copyable hactive state hpool hpending stored hstored
  rw [TableState.not_isCopyable_of_isHanded hhanded] at hcopyable
  cases hcopyable

/-! ### Steps of the apply loop -/

lemma list (h : Handing t la lt w) :
    Handing t { la with listed := w.store.getSyncingTables } lt w where
  known := h.known
  durable := h.durable
  copyable := h.copyable
  unhanded := h.unhanded
  promoted := h.promoted
  pool := h.pool
  store := h.store
  listed _ lsn payload hmem := by
    obtain ⟨hstored, -⟩ := Store.getTableState_of_mem_getSyncingTables hmem
    exact ⟨h.store _ hstored, _, hstored, rfl⟩
  failed hf := by
    obtain ⟨hnot, previous, rest, hhistory, hvouches, hdurable, -⟩ := h.failed hf
    refine ⟨hnot, previous, rest, hhistory, hvouches, hdurable, fun _ lsn payload hmem => ?_⟩
    exact absurd (Store.getTableState_of_mem_getSyncingTables hmem).1 (hnot lsn payload)

variable {tableId : TableId}

lemma setCatchup (h : Handing t la lt w) {snapshotLsn target : PgLsn}
    (hstate : w.poolState tableId = some (.syncWait snapshotLsn)) :
    Handing t la lt (w.setPoolState tableId (.catchup target)) := by
  by_cases ht : t = tableId
  · subst ht
    have hpool : (w.setPoolState t (.catchup target)).poolState t = some (.catchup target) := by
      rw [poolState_setPoolState, if_pos rfl, hstate]
      rfl
    refine ⟨?_, h.durable, ?_, h.unhanded, h.promoted, ?_, h.store, h.listed, h.failed⟩
    · rw [isActive_setPoolState]
      exact h.known
    · rw [isActive_setPoolState]
      exact fun hactive _ _ _ => h.copyable hactive _ hstate rfl
    · intro state hs
      cases hpool.symm.trans hs
      trivial
  · exact h.frame_world (.of_pool (by simp [setPoolState, ht]) rfl rfl rfl rfl)

lemma promote (h : Handing t la lt w) (hactive : lt.phase ≠ .idle → w.isActive t = true) {payload : Option StoredTableDecodingState} {active : Bool}
    (hlive : la.live = true)
    (hstate : if active then w.poolState tableId = some (.syncDone lsn payload)
      else (tableId, .syncDone lsn payload) ∈ la.listed) :
    Handing t la lt (w.promote tableId active) := by
  by_cases ht : t = tableId
  · subst ht
    have hhandover : w.handover t = some lsn := by
      cases active with
      | true => exact h.pool _ hstate
      | false => exact (h.listed hlive lsn payload hstate).1
    have hisActive : (w.promote t active).isActive t = w.isActive t := by
      cases active with
      | true => exact isActive_setPoolState
      | false => rfl
    have hstored : (w.promote t active).store.getTableState t = some .ready := by
      simp [World.promote]
    have hvouches : ∀ state, w.Vouches t state → (w.promote t active).Vouches t state := by
      intro state hv
      cases state <;> first | exact hv | simp [Vouches, World.promote]
    -- a table that becomes `Ready` without its worker is not being copied
    have hpool : ∀ state, (w.promote t active).poolState t = some state →
        state = .ready ∨ active = false ∧ w.poolState t = some state := by
      intro state hs
      cases active with
      | true =>
        left
        have hready : (w.promote t true).poolState t = some .ready := by
          change (w.setPoolState t .ready).poolState t = _
          rw [poolState_setPoolState, if_pos rfl, hstate]
          rfl
        exact (Option.some.inj (hready.symm.trans hs)).symm
      | false => exact .inr ⟨rfl, hs⟩
    refine ⟨fun _ => by simp [hstored], ?_, ?_, h.unhanded, fun _ => ?_, ?_, ?_, ?_, ?_⟩
    · rw [hstored]
      rintro _ ⟨⟩
      rfl
    · rw [hisActive]
      intro ha state hs hpending
      rcases hpool state hs with rfl | ⟨rfl, hs⟩
      · cases hpending
      · exact absurd hstate (h.not_listed ha hs hpending hlive)
    · change (w.handover t).isSome
      simp [hhandover]
    · intro state hs
      rcases hpool state hs with rfl | ⟨-, hs⟩
      · simp [Vouches, World.promote]
      · exact hvouches state (h.pool state hs)
    · rw [hstored]
      rintro _ ⟨⟩
      simp [Vouches, World.promote]
    · exact fun hl lsn' payload' hmem =>
        ⟨(h.listed hl lsn' payload' hmem).1, .ready, hstored, rfl⟩
    · intro hf
      obtain ⟨stored, hbefore⟩ := Option.isSome_iff_exists.1 (h.known (hactive (by simp [hf])))
      refine ⟨by simp [hstored], stored, w.store.tableStateHistory t, ?_,
        hvouches stored (h.store stored hbefore), h.durable stored hbefore, fun hl lsn' payload' hmem => ?_⟩
      · simp [World.promote, Store.tableStateHistory_updateTableState, hbefore]
      · obtain ⟨-, stored', hstored', hhanded⟩ := h.listed hl lsn' payload' hmem
        exact Option.some.inj (hbefore.symm.trans hstored') ▸ hhanded
  · refine h.frame_world (.of_pool ?_ ?_ ?_ rfl ?_)
    · cases active <;> simp [World.promote, setPoolState, ht]
    · simp [World.promote, ht]
    · simp [World.promote, Store.tableStateHistory_updateTableState, ht]
    · simp [World.promote, ht]

lemma spawn (h : Handing t la lt w) (hstored : w.store.getTableState tableId = some state) :
    Handing t la lt { w with pool := Function.update w.pool tableId (some ⟨state, true, 0⟩) } := by
  by_cases ht : t = tableId
  · subst ht
    have hpool : ({ w with pool := Function.update w.pool t (some ⟨state, true, 0⟩) } :
        World).poolState t = some state := by simp [poolState]
    refine ⟨fun _ => by simp [hstored], h.durable, fun _ state' hs hpending stored hs' => ?_,
      h.unhanded, h.promoted, ?_, h.store, h.listed, h.failed⟩
    · obtain rfl := Option.some.inj (hpool.symm.trans hs)
      obtain rfl := Option.some.inj (hstored.symm.trans hs')
      exact TableState.isCopyable_of_shouldStore hpending (h.durable _ hstored)
    · intro state' hs
      obtain rfl := Option.some.inj (hpool.symm.trans hs)
      exact h.store _ hstored
  · exact h.frame_world (.of_pool (by simp [ht]) rfl rfl rfl rfl)

lemma loopStep_apply (h : Handing t la lt w)
    (hactive : lt.phase ≠ .idle → w.isActive t = true) (hworker : la.workerType = .apply)
    (hstep : LoopStep la w la' w') : Handing t la' lt w' := by
  have hlive := hstep.live_of_live
  cases hstep with
  | list => exact h.list
  | setCatchup tableId snapshotLsn currentLsn _ _ _ _ _ hstate =>
    exact (h.setCatchup hstate).frame (.of_pool rfl rfl rfl rfl rfl) id rfl h.unhanded id
  | ready tableId lsn currentLsn payload active _ hlive' _ _ _ _ hstate =>
    exact h.promote hactive hlive' hstate
  | spawn tableId state _ _ _ hstored =>
    exact (h.spawn hstored).frame (.of_pool rfl rfl rfl rfl rfl) id rfl h.unhanded id
  | syncDone tableId lsn schema hsync => exact nomatch hworker.symm.trans hsync
  | _ => exact h.frame (.of_pool rfl rfl rfl rfl rfl) hlive rfl h.unhanded id

/-! ### Steps around the apply loop -/

lemma resetForResync (h : Handing t la lt w) (hactive : lt.phase ≠ .idle → w.isActive t = true)
    (hdead : la'.live = false) :
    Handing t la' lt { w with store := w.store.resetForResync } where
  known ha := by simpa [Store.getTableState_resetForResync] using h.known ha
  durable stored hs := by
    simp only [Store.getTableState_resetForResync, Option.map_eq_some_iff] at hs
    obtain ⟨_, -, rfl⟩ := hs
    rfl
  copyable _ _ _ _ stored hs := by
    simp only [Store.getTableState_resetForResync, Option.map_eq_some_iff] at hs
    obtain ⟨_, -, rfl⟩ := hs
    rfl
  unhanded := h.unhanded
  promoted := h.promoted
  pool := h.pool
  store stored hs := by
    simp only [Store.getTableState_resetForResync, Option.map_eq_some_iff] at hs
    obtain ⟨_, -, rfl⟩ := hs
    trivial
  listed hl := by simp [hdead] at hl
  failed hf := by
    obtain ⟨stored, hstored⟩ := Option.isSome_iff_exists.1 (h.known (hactive (by simp [hf])))
    refine ⟨by simp [Store.getTableState_resetForResync, hstored], stored,
      w.store.tableStateHistory t, ?_, h.store stored hstored, h.durable stored hstored,
      fun hl => by simp [hdead] at hl⟩
    simp [Store.tableStateHistory_resetForResync, hstored]

lemma forget (h : Handing t la lt w) (hsame : SameTable t w w') (hlisted : la'.listed = []) :
    Handing t la' lt w' := by
  obtain ⟨hknown, hdurable, hcopyable, hunhanded, hpromoted, hpool, hstore, -, hfailed⟩ :=
    h.frame_world hsame
  refine ⟨hknown, hdurable, hcopyable, hunhanded, hpromoted, hpool, hstore, by simp [hlisted],
    fun hf => ?_⟩
  obtain ⟨hnot, previous, rest, hhistory, hvouches, hdurable, -⟩ := hfailed hf
  exact ⟨hnot, previous, rest, hhistory, hvouches, hdurable, by simp [hlisted]⟩

lemma workerStep_apply (h : Handing t la lt w)
    (hactive : lt.phase ≠ .idle → w.isActive t = true) (hworker : la.workerType = .apply)
    (hstep : WorkerStep wal la w la' w') : Handing t la' lt w' := by
  have hnot := WorkerType.ne_tableSync hworker
  cases hstep
  case loop hstep => exact h.loopStep_apply hactive hworker hstep
  case resetForResync hlive hphase => exact h.resetForResync hactive hlive
  case startApply => exact h.forget (.of_pool rfl rfl rfl rfl rfl) rfl
  case leave => exact h.frame (.of_pool rfl rfl rfl rfl rfl) nofun rfl h.unhanded id
  all_goals first
    | exact absurd ‹la.workerType = _› (hnot _)
    | exact h.frame (.of_pool rfl rfl rfl rfl rfl) id rfl h.unhanded id

/-! ### Steps of the table's worker -/

lemma write (hdurable : state.asType.shouldStore = true)
    (hpool : w'.poolState t = some state) (hstored : w'.store.getTableState t = some state)
    (hvouches : w'.Vouches t state) (hunhanded : lt.Unhanded → w'.handover t = none)
    (hpromoted : w'.promoted t = true → (w'.handover t).isSome)
    (hlisted : la.live = true → ∀ lsn payload, (t, .syncDone lsn payload) ∈ la.listed →
      w'.handover t = some lsn ∧ state.isHanded = true)
    (hfailed : lt.phase = .failed → (∀ lsn payload, state ≠ .syncDone lsn payload) ∧
      ∃ previous rest, w'.store.tableStateHistory t = previous :: rest ∧ w'.Vouches t previous ∧
        previous.asType.shouldStore = true ∧
        (la.live = true → ∀ lsn payload, (t, .syncDone lsn payload) ∈ la.listed →
          previous.isHanded = true)) :
    Handing t la lt w' where
  known _ := by simp [hstored]
  durable stored hs := Option.some.inj (hstored.symm.trans hs) ▸ hdurable
  copyable _ state' hs hpending stored hs' := by
    obtain rfl := Option.some.inj (hpool.symm.trans hs)
    obtain rfl := Option.some.inj (hstored.symm.trans hs')
    exact TableState.isCopyable_of_shouldStore hpending hdurable
  unhanded := hunhanded
  promoted := hpromoted
  pool state' hs := Option.some.inj (hpool.symm.trans hs) ▸ hvouches
  store state' hs := Option.some.inj (hstored.symm.trans hs) ▸ hvouches
  listed hl lsn payload hmem :=
    ⟨(hlisted hl lsn payload hmem).1, state, hstored, (hlisted hl lsn payload hmem).2⟩
  failed hf := by
    obtain ⟨hnot, hrest⟩ := hfailed hf
    exact ⟨fun lsn payload hs => hnot lsn payload (Option.some.inj (hstored.symm.trans hs)), hrest⟩

lemma getTableState_setAndStore (h : state.asType.shouldStore = true) :
    (w.setAndStore t state).store.getTableState t = some state := by
  simp [setAndStore, h]

lemma syncDone (h : Handing t la lt w) (hactive : w.isActive t = true) {target : PgLsn}
    (hstate : w.poolState t = some (.catchup target)) {schema : ReplicatedTableSchema}
    (hphase : lt.phase = .engaged) : Handing t la { lt with done := true }
      ((w.setAndStore t (.ofSyncDone lsn schema)).recordHandover t lsn) := by
  have hhandover : ((w.setAndStore t (.ofSyncDone lsn schema)).recordHandover t lsn).handover t =
      some lsn := by simp [recordHandover]
  have hdurable : (TableState.ofSyncDone lsn schema).asType.shouldStore = true := rfl
  refine write hdurable (WorkerStep.poolState_written hactive)
    (getTableState_setAndStore rfl) hhandover ?_ (fun _ => by simp [hhandover]) ?_ ?_
  · simp [ApplyLoop.Unhanded, hphase]
  · exact fun hl lsn' payload hmem => absurd hmem (h.not_listed hactive hstate rfl hl)
  · simp [hphase]

lemma loopStep_sync (h : Handing t la lt w) (hcoordinated : Coordinated (.tableSync t) lt w)
    (hstep : LoopStep lt w lt' w') : Handing t la lt' w' := by
  have hnot := WorkerType.ne_apply hcoordinated.workerType
  have hlive := hstep.live_of_live
  have hphase := hstep.phase_eq
  -- a step that does not hand the table over
  have hsame : SameTable t w w' → lt'.done = lt.done → Handing t la lt' w' := by
    intro hsame hdone
    refine h.frame hsame id rfl (fun hunhanded => h.unhanded ?_) fun hf => hphase ▸ hf
    unfold ApplyLoop.Unhanded at hunhanded ⊢
    rw [hphase, hdone] at hunhanded
    exact hunhanded.imp_right (Or.imp_right (Or.imp_right (And.imp_left hlive)))
  cases hstep with
  | syncDone tableId lsn schema hworker hlive' hstate =>
    cases hcoordinated.workerType.symm.trans hworker
    have hengaged := hcoordinated.started hlive'
    exact h.syncDone (hcoordinated.active t rfl (by simp [hengaged])) hstate hengaged
  | setCatchup _ _ _ hworker => exact absurd hworker hnot
  | ready _ _ _ _ _ hworker => exact absurd hworker hnot
  | spawn _ _ hworker => exact absurd hworker hnot
  | _ => exact hsame (.of_pool rfl rfl rfl rfl rfl) rfl

lemma copied (h : Handing t la lt w) (hactive : w.isActive t = true) {before after : TableState}
    (hbefore : w.poolState t = some before) (hpending : before.isPending = true)
    (hafter : after.isCopyable = true) (hunhanded : lt'.Unhanded → w.handover t = none)
    (hfailed : lt'.phase ≠ .failed) : Handing t la lt' (w.setAndStore t after) := by
  have hdurable : after.asType.shouldStore = true := by
    cases after <;> first | rfl | cases hafter
  have hvouches : (w.setAndStore t after).Vouches t after := by
    cases after <;> trivial
  refine write hdurable (WorkerStep.poolState_written hactive) (getTableState_setAndStore hdurable)
    hvouches hunhanded h.promoted ?_ fun hf => absurd hf hfailed
  exact fun hl lsn' payload hmem => absurd hmem (h.not_listed hactive hbefore hpending hl)

lemma syncWait (h : Handing t la lt w) (hactive : w.isActive t = true)
    (hpool : w.poolState t = some .finishedCopy)
    (hunhanded : lt'.Unhanded → w.handover t = none) (hfailed : lt'.phase ≠ .failed) :
    Handing t la lt' (w.setAndStore t (.syncWait lsn)) := by
  refine ⟨?_, h.durable, ?_, hunhanded, h.promoted, ?_, h.store, h.listed,
    fun hf => absurd hf hfailed⟩
  · rw [isActive_setAndStore]
    exact h.known
  · rw [isActive_setAndStore]
    exact fun _ _ _ _ => h.copyable hactive _ hpool rfl
  · intro state hs
    cases (WorkerStep.poolState_written hactive).symm.trans hs
    trivial

lemma recordCopy (h : Handing t la lt w) (hactive : w.isActive t = true)
    (hpool : w.poolState t = some .dataSync) (hsame : SameTable t w w')
    (hfailed : lt'.phase ≠ .failed) : Handing t la lt' (w'.recordCopy t lsn) := by
  have hw := h.frame_world hsame
  have hcopyable : ∀ stored, w'.store.getTableState t = some stored → stored.isCopyable = true := by
    rw [hsame.stored]
    exact h.copyable hactive _ hpool rfl
  refine ⟨hw.known, hw.durable, fun ha _ _ _ => hcopyable, fun _ => ?_, fun hp => ?_, ?_, ?_, ?_,
    fun hf => absurd hf hfailed⟩
  · simp [World.recordCopy]
  · simp [World.recordCopy] at hp
  · intro state hs
    obtain rfl : TableState.dataSync = state :=
      Option.some.inj (hpool.symm.trans (hsame.pool.symm.trans hs))
    trivial
  · intro stored hs
    have hc := hcopyable stored hs
    cases stored <;> trivial
  · exact fun hl lsn' payload hmem => absurd hmem (h.not_listed hactive hpool rfl hl)

lemma storeError (h : Handing t la lt w) (hactive : w.isActive t = true) {e : EtlError}
    {policy : TableRetryPolicy} (hdead : lt.live = false) :
    Handing t la { lt with phase := .failed } (w.setAndStore t (.errored e policy)) := by
  obtain ⟨stored, hstored⟩ := Option.isSome_iff_exists.1 (h.known hactive)
  have hdurable : (TableState.errored e policy).asType.shouldStore = true := rfl
  refine write hdurable (WorkerStep.poolState_written hactive)
    (getTableState_setAndStore rfl) trivial (by simp [ApplyLoop.Unhanded, hdead]) h.promoted
    (fun hl lsn payload hmem => ⟨(h.listed hl lsn payload hmem).1, rfl⟩) fun _ => ?_
  refine ⟨nofun, stored, w.store.tableStateHistory t, ?_, h.store stored hstored,
    h.durable stored hstored, fun hl lsn payload hmem => ?_⟩
  · simp [setAndStore, TableState.asType, TableStateType.shouldStore,
      Store.tableStateHistory_updateTableState, hstored]
  · obtain ⟨-, stored', hstored', hhanded⟩ := h.listed hl lsn payload hmem
    exact Option.some.inj (hstored.symm.trans hstored') ▸ hhanded

lemma rollback (h : Handing t la lt w) (hactive : w.isActive t = true) (hphase : lt.phase = .failed)
    (hdead : lt.live = false) {previous : TableState} {store : Store}
    (hrolled : w.store.rollbackTableState t = .ok (previous, store)) :
    Handing t la { lt with phase := .engaged } (w.rollback t previous store) := by
  obtain ⟨rest, hhistory, hstored, -⟩ := Store.rollbackTableState_eq_ok hrolled
  obtain ⟨-, previous', rest', hhistory', hvouches, hdurable, hhanded⟩ := h.failed hphase
  obtain ⟨rfl, rfl⟩ : previous' = previous ∧ rest' = rest := by
    simpa using hhistory'.symm.trans hhistory
  refine write hdurable ?_ (by simpa [World.rollback] using hstored t) hvouches (by simp [ApplyLoop.Unhanded, hdead])
    h.promoted (fun hl lsn payload hmem => ⟨(h.listed hl lsn payload hmem).1,
      hhanded hl lsn payload hmem⟩) nofun
  have hpool : (w.setAndStore t previous').poolState t = some previous' :=
    WorkerStep.poolState_written hactive
  exact hpool

lemma workerStep_sync (h : Handing t la lt w) (hcoordinated : Coordinated (.tableSync t) lt w)
    (hstep : WorkerStep wal lt w lt' w') : Handing t la lt' w' := by
  have hnot := WorkerType.ne_apply hcoordinated.workerType
  have hactive := hcoordinated.active t rfl
  have hworker := hcoordinated.workerType
  -- a step that leaves the state of the table alone
  have hsame : SameTable t w w' → (lt'.Unhanded → lt.Unhanded) → lt'.phase ≠ .failed →
      Handing t la lt' w' := fun hsame hunhanded hfailed =>
    h.frame hsame id rfl (fun hu => h.unhanded (hunhanded hu)) fun hf => absurd hf hfailed
  cases hstep
  case loop hstep => exact h.loopStep_sync hcoordinated hstep
  all_goals try exact absurd ‹lt.workerType = _› hnot
  case leave => exact hsame (.of_pool rfl rfl rfl rfl rfl) (by simp [ApplyLoop.Unhanded]) nofun
  case retry => exact h.frame (.of_pool rfl rfl rfl rfl rfl) id rfl h.unhanded id
  case engage tableId hworker' hlive hact =>
    exact hsame (.of_pool rfl rfl rfl rfl rfl) (by simp [ApplyLoop.Unhanded, hlive]) nofun
  case enter tableId hworker' hlive hphase hstate =>
    exact hsame (.of_pool rfl rfl rfl rfl rfl) (by simp [ApplyLoop.Unhanded, hlive]) nofun
  case dropSyncSlot => exact h.frame_world (.of_pool rfl rfl rfl rfl rfl)
  case dropSyncCheckpoint => exact h.frame_world (.of_pool rfl rfl rfl rfl rfl)
  case prepareForCopy tableId hworker' hlive hphase =>
    exact hsame (.of_pool rfl rfl rfl rfl rfl) (by simp [ApplyLoop.Unhanded, hlive]) nofun
  case beginCopy tableId hworker' hlive hphase =>
    cases hworker.symm.trans hworker'
    have hact := hactive (by simp [hphase])
    rcases hcoordinated.starting t rfl (.inr hphase) with hpool | hpool | hpool
    all_goals exact h.copied hact hpool rfl rfl (by simp [ApplyLoop.Unhanded, hlive]) nofun
  case createSyncSlot tableId point hworker' hlive hphase hfree =>
    cases hworker.symm.trans hworker'
    have hsame : SameTable t w (w.createSlot (.tableSync t) point) :=
      .of_pool rfl rfl rfl rfl rfl
    exact h.recordCopy (hactive (by simp [hphase])) (hcoordinated.copying t rfl (.inl hphase)) hsame
      nofun
  case storeCopySchema => exact h.frame (.of_pool rfl rfl rfl rfl rfl) id rfl h.unhanded id
  case finishCopy tableId hworker' hlive hphase hschema =>
    cases hworker.symm.trans hworker'
    exact h.copied (hactive (by simp [hphase])) (hcoordinated.copying t rfl (.inr hphase)) rfl rfl
      (fun _ => h.unhanded (.inl hphase)) nofun
  case syncWait tableId hworker' hlive hphase =>
    cases hworker.symm.trans hworker'
    exact h.syncWait (hactive (by simp [hphase])) (hcoordinated.copied t rfl hphase)
      (fun _ => h.unhanded (.inr (.inl hphase))) nofun
  case follow tableId schema target hworker' hlive hphase hstate hcopied hfits =>
    exact h.frame (.of_pool rfl rfl rfl rfl rfl) id rfl
      (fun _ => h.unhanded (.inr (.inr (.inl hphase)))) nofun
  case storeError tableId e policy hworker' hlive hphase =>
    cases hworker.symm.trans hworker'
    exact h.storeError (hactive (by simp [hphase])) hlive
  case rollback tableId previous store hworker' hlive hphase hrolled =>
    cases hworker.symm.trans hworker'
    exact h.rollback (hactive (by simp [hphase])) hphase hlive hrolled
  case countAttempts tableId attempts hworker' =>
    exact h.frame_world ⟨poolState_setRetryAttempts, by simp [isActive_setRetryAttempts], rfl, rfl,
      rfl, rfl⟩
  case finish tableId hworker' hlive =>
    exact hsame sameTable_finishWorker (by simp [ApplyLoop.Unhanded, hlive]) nofun

/-! ### Steps of other workers and of the surroundings -/

lemma workerStep_other (h : Handing t la lt w) {k : TableId} {l l' : ApplyLoop} (hk : t ≠ k)
    (hworker : l.workerType = .tableSync k) (hstep : WorkerStep wal l w l' w') :
    Handing t la lt w' :=
  h.frame_world (hstep.sameTable hk hworker)

lemma environment (h : Handing t la lt w) (hactive : lt.phase ≠ .idle → w.isActive t = true)
    {action : Action} (hstep : System.environment w action = some w') : Handing t la lt w' := by
  cases action with
  | turn => cases hstep
  | restart => cases hstep
  | cleanUp k count failed =>
    cases hstep
    cases failed <;> exact h.frame_world (.of_pool rfl rfl rfl rfl rfl)
  | register tableId =>
    simp only [System.environment] at hstep
    split at hstep
    · rename_i hnone
      cases hstep
      by_cases ht : t = tableId
      · subst ht
        have hinactive : w.isActive t ≠ true := fun ha => by simpa [hnone] using h.known ha
        have hstored : (w.store.updateTableState t .init).getTableState t = some .init := by simp
        refine ⟨fun ha => absurd ha hinactive, ?_, fun ha => absurd ha hinactive, h.unhanded,
          h.promoted, h.pool, ?_, fun hl lsn payload hmem => ?_, fun hf => ?_⟩
        · rw [hstored]
          rintro _ ⟨⟩
          rfl
        · rw [hstored]
          rintro _ ⟨⟩
          trivial
        · obtain ⟨-, stored, hs, -⟩ := h.listed hl lsn payload hmem
          cases hnone.symm.trans hs
        · exact absurd (hactive (by simp [hf])) hinactive
      · exact h.frame_world (.of_pool rfl (by simp [ht])
          (by simp [Store.tableStateHistory_updateTableState, ht]) rfl rfl)
    · cases hstep
  | _ => cases hstep; exact h.frame_world (.of_pool rfl rfl rfl rfl rfl)

lemma restart (h : Handing t la lt w) {ka kt : WorkerType} :
    Handing t (.unstarted ka) (.unstarted kt) w.restart where
  known := nofun
  durable := h.durable
  copyable := nofun
  unhanded hu := by simp [ApplyLoop.Unhanded, ApplyLoop.unstarted] at hu
  promoted := h.promoted
  pool := nofun
  store := h.store
  listed := nofun
  failed := nofun

end Handing

lemma System.Reachable.handing {config : Config} {Allowed : Memory → Memory → Prop} {s : System}
    (hs : s.Reachable config Allowed) (t : TableId) :
    Handing t (s.memory.loops .apply) (s.memory.loops (.tableSync t)) s.world := by
  refine hs.invariant (J := fun m => Handing t (m.loops .apply) (m.loops (.tableSync t)) m.world)
    ?_ ?_
  · refine ⟨nofun, nofun, nofun, fun _ => rfl, nofun, nofun, nofun, nofun, nofun⟩
  · intro s m' hs hm hmove _
    have hcoordinated := hs.proceeds.coordinated
    have hactive := (hcoordinated (.tableSync t)).active t rfl
    cases hmove with
    | worker k step =>
      have hworker := (hcoordinated k).workerType
      cases k with
      | apply => simpa using hm.workerStep_apply hactive hworker step
      | tableSync k =>
        by_cases hk : t = k
        · subst hk
          simpa using hm.workerStep_sync (hcoordinated (.tableSync t)) step
        · simpa [hk] using hm.workerStep_other hk hworker step
    | environment action step => exact hm.environment hactive step
    | restart => exact hm.restart
    | idle => exact hm

end Etl
