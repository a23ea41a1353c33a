import Etl.Runtime.TableSyncWorker

/-!
# The pipeline

The workers take turns, one atom at a time and in any order. In between the process may crash, a
shutdown may be requested, schemas are cleaned up, the destination changes its metadata, and the
server may lose what a slot has confirmed, or the slot itself.
-/

namespace Etl

namespace Store

def empty : Store where
  tableStates := .empty
  tableStateHistory := fun _ => []
  tableSchemas := .empty
  destinationTablesMetadata := fun _ => none
  replicationCheckpoints := fun _ => none

end Store

namespace World

def initial : World where
  store := .empty
  pool := fun _ => none
  slots := fun _ => none
  cleanup := fun _ => []
  shutdown := false
  owed := fun _ => []
  forgotten := fun _ => []
  passed := fun _ => []
  applied := fun _ => []
  copyPoint := fun _ => 0
  synced := fun _ => []
  copySchema := fun _ => none
  handover := fun _ => none
  promoted := fun _ => false
  horizon := 0

variable (w : World)

def restart : World :=
  { w with
    pool := fun _ => none
    cleanup := fun _ => []
    shutdown := false }

def updateSlot (worker : WorkerType) (f : Slot → Option Slot) : World :=
  { w with slots := Function.update w.slots worker ((w.slots worker).bind f) }

/-- Some queued requests become one call, in which a later boundary replaces an earlier one. A
failure is only logged. -/
def cleanUp (worker : WorkerType) (count : Nat) (failed : Bool) : World :=
  let requests := (w.cleanup worker).take count
  let boundaries := requests.foldl (fun map request => map.insert request.1 request.2) .empty
  { w with
    store := if failed then w.store else w.store.pruneTableSchemas boundaries
    cleanup := Function.update w.cleanup worker ((w.cleanup worker).drop count) }

end World

inductive Action where
  | turn (worker : WorkerType) (input : Input)
  | restart
  | shutdown
  /-- The server falls back to an earlier confirmed position. -/
  | regress (worker : WorkerType) (lsn : PgLsn)
  | invalidate (worker : WorkerType)
  | loseSlot (worker : WorkerType)
  | cleanUp (worker : WorkerType) (count : Nat) (failed : Bool)
  | setMetadata (tableId : TableId) (metadata : Option DestinationTableMetadata)
  /-- A table is added to the publication. -/
  | register (tableId : TableId)

structure System where
  world : World
  threads : WorkerType → Thread EtlError Input ApplyLoop World Label

namespace System

def script (config : Config) : WorkerType → Script EtlError Input ApplyLoop World Label
  | .apply => applyScript config
  | .tableSync tableId => tableSyncScript config tableId

def idleThread (worker : WorkerType) : Thread EtlError Input ApplyLoop World Label :=
  ⟨.unstarted worker, .done .launch⟩

def initial : System := ⟨.initial, idleThread⟩

/-- `none` if the surroundings do not do it here. -/
def environment (w : World) : Action → Option World
  | .turn _ _ => none
  | .restart => none
  | .shutdown => some { w with shutdown := true }
  | .regress worker lsn =>
    some (w.updateSlot worker fun slot =>
      some { slot with confirmed := max slot.consistentPoint (min lsn slot.confirmed) })
  | .invalidate worker => some (w.updateSlot worker fun slot => some { slot with invalidated := true })
  | .loseSlot worker => some (w.updateSlot worker fun _ => none)
  | .cleanUp worker count failed => some (w.cleanUp worker count failed)
  | .setMetadata tableId metadata =>
    some { w with
      store := { w.store with
        destinationTablesMetadata :=
          Function.update w.store.destinationTablesMetadata tableId metadata } }
  | .register tableId =>
    match w.store.getTableState tableId with
    | none => some { w with store := w.store.updateTableState tableId .init }
    | some _ => none

def step (config : Config) (s : System) : Action → Option System
  | .turn worker input =>
    ((s.threads worker).step (script config worker) input s.world).map fun r =>
      ⟨r.2, Function.update s.threads worker r.1⟩
  | .restart => some ⟨s.world.restart, idleThread⟩
  | action => (environment s.world action).map fun w => { s with world := w }

def run (config : Config) : System → List Action → Option System
  | s, [] => some s
  | s, action :: actions => (s.step config action).bind fun s' => s'.run config actions

end System

/-! ## What the other workers do to a worker -/

namespace World

variable {w : World} {tableId t : TableId} {state : TableState}

lemma poolState_setPoolState : (w.setPoolState tableId state).poolState t =
    if t = tableId then (w.poolState t).map fun _ => state else w.poolState t := by
  by_cases h : t = tableId
  · subst h
    cases hentry : w.pool t <;> simp [setPoolState, poolState, hentry]
  · simp [setPoolState, poolState, h]

@[simp] lemma isActive_setPoolState :
    (w.setPoolState tableId state).isActive t = w.isActive t := by
  by_cases h : t = tableId
  · subst h
    cases hentry : w.pool t <;> simp [setPoolState, isActive, hentry]
  · simp [setPoolState, isActive, h]

@[simp] lemma poolState_setAndStore :
    (w.setAndStore tableId state).poolState t = (w.setPoolState tableId state).poolState t := rfl

@[simp] lemma isActive_setAndStore :
    (w.setAndStore tableId state).isActive t = w.isActive t :=
  isActive_setPoolState

lemma poolState_setRetryAttempts {attempts : Nat} :
    (w.setRetryAttempts tableId attempts).poolState t = w.poolState t := by
  by_cases h : t = tableId
  · subst h
    cases hentry : w.pool t <;> simp [setRetryAttempts, poolState, hentry]
  · simp [setRetryAttempts, poolState, h]

lemma isActive_setRetryAttempts {attempts : Nat} :
    (w.setRetryAttempts tableId attempts).isActive t = w.isActive t := by
  by_cases h : t = tableId
  · subst h
    cases hentry : w.pool t <;> simp [setRetryAttempts, isActive, hentry]
  · simp [setRetryAttempts, isActive, h]

lemma poolState_isSome_of_isActive (h : w.isActive t = true) : (w.poolState t).isSome := by
  unfold isActive at h
  unfold poolState
  split at h <;> simp_all

inductive PoolMove (w w' : World) (tableId : TableId) : Prop
  | same (state : w'.poolState tableId = w.poolState tableId)
      (active : w'.isActive tableId = w.isActive tableId)
  | catchup (lsn target : PgLsn) (before : w.poolState tableId = some (.syncWait lsn))
      (after : w'.poolState tableId = some (.catchup target))
      (active : w'.isActive tableId = w.isActive tableId)
  | ready {lsn : PgLsn} {payload : Option StoredTableDecodingState}
      (before : w.poolState tableId = some (.syncDone lsn payload))
      (after : w'.poolState tableId = some .ready)
      (active : w'.isActive tableId = w.isActive tableId)
  | spawn (inactive : w.isActive tableId = false)

lemma PoolMove.of_eq {w' : World} (h : w'.pool t = w.pool t) : PoolMove w w' t :=
  .same (by unfold poolState; rw [h]) (by unfold isActive; rw [h])

structure SlotMove (w w' : World) (worker : WorkerType) : Prop where
  missing : w.slots worker = none → w'.slots worker = none
  invalid : ∀ slot', w'.slots worker = some slot' →
    ∃ slot, w.slots worker = some slot ∧ (slot.invalidated = true → slot'.invalidated = true)

lemma SlotMove.of_eq {w' : World} {worker : WorkerType} (h : w'.slots worker = w.slots worker) :
    SlotMove w w' worker where
  missing := by rw [h]; exact id
  invalid slot' := by
    rw [h]
    exact fun h => ⟨slot', h, id⟩

namespace PoolMove

variable {w' : World}

lemma isActive (h : PoolMove w w' t) (hactive : w.isActive t = true) : w'.isActive t = true := by
  cases h with
  | same _ hsame => rw [hsame, hactive]
  | catchup _ _ _ _ hsame => rw [hsame, hactive]
  | ready _ _ hsame => rw [hsame, hactive]
  | spawn h => rw [hactive] at h; cases h

lemma poolState_cases (h : PoolMove w w' t) (hactive : w.isActive t = true) :
    w'.poolState t = w.poolState t ∨
      (∃ lsn target, w.poolState t = some (.syncWait lsn) ∧ w'.poolState t = some (.catchup target)) ∨
      ∃ lsn payload, w.poolState t = some (.syncDone lsn payload) ∧ w'.poolState t = some .ready := by
  cases h with
  | same hstate _ => exact .inl hstate
  | catchup lsn target hb ha _ => exact .inr (.inl ⟨lsn, target, hb, ha⟩)
  | ready hb ha _ => exact .inr (.inr ⟨_, _, hb, ha⟩)
  | spawn h => rw [hactive] at h; cases h

lemma poolState_eq (h : PoolMove w w' t) (hactive : w.isActive t = true)
    (hwait : ∀ lsn, w.poolState t ≠ some (.syncWait lsn))
    (hdone : ∀ lsn payload, w.poolState t ≠ some (.syncDone lsn payload)) :
    w'.poolState t = w.poolState t := by
  rcases h.poolState_cases hactive with heq | ⟨lsn, _, hb, -⟩ | ⟨lsn, payload, hb, -⟩
  · exact heq
  · exact absurd hb (hwait lsn)
  · exact absurd hb (hdone lsn payload)

end PoolMove

end World

open World

variable {l : ApplyLoop} {w : World}

lemma Coordinated.frame {worker : WorkerType} {w' : World} (h : Coordinated worker l w)
    (hpool : ∀ tableId, worker = .tableSync tableId → PoolMove w w' tableId)
    (hslot : worker = .apply → SlotMove w w' .apply)
    (hshutdown : w.shutdown = true → w'.shutdown = true) : Coordinated worker l w' where
  workerType := h.workerType
  started := h.started
  stopping hw hstop := hshutdown (h.stopping hw hstop)
  active tableId hw hphase := (hpool tableId hw).isActive (h.active tableId hw hphase)
  slotless hw hphase := (hslot hw).missing (h.slotless hw hphase)
  invalid hw hphase slot' hslot' := by
    obtain ⟨slot, hs, hmono⟩ := (hslot hw).invalid slot' hslot'
    exact hmono (h.invalid hw hphase slot hs)
  starting tableId hw hphase := by
    have hs := h.starting tableId hw hphase
    have hrunning : l.phase ≠ .idle := by rcases hphase with h | h <;> simp [h]
    rwa [(hpool tableId hw).poolState_eq (h.active tableId hw hrunning)]
    all_goals
      intros
      rcases hs with hs | hs | hs <;> simp [hs]
  copying tableId hw hphase := by
    have hs := h.copying tableId hw hphase
    have hrunning : l.phase ≠ .idle := by rcases hphase with h | h <;> simp [h]
    rwa [(hpool tableId hw).poolState_eq (h.active tableId hw hrunning)] <;> simp [hs]
  copied tableId hw hphase := by
    have hs := h.copied tableId hw hphase
    rwa [(hpool tableId hw).poolState_eq (h.active tableId hw (by simp [hphase]))] <;> simp [hs]
  awaiting tableId hw hphase := by
    have hs := h.awaiting tableId hw hphase
    rcases (hpool tableId hw).poolState_cases (h.active tableId hw (by simp [hphase])) with
      heq | ⟨_, target, -, ha⟩ | ⟨_, _, hb, -⟩
    · rwa [heq]
    · exact .inr ⟨target, ha⟩
    · simp [hb] at hs
  failed tableId hw hphase := by
    have hs := h.failed tableId hw hphase
    obtain ⟨e, policy, hs⟩ := hs
    refine ⟨e, policy, ?_⟩
    rwa [(hpool tableId hw).poolState_eq (h.active tableId hw (by simp [hphase]))] <;> simp [hs]
  catchup tableId hw hlive hdone := by
    have hs := h.catchup tableId hw hlive hdone
    have hactive := h.active tableId hw (by simp [h.started hlive])
    rwa [(hpool tableId hw).poolState_eq hactive] <;> simp [hs]
  handedOver tableId hw hlive hdone := by
    have hs := h.handedOver tableId hw hlive hdone
    have hactive := h.active tableId hw (by simp [h.started hlive])
    rcases (hpool tableId hw).poolState_cases hactive with heq | ⟨_, _, hb, -⟩ | ⟨_, _, -, ha⟩
    · rwa [heq]
    · simp [hb] at hs
    · exact .inl ha

/-! ## What a step of a worker does to the pool and the slots -/

namespace LoopStep

variable {l l' : ApplyLoop} {w w' : World}

lemma workerType_eq (h : LoopStep l w l' w') : l'.workerType = l.workerType := by
  cases h <;> rfl

lemma target_eq (h : LoopStep l w l' w') : l'.target = l.target := by
  cases h <;> rfl

lemma startLsn_eq (h : LoopStep l w l' w') : l'.startLsn = l.startLsn := by
  cases h <;> rfl

lemma live_of_live (h : LoopStep l w l' w') (hlive : l'.live = true) : l.live = true := by
  cases h <;> first | exact hlive | cases hlive

lemma shutdown_eq (h : LoopStep l w l' w') : w'.shutdown = w.shutdown := by
  cases h <;> rfl

lemma stopping_cases (h : LoopStep l w l' w') : l'.stopping = l.stopping ∨ w.shutdown = true := by
  cases h
  case giveUp tableId hwaiting hshutdown => exact .inr hshutdown
  all_goals exact .inl rfl

lemma pool_cases (h : LoopStep l w l' w') (t : TableId) :
    PoolMove w w' t ∧ (l.workerType = .tableSync t → l'.done = l.done) ∨
      l.workerType = .tableSync t ∧ l.live = true ∧ l'.done = true ∧
        w'.isActive t = w.isActive t ∧ ∃ lsn payload, w'.poolState t = some (.syncDone lsn payload) := by
  cases h
  case syncDone tableId lsn schema hworker hlive hstate hreached hdecoder hhandling htx hq hpos =>
    by_cases ht : t = tableId
    · subst ht
      refine .inr ⟨hworker, hlive, rfl, isActive_setAndStore, lsn,
        some (.fromReplicatedTableSchema schema), ?_⟩
      show (w.setPoolState t _).poolState t = _
      rw [poolState_setPoolState, if_pos rfl, hstate]
      rfl
    · refine .inl ⟨.of_eq ?_, fun hw => ?_⟩
      · show (w.setPoolState tableId _).pool t = _
        simp [setPoolState, ht]
      · rw [hworker] at hw
        cases hw
        exact absurd rfl ht
  case setCatchup tableId snapshotLsn currentLsn hworker hlive hpos hgoing hwaiting hstate =>
    refine .inl ⟨?_, fun _ => rfl⟩
    by_cases ht : t = tableId
    · subst ht
      refine .catchup snapshotLsn (max snapshotLsn currentLsn) hstate ?_ isActive_setPoolState
      rw [poolState_setPoolState, if_pos rfl, hstate]
      rfl
    · exact .of_eq (by simp [setPoolState, ht])
  case ready tableId syncDoneLsn currentLsn payload active hworker hlive hpos hhandling hcan hobserved
      hstate =>
    refine .inl ⟨?_, fun _ => rfl⟩
    cases active with
    | false => exact .of_eq rfl
    | true =>
      by_cases ht : t = tableId
      · subst ht
        refine .ready hstate ?_ isActive_setPoolState
        show (w.setPoolState t _).poolState t = _
        rw [poolState_setPoolState, if_pos rfl, show w.poolState t = _ from hstate]
        rfl
      · exact .of_eq (by simp [promote, setPoolState, ht])
  case spawn tableId state hworker hlive hinactive hstored =>
    refine .inl ⟨?_, fun _ => rfl⟩
    by_cases ht : t = tableId
    · subst ht
      exact .spawn hinactive
    · exact .of_eq (by simp [ht])
  all_goals exact .inl ⟨.of_eq rfl, fun _ => rfl⟩

lemma slotMove (h : LoopStep l w l' w') (worker : WorkerType) : SlotMove w w' worker := by
  cases h
  case status stream delivered htx hhandling hreported =>
    by_cases hw : worker = l.workerType
    · subst hw
      refine ⟨fun h => by simp [confirmFlush, h], fun slot' hslot' => ?_⟩
      simp only [confirmFlush, Function.update_self, Option.map_eq_some_iff] at hslot'
      obtain ⟨slot, hslot, rfl⟩ := hslot'
      exact ⟨slot, hslot, by split <;> exact id⟩
    · exact .of_eq (by simp [confirmFlush, hw])
  all_goals exact .of_eq rfl

lemma coordinated {worker : WorkerType} (h : LoopStep l w l' w') (hl : Coordinated worker l w) :
    Coordinated worker l' w' := by
  by_cases hall : ∀ t, worker = .tableSync t → PoolMove w w' t ∧ l'.done = l.done
  · have hframe := hl.frame (fun t hw => (hall t hw).1) (fun _ => h.slotMove .apply)
      fun hs => h.shutdown_eq.trans hs
    exact
      { workerType := h.workerType_eq.trans hl.workerType
        started := fun hlive => h.phase_eq.trans (hl.started (h.live_of_live hlive))
        stopping := fun hw hstop => by
          rcases h.stopping_cases with heq | hshutdown
          · exact hframe.stopping hw (heq ▸ hstop)
          · exact h.shutdown_eq.trans hshutdown
        active := fun t hw hphase => hframe.active t hw (by rwa [← h.phase_eq])
        slotless := fun hw hphase => hframe.slotless hw (by rwa [← h.phase_eq])
        invalid := fun hw hphase => hframe.invalid hw (by rwa [← h.phase_eq])
        starting := fun t hw hphase => hframe.starting t hw (by rwa [← h.phase_eq])
        copying := fun t hw hphase => hframe.copying t hw (by rwa [← h.phase_eq])
        copied := fun t hw hphase => hframe.copied t hw (by rwa [← h.phase_eq])
        awaiting := fun t hw hphase => by
          rw [h.startLsn_eq]
          exact hframe.awaiting t hw (by rwa [← h.phase_eq])
        failed := fun t hw hphase => hframe.failed t hw (by rwa [← h.phase_eq])
        catchup := fun t hw hlive hdone => by
          rw [h.target_eq]
          exact hframe.catchup t hw (h.live_of_live hlive) (by rwa [← (hall t hw).2])
        handedOver := fun t hw hlive hdone =>
          hframe.handedOver t hw (h.live_of_live hlive) (by rwa [← (hall t hw).2]) }
  · -- the table has just been handed over
    push Not at hall
    obtain ⟨t, hworker, hnot⟩ := hall
    subst hworker
    rcases h.pool_cases t with ⟨hmove, hdone⟩ | ⟨-, hlive, hdone, hactive, lsn, payload, hstate⟩
    · exact absurd (hdone hl.workerType) (hnot hmove)
    · have hphase : l'.phase = .engaged := h.phase_eq.trans (hl.started hlive)
      exact
        { workerType := h.workerType_eq.trans hl.workerType
          started := fun _ => hphase
          stopping := nofun
          active := by
            rintro _ ⟨⟩ -
            rw [hactive]
            exact hl.active t rfl (by simp [hl.started hlive])
          slotless := nofun
          invalid := nofun
          starting := fun _ _ h => by simp [hphase] at h
          copying := fun _ _ h => by simp [hphase] at h
          copied := fun _ _ h => by simp [hphase] at h
          awaiting := fun _ _ h => by simp [hphase] at h
          failed := fun _ _ h => by simp [hphase] at h
          catchup := fun _ _ _ h => by simp [hdone] at h
          handedOver := by
            rintro _ ⟨⟩ - -
            exact .inr ⟨lsn, payload, hstate⟩ }

end LoopStep

lemma coordinated_tableSync {t : TableId}
    (hworker : l.workerType = .tableSync t) (hlive : l.live = false)
    (hactive : l.phase ≠ .idle → w.isActive t = true) (hstate : match l.phase with
      | .starting | .prepared => w.poolState t = some .init ∨ w.poolState t = some .dataSync ∨
          w.poolState t = some .finishedCopy
      | .copying | .slotted => w.poolState t = some .dataSync
      | .copied => w.poolState t = some .finishedCopy
      | .waiting => w.poolState t = some (.syncWait l.startLsn) ∨
          ∃ lsn, w.poolState t = some (.catchup lsn)
      | .failed => ∃ e policy, w.poolState t = some (.errored e policy)
      | _ => True) :
    Coordinated (.tableSync t) l w where
  workerType := hworker
  started h := by simp [hlive] at h
  stopping := nofun
  active := by rintro _ ⟨⟩; exact hactive
  slotless := nofun
  invalid := nofun
  starting := by rintro _ ⟨⟩ (h | h) <;> simpa [h] using hstate
  copying := by rintro _ ⟨⟩ (h | h) <;> simpa [h] using hstate
  copied := by rintro _ ⟨⟩ h; simpa [h] using hstate
  awaiting := by rintro _ ⟨⟩ h; simpa [h] using hstate
  failed := by rintro _ ⟨⟩ h; simpa [h] using hstate
  catchup _ _ h := by simp [hlive] at h
  handedOver _ _ h := by simp [hlive] at h

lemma coordinated_apply (hworker : l.workerType = .apply)
    (hstarted : l.live = true → l.phase = .engaged)
    (hstopping : l.stopping = true → w.shutdown = true)
    (hslotless : l.phase = .slotless → w.slots .apply = none)
    (hinvalid : l.phase = .invalid → ∀ slot, w.slots .apply = some slot → slot.invalidated = true) :
    Coordinated .apply l w where
  workerType := hworker
  started := hstarted
  stopping _ := hstopping
  active := nofun
  slotless _ := hslotless
  invalid _ := hinvalid
  starting := nofun
  copying := nofun
  copied := nofun
  awaiting := nofun
  failed := nofun
  catchup := nofun
  handedOver := nofun

namespace WorkerStep

variable {wal : Option Wal} {l l' : ApplyLoop} {w w' : World}

lemma workerType_eq (h : WorkerStep wal l w l' w') : l'.workerType = l.workerType := by
  cases h with
  | loop h => exact h.workerType_eq
  | _ => rfl

lemma shutdown_eq (h : WorkerStep wal l w l' w') : w'.shutdown = w.shutdown := by
  cases h with
  | loop h => exact h.shutdown_eq
  | _ => rfl

variable {t : TableId}

lemma poolMove (h : WorkerStep wal l w l' w') (hne : l.workerType ≠ .tableSync t) :
    PoolMove w w' t := by
  cases h
  case loop h =>
    rcases h.pool_cases t with ⟨hmove, -⟩ | ⟨hw, -⟩
    · exact hmove
    · exact absurd hw hne
  case beginCopy tableId hworker hlive hphase | finishCopy tableId hworker hlive hphase hschema |
      syncWait tableId hworker hlive hphase | storeError tableId e policy hworker hlive hphase |
      rollback tableId previous store hworker hlive hphase hrolled |
      countAttempts tableId attempts hworker | finish tableId hworker hlive =>
    have ht : t ≠ tableId := fun h => hne (h ▸ hworker)
    exact .of_eq (Function.update_of_ne ht ..)
  all_goals exact .of_eq rfl

lemma slotMove (h : WorkerStep wal l w l' w') {worker : WorkerType} (hne : worker ≠ l.workerType) :
    SlotMove w w' worker := by
  cases h
  case loop h => exact h.slotMove worker
  case dropInvalidSlot hworker hlive hphase |
      createSlot consistentPoint hworker hlive hphase hfree hbeyond =>
    exact .of_eq (Function.update_of_ne (hworker ▸ hne) ..)
  case dropSyncSlot tableId hworker hlive |
      createSyncSlot tableId consistentPoint hworker hlive hphase hfree =>
    exact .of_eq (Function.update_of_ne (hworker ▸ hne) ..)
  all_goals exact .of_eq rfl

lemma coordinated_of_apply (h : WorkerStep wal l w l' w') (hl : Coordinated .apply l w) :
    Coordinated .apply l' w' := by
  have hworker' := h.workerType_eq.trans hl.workerType
  have hnot : ∀ {t}, l.workerType ≠ .tableSync t := by
    intro t ht
    rw [hl.workerType] at ht
    cases ht
  have hstopping := hl.stopping rfl
  cases h
  case loop h => exact h.coordinated hl
  case leave hrunning hdrained =>
    exact coordinated_apply hworker' (fun _ => rfl) hstopping nofun nofun
  case retry attempts =>
    exact coordinated_apply hworker' hl.started hstopping (hl.slotless rfl) (hl.invalid rfl)
  case launch hworker hlive =>
    exact coordinated_apply hworker' (fun _ => rfl) hstopping nofun nofun
  case slotMissing hworker hlive hgoing hmissing =>
    exact coordinated_apply hworker' (fun h => by simp [hlive] at h) hstopping (fun _ => hmissing)
      nofun
  case slotFound slot hworker hlive hgoing hfound =>
    exact coordinated_apply hworker' (fun h => by simp [hlive] at h) hstopping nofun nofun
  case slotValid slot hworker hlive hphase hfound hvalid =>
    exact coordinated_apply hworker' (fun h => by simp [hlive] at h) hstopping nofun nofun
  case slotInvalid slot hworker hlive hphase hinvalid hfound =>
    refine coordinated_apply hworker' (fun h => by simp [hlive] at h) hstopping nofun
      fun _ slot' hslot' => ?_
    rw [hfound] at hslot'
    cases hslot'
    exact hinvalid
  case dropCheckpoint hworker hlive hphase =>
    exact coordinated_apply hworker' (fun h => by simp [hlive] at h) hstopping nofun nofun
  case resetForResync hworker hlive hphase =>
    exact coordinated_apply hworker' (fun h => by simp [hlive] at h) hstopping nofun nofun
  case dropInvalidSlot hworker hlive hphase =>
    exact coordinated_apply hworker' hl.started hstopping (fun h => nomatch hphase.symm.trans h)
      fun h => nomatch hphase.symm.trans h
  case createSlot consistentPoint hworker hlive hphase hfree hbeyond =>
    exact coordinated_apply hworker' (fun h => by simp [hlive] at h) hstopping nofun nofun
  case resolve hworker hlive hphase =>
    exact coordinated_apply hworker' (fun h => by simp [hlive] at h) hstopping nofun nofun
  case startApply hworker hlive hphase =>
    exact coordinated_apply hworker' (fun _ => rfl) nofun nofun nofun
  all_goals exact absurd ‹l.workerType = _› hnot

lemma poolState_written {state : TableState} (hactive : w.isActive t = true) :
    (w.setAndStore t state).poolState t = some state := by
  obtain ⟨old, hold⟩ := Option.isSome_iff_exists.1 (poolState_isSome_of_isActive hactive)
  rw [poolState_setAndStore, poolState_setPoolState, if_pos rfl, hold]
  rfl

lemma coordinated_of_tableSync (h : WorkerStep wal l w l' w')
    (hl : Coordinated (.tableSync t) l w) : Coordinated (.tableSync t) l' w' := by
  have hworker' := h.workerType_eq.trans hl.workerType
  have hnot := WorkerType.ne_apply hl.workerType
  have hactive := hl.active t rfl
  cases h
  case loop h => exact h.coordinated hl
  case leave hrunning hdrained =>
    exact coordinated_tableSync hworker' rfl (fun _ => hactive hrunning.running) trivial
  case retry attempts => exact { hl with }
  all_goals try exact absurd ‹l.workerType = _› hnot
  case engage tableId hworker hlive hact =>
    cases hl.workerType.symm.trans hworker
    exact coordinated_tableSync hworker' hlive (fun _ => hact) trivial
  case enter tableId hworker hlive hphase hstate =>
    cases hl.workerType.symm.trans hworker
    exact coordinated_tableSync hworker' hlive (fun _ => hactive (by simp [hphase])) hstate
  case dropSyncSlot tableId hworker hlive => exact { hl with slotless := nofun, invalid := nofun }
  case dropSyncCheckpoint tableId hworker hlive => exact { hl with }
  case prepareForCopy tableId hworker hlive hphase =>
    cases hl.workerType.symm.trans hworker
    exact coordinated_tableSync hworker' hlive (fun _ => hactive (by simp [hphase]))
      (hl.starting t rfl (.inl hphase))
  case beginCopy tableId hworker hlive hphase =>
    cases hl.workerType.symm.trans hworker
    have hact := hactive (by simp [hphase])
    exact coordinated_tableSync hworker' hlive (fun _ => isActive_setAndStore.trans hact)
      (poolState_written hact)
  case createSyncSlot tableId consistentPoint hworker hlive hphase hfree =>
    cases hl.workerType.symm.trans hworker
    exact coordinated_tableSync hworker' hlive (fun _ => hactive (by simp [hphase]))
      (hl.copying t rfl (.inl hphase))
  case storeCopySchema tableId tableSchema hworker hlive hphase hid hinitial => exact { hl with }
  case finishCopy tableId hworker hlive hphase hschema =>
    cases hl.workerType.symm.trans hworker
    have hact := hactive (by simp [hphase])
    exact coordinated_tableSync hworker' hlive (fun _ => isActive_setAndStore.trans hact)
      (poolState_written hact)
  case syncWait tableId hworker hlive hphase =>
    cases hl.workerType.symm.trans hworker
    have hact := hactive (by simp [hphase])
    exact coordinated_tableSync hworker' hlive (fun _ => isActive_setAndStore.trans hact)
      (.inl (poolState_written hact))
  case follow tableId schema target hworker hlive hphase hcopied hfits hstate =>
    cases hl.workerType.symm.trans hworker
    exact
      { workerType := hworker'
        started := fun _ => rfl
        stopping := nofun
        active := by rintro _ ⟨⟩ -; exact hactive (by simp [hphase])
        slotless := nofun
        invalid := nofun
        starting := by rintro _ - (h | h) <;> cases h
        copying := by rintro _ - (h | h) <;> cases h
        copied := nofun
        awaiting := nofun
        failed := nofun
        catchup := by rintro _ ⟨⟩ - -; exact hstate
        handedOver := nofun }
  case storeError tableId e policy hworker hlive hphase =>
    cases hl.workerType.symm.trans hworker
    have hact := hactive (by simp [hphase])
    exact coordinated_tableSync hworker' hlive (fun _ => isActive_setAndStore.trans hact)
      ⟨e, policy, poolState_written hact⟩
  case rollback tableId previous store hworker hlive hphase hrolled =>
    cases hl.workerType.symm.trans hworker
    exact coordinated_tableSync hworker' hlive
      (fun _ => isActive_setPoolState.trans (hactive (by simp [hphase]))) trivial
  case countAttempts tableId attempts hworker =>
    exact hl.frame (fun _ _ => .same poolState_setRetryAttempts isActive_setRetryAttempts) nofun id
  case finish tableId hworker hlive =>
    exact coordinated_tableSync hworker' hlive (fun h => absurd rfl h) trivial

lemma coordinated {worker : WorkerType} (h : WorkerStep wal l w l' w')
    (hl : Coordinated worker l w) : Coordinated worker l' w' := by
  cases worker with
  | apply => exact h.coordinated_of_apply hl
  | tableSync t => exact h.coordinated_of_tableSync hl

end WorkerStep

/-! ## Runs -/

structure Memory where
  world : World
  loops : WorkerType → ApplyLoop

namespace Memory

def initial : Memory := ⟨.initial, ApplyLoop.unstarted⟩

def IsCoordinated (m : Memory) : Prop :=
  ∀ worker, Coordinated worker (m.loops worker) m.world

inductive Moves (wal : Option Wal) (m : Memory) : Memory → Prop
  | worker (worker : WorkerType) {l' : ApplyLoop} {w' : World}
      (step : WorkerStep wal (m.loops worker) m.world l' w') :
      Moves wal m ⟨w', Function.update m.loops worker l'⟩
  | environment (action : Action) {w' : World}
      (step : System.environment m.world action = some w') : Moves wal m { m with world := w' }
  | restart : Moves wal m ⟨m.world.restart, ApplyLoop.unstarted⟩
  | idle : Moves wal m m

variable {wal : Option Wal} {m m' : Memory}

lemma isCoordinated_unstarted (w : World) : IsCoordinated ⟨w, ApplyLoop.unstarted⟩ := by
  intro worker
  cases worker with
  | apply => exact coordinated_apply rfl nofun nofun nofun nofun
  | tableSync t => exact coordinated_tableSync rfl rfl (fun h => absurd rfl h) trivial

lemma coordinated_environment {worker : WorkerType} {l : ApplyLoop} {w w' : World}
    {action : Action} (h : System.environment w action = some w') (hl : Coordinated worker l w) :
    Coordinated worker l w' := by
  have hslot : ∀ (k : WorkerType) (f : Slot → Option Slot),
      (∀ slot slot', f slot = some slot' → slot.invalidated = true → slot'.invalidated = true) →
        SlotMove w (w.updateSlot k f) .apply := by
    intro k f hf
    by_cases hk : WorkerType.apply = k
    · subst hk
      refine ⟨fun h => by simp [updateSlot, h], fun slot' hslot' => ?_⟩
      simp only [updateSlot, Function.update_self, Option.bind_eq_some_iff] at hslot'
      obtain ⟨slot, hslot, hfs⟩ := hslot'
      exact ⟨slot, hslot, hf slot slot' hfs⟩
    · exact .of_eq (by simp [updateSlot, hk])
  cases action with
  | turn _ _ => cases h
  | restart => cases h
  | shutdown => cases h; exact hl.frame (fun _ _ => .of_eq rfl) (fun _ => .of_eq rfl) fun _ => rfl
  | regress k lsn =>
    cases h
    refine hl.frame (fun _ _ => .of_eq rfl) (fun _ => hslot k _ ?_) id
    rintro slot _ ⟨⟩ hinv
    exact hinv
  | invalidate k =>
    cases h
    refine hl.frame (fun _ _ => .of_eq rfl) (fun _ => hslot k _ ?_) id
    rintro slot _ ⟨⟩ -
    rfl
  | loseSlot k => cases h; exact hl.frame (fun _ _ => .of_eq rfl) (fun _ => hslot k _ nofun) id
  | cleanUp k count failed => cases h; exact hl.frame (fun _ _ => .of_eq rfl) (fun _ => .of_eq rfl) id
  | setMetadata t metadata => cases h; exact hl.frame (fun _ _ => .of_eq rfl) (fun _ => .of_eq rfl) id
  | register t =>
    simp only [System.environment] at h
    split at h
    · cases h
      exact hl.frame (fun _ _ => .of_eq rfl) (fun _ => .of_eq rfl) id
    · cases h

lemma Moves.isCoordinated (h : Moves wal m m') (hm : m.IsCoordinated) : m'.IsCoordinated := by
  cases h with
  | worker k step =>
    intro j
    by_cases hj : j = k
    · subst hj
      simpa using step.coordinated (hm j)
    · have hk := (hm k).workerType
      have hl : Coordinated j (m.loops j) _ := (hm j).frame
        (fun t ht => step.poolMove (by rw [hk, ← ht]; exact fun h => hj h.symm))
        (fun ha => step.slotMove (by rw [hk, ← ha]; exact hj)) fun hs => step.shutdown_eq.trans hs
      simpa [hj] using hl
  | environment action step => exact fun j => coordinated_environment step (hm j)
  | restart => exact isCoordinated_unstarted _
  | idle => exact hm

end Memory

namespace System

def memory (s : System) : Memory := ⟨s.world, fun worker => (s.threads worker).loc⟩

inductive Reachable (config : Config) (Allowed : Memory → Memory → Prop) : System → Prop
  | initial : Reachable config Allowed initial
  | step {s s' : System} (action : Action) (reached : Reachable config Allowed s)
      (next : s.step config action = some s') (allowed : Allowed s.memory s'.memory) :
      Reachable config Allowed s'

abbrev AnyStep : Memory → Memory → Prop := fun _ _ => True

variable {config : Config} {s : System}

def round (config : Config) (worker : WorkerType) (input : Input) : Nat → System → System
  | 0, s => s
  | fuel + 1, s =>
    match s.step config (.turn worker input) with
    | none => s
    | some s' =>
      match (s'.threads worker).prog with
      | .done _ => s'
      | _ => s'.round config worker input fuel

def advance (config : Config) (s : System) : Action → System
  | .turn worker input => s.round config worker input 200
  | action => (s.step config action).getD s

def play (config : Config) (s : System) (actions : List Action) : System :=
  actions.foldl (advance config) s

variable {worker : WorkerType}

lemma reachable_round {input : Input} (hs : Reachable config AnyStep s) (fuel : Nat) :
    Reachable config AnyStep (s.round config worker input fuel) := by
  induction fuel generalizing s with
  | zero => exact hs
  | succ fuel ih =>
    unfold round
    split
    · exact hs
    · rename_i s' hnext
      have hs' : Reachable config AnyStep s' := .step _ hs hnext trivial
      split
      · exact hs'
      · exact ih hs'

lemma reachable_play (hs : Reachable config AnyStep s)
    (actions : List Action) : Reachable config AnyStep (s.play config actions) := by
  induction actions generalizing s with
  | nil => exact hs
  | cons action rest ih =>
    refine ih ?_
    unfold advance
    split
    · exact reachable_round hs 200
    · cases hnext : s.step config action with
      | none => exact hs
      | some s' => exact .step action hs hnext trivial

lemma loops_eq_of_step {action : Action} {s' : System} (h : s.step config action = some s')
    (hnot : ∀ input, action ≠ .turn worker input) :
    s'.memory.loops worker = s.memory.loops worker ∨ s'.memory.loops worker = .unstarted worker := by
  cases action with
  | turn k input =>
    obtain ⟨⟨t', w'⟩, -, rfl⟩ := Option.map_eq_some_iff.1 h
    have hk : worker ≠ k := by
      rintro rfl
      exact hnot input rfl
    exact .inl (by simp [memory, hk])
  | restart =>
    cases h
    exact .inr rfl
  | _ =>
    simp only [step] at h
    obtain ⟨w', -, rfl⟩ := Option.map_eq_some_iff.1 h
    exact .inl rfl

def roundPasses (check : Action → System → System → Bool) (config : Config) (worker : WorkerType)
    (input : Input) : Nat → System → Bool
  | 0, _ => true
  | fuel + 1, s =>
    match s.step config (.turn worker input) with
    | none => true
    | some s' =>
      check (.turn worker input) s s' &&
        match (s'.threads worker).prog with
        | .done _ => true
        | _ => s'.roundPasses check config worker input fuel

def playPasses (check : Action → System → System → Bool) (config : Config) :
    System → List Action → Bool
  | _, [] => true
  | s, action :: actions =>
    (match action with
      | .turn worker input => s.roundPasses check config worker input 200
      | action => (s.step config action).all (check action s)) &&
      (s.advance config action).playPasses check config actions

section Passes

variable {config : Config} {Allowed : Memory → Memory → Prop}
  {check : Action → System → System → Bool}
  (hcheck : ∀ {action : Action} {s s' : System}, s.step config action = some s' →
    check action s s' = true → Allowed s.memory s'.memory)

include hcheck

lemma reachable_round_of_passes {worker : WorkerType} {input : Input} {s : System}
    (hs : Reachable config Allowed s) {fuel : Nat}
    (h : s.roundPasses check config worker input fuel = true) :
    Reachable config Allowed (s.round config worker input fuel) := by
  induction fuel generalizing s with
  | zero => exact hs
  | succ fuel ih =>
    unfold roundPasses at h
    unfold round
    split
    · exact hs
    · rename_i s' hnext
      simp only [hnext, Bool.and_eq_true] at h
      have hs' : Reachable config Allowed s' := .step _ hs hnext (hcheck hnext h.1)
      split
      · exact hs'
      · rename_i hprog
        refine ih hs' ?_
        split at h
        · rename_i heq
          exact absurd heq (hprog _)
        · exact h.2

lemma reachable_play_of_passes {s : System} (hs : Reachable config Allowed s)
    {actions : List Action} (h : s.playPasses check config actions = true) :
    Reachable config Allowed (s.play config actions) := by
  induction actions generalizing s with
  | nil => exact hs
  | cons action rest ih =>
    simp only [playPasses, Bool.and_eq_true] at h
    refine ih ?_ h.2
    have hfirst := h.1
    unfold advance
    split at hfirst
    · exact reachable_round_of_passes hcheck hs hfirst
    · cases hnext : s.step config action with
      | none => exact hs
      | some s' =>
        rw [hnext] at hfirst
        exact .step action hs hnext (hcheck hnext hfirst)

end Passes

def sampleConfig (wal : Option Wal) : Config where
  publicationName := "publication"
  codec := ⟨fun _ _ => .ok ⟨[]⟩, fun _ _ => .ok ⟨[]⟩, fun _ _ _ => .ok (.full ⟨[]⟩)⟩
  invalidatedSlotBehavior := .error
  failover := false
  tableErrorRetryMaxAttempts := 3
  wal := wal

structure Proceeds (config : Config) (s : System) : Prop where
  coordinated : s.memory.IsCoordinated
  code : ∀ worker, Prog.Sat (Coordinated worker) (WorkerStep config.wal)
    (fun _ => ApplyLoop.MayFail) (s.threads worker).prog Continues (s.threads worker).loc

lemma script_guarantees (config : Config) (worker : WorkerType) :
    (script config worker).Guarantees (Coordinated worker) (WorkerStep config.wal) Continues
      (fun _ => ApplyLoop.MayFail) := by
  cases worker with
  | apply => exact applyScript_guarantees config
  | tableSync t => exact tableSyncScript_guarantees config t

variable {config : Config} {s s' : System}

lemma proceeds_idle (w : World) : Proceeds config ⟨w, idleThread⟩ :=
  ⟨Memory.isCoordinated_unstarted w, fun _ => ⟨rfl, fun _ => rfl⟩⟩

lemma Proceeds.turn (hs : Proceeds config s) {input : Input}
    (h : s.step config (.turn worker input) = some s') :
    WorkerStep config.wal (s.memory.loops worker) s.world (s'.memory.loops worker) s'.world ∨
      s'.world = s.world := by
  obtain ⟨⟨t', w'⟩, hturn, rfl⟩ := Option.map_eq_some_iff.1 h
  obtain ⟨-, hstep⟩ := Thread.step_guarantees (script_guarantees config worker)
    (hs.code worker) (hs.coordinated worker) hturn
  rcases hstep with hstep | ⟨-, rfl⟩
  · exact .inl (by simpa [memory] using hstep)
  · exact .inr rfl

lemma Proceeds.step (hs : Proceeds config s) {action : Action}
    (h : s.step config action = some s') :
    Proceeds config s' ∧ Memory.Moves config.wal s.memory s'.memory := by
  have henv : ∀ w', environment s.world action = some w' →
      Proceeds config { s with world := w' } ∧
        Memory.Moves config.wal s.memory ({ s with world := w' } : System).memory := by
    intro w' hw'
    have hmove : Memory.Moves config.wal s.memory ({ s with world := w' } : System).memory :=
      .environment action hw'
    exact ⟨⟨hmove.isCoordinated hs.coordinated, hs.code⟩, hmove⟩
  cases action with
  | turn worker input =>
    obtain ⟨⟨t', w'⟩, hturn, rfl⟩ := Option.map_eq_some_iff.1 h
    obtain ⟨hcode, hstep⟩ := Thread.step_guarantees (script_guarantees config worker)
      (hs.code worker) (hs.coordinated worker) hturn
    have hmem : (⟨w', Function.update s.threads worker t'⟩ : System).memory =
        ⟨w', Function.update s.memory.loops worker t'.loc⟩ := by
      simp only [memory, Memory.mk.injEq, true_and]
      funext j
      by_cases hj : j = worker
      · subst hj
        simp
      · simp [hj]
    have hmove : Memory.Moves config.wal s.memory
        (⟨w', Function.update s.threads worker t'⟩ : System).memory := by
      rw [hmem]
      rcases hstep with hstep | ⟨hloc, rfl⟩
      · exact .worker worker hstep
      · rw [hloc, show (s.threads worker).loc = s.memory.loops worker from rfl,
          Function.update_eq_self]
        exact .idle
    refine ⟨⟨hmove.isCoordinated hs.coordinated, fun j => ?_⟩, hmove⟩
    by_cases hj : j = worker
    · subst hj
      simpa using hcode
    · simpa [hj] using hs.code j
  | restart =>
    cases h
    exact ⟨proceeds_idle _, .restart⟩
  | _ =>
    simp only [System.step] at h
    obtain ⟨w', hw', rfl⟩ := Option.map_eq_some_iff.1 h
    exact henv w' hw'

variable {Allowed : Memory → Memory → Prop}

lemma Reachable.proceeds (h : Reachable config Allowed s) : Proceeds config s := by
  induction h with
  | initial => exact proceeds_idle _
  | step action _ hnext _ ih => exact (ih.step hnext).1

lemma Reachable.invariant {J : Memory → Prop} (h : Reachable config Allowed s) (hinit : J .initial)
    (hstep : ∀ s m', Reachable config Allowed s → J s.memory → s.memory.Moves config.wal m' →
      Allowed s.memory m' → J m') :
    J s.memory := by
  induction h with
  | initial => exact hinit
  | step action hreached hnext hallowed ih =>
    exact hstep _ _ hreached ih (hreached.proceeds.step hnext).2 hallowed

lemma Reachable.loop_invariant {J : ApplyLoop → Prop}
    (h : Reachable config Allowed s) (worker : WorkerType)
    (hunstarted : ∀ worker, J (.unstarted worker)) (hstart : ∀ l startLsn decoders target,
      J (ApplyLoop.startLoop l config.wal startLsn decoders target))
    (hstep : ∀ s worker l' w', Reachable config Allowed s → J (s.memory.loops worker) →
      LoopStep (s.memory.loops worker) s.memory.world l' w' → J l')
    (haside : ∀ l l', J l → ApplyLoop.Aside l l' → J l') : J (s.memory.loops worker) := by
  refine h.invariant (J := fun m => ∀ worker, J (m.loops worker)) hunstarted ?_ worker
  intro s m' hs hm hmove _ j
  cases hmove with
  | worker k step =>
    by_cases hj : j = k
    · subst hj
      simp only [Function.update_self]
      rcases step.loop_cases with hloop | ⟨decoders, target, rfl⟩ | hmoved
      · exact hstep s j _ _ hs (hm j) hloop
      · exact hstart _ _ _ _
      · exact haside _ _ (hm j) hmoved
    · simpa [hj] using hm j
  | environment action step => exact hm j
  | restart => exact hunstarted j
  | idle => exact hm j

end System

lemma fifteen_lt_twenty : (15 : PgLsn) < 20 := by decide

lemma forall_isChange_nil : ∀ c ∈ ([] : List LogicalReplicationMessage), c.isChange := by simp

end Etl
