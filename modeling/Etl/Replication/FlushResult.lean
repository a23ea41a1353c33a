import Etl.Replication.Coordination

/-!
# Write results

What an apply loop does when the destination answers.
-/

namespace Etl

/-! ## Coordination after a flush and while quiescent -/

def shouldApplyChanges (deciding : Bool) (tableId : TableId) (lsn : PgLsn) : Task Bool := do
  match ← readLoop (·.workerType) with
  | .apply => ApplyWorker.shouldApplyChanges deciding tableId lsn
  | .tableSync t => pure (t = tableId)

def recordExitIntent (exitIntent : Option ExitIntent) : Task Unit :=
  modifyLoop fun l => { l with state := l.state.recordExitIntent exitIntent }

def persistReplicationCheckpoint (lsn : PgLsn) : Task Unit :=
  request fun l w =>
    (.ok (), l, { w with store := w.store.upsertReplicationCheckpoint l.workerType lsn })

/-- The worker's part of `process_syncing_tables_after_flush`. -/
def workerAfterFlush (currentLsn : PgLsn) : Task (Option ExitIntent) := do
  match ← readLoop (·.workerType) with
  | .apply =>
    ApplyWorker.processSyncingTablesAfterFlush currentLsn
    pure none
  | .tableSync tableId => TableSyncWorker.tryCompleteCatchup tableId currentLsn

def processSyncingTablesAfterFlush (currentLsn : PgLsn) : Task Unit := do
  modifyLoop fun l => { l with state := l.state.updateLastFlushLsn currentLsn }
  let exitIntent ← workerAfterFlush currentLsn
  recordExitIntent exitIntent
  persistReplicationCheckpoint currentLsn

/-- The worker's part of `process_syncing_tables_when_quiescent`. -/
def workerWhenQuiescent (currentLsn : PgLsn) : Task (Option ExitIntent) := do
  match ← readLoop (·.workerType) with
  | .apply => ApplyWorker.processSyncingTablesWhenQuiescent currentLsn
  | .tableSync tableId => TableSyncWorker.tryCompleteCatchup tableId currentLsn

def processSyncingTablesWhenQuiescent : Task Unit := do
  let st ← readLoop (·.state)
  if st.isQuiescent then
    let exitIntent ← workerWhenQuiescent st.progress.lastReceivedLsn
    recordExitIntent exitIntent
  else pure ()

def tableSyncCatchupTargetReached (lastReceivedLsn : PgLsn) : Task Bool := do
  match ← readLoop (·.workerType) with
  | .apply => pure false
  | .tableSync tableId => TableSyncWorker.catchupTargetReached tableId lastReceivedLsn

def catchupBarrierDue (st : ApplyLoopState) : Task Bool :=
  if !st.handlingTransaction && !st.hasUnresolvedBatchWork && st.lastCommitEndLsn.isSome then
    tableSyncCatchupTargetReached st.progress.lastReceivedLsn
  else pure false

def maybeProcessSyncingTablesWhenQuiescent : Task Unit := do
  let st ← readLoop (·.state)
  if st.exitIntent.isSome then pure ()
  else
    if ← catchupBarrierDue st then
      -- intake stops before the barrier is dispatched, and the barrier requires durability
      recordExitIntent (some .complete)
      dispatchWriteEvents fun _ => .empty
    else processSyncingTablesWhenQuiescent

/-! ## Schema cleanup -/

def getRetentionSnapshotId (checkpoint : PgLsn) (tableId : TableId) : Task (Option SnapshotId) :=
  request fun l w =>
    match w.store.destinationTablesMetadata tableId with
    | none => (.ok none, l, w)
    | some metadata =>
      let boundary := schemaCleanupRetentionSnapshotId checkpoint metadata.retentionSnapshotId
      (.ok (some boundary), { l with retained := (tableId, boundary) :: l.retained }, w)

def getTableSchemaRetentionSnapshotIds (checkpoint : PgLsn) :
    List TableId → OrderedMap TableId SnapshotId → Task (OrderedMap TableId SnapshotId)
  | [], boundaries => pure boundaries
  | tableId :: rest, boundaries => do
    if ← shouldApplyChanges false tableId checkpoint then
      match ← getRetentionSnapshotId checkpoint tableId with
      | none => getTableSchemaRetentionSnapshotIds checkpoint rest boundaries
      | some boundary =>
        getTableSchemaRetentionSnapshotIds checkpoint rest (boundaries.insert tableId boundary)
    else getTableSchemaRetentionSnapshotIds checkpoint rest boundaries

def getCleanupCheckpoint : Task (Option PgLsn) :=
  request fun l w =>
    let checkpoint := w.store.replicationCheckpoints l.workerType
    (.ok checkpoint, { l with checkpointSeen := checkpoint, retained := [] }, w)

def queueSchemaCleanup (boundaries : OrderedMap TableId SnapshotId) : Task Unit :=
  Prog.atom
    (fun i l w =>
      let deferred := (boundaries.entries.drop i.capacity).map (·.1)
      some ((),
        { l with
          state := { l.state with
            pendingRelationTableIds := l.state.pendingRelationTableIds.filter (· ∈ deferred) } },
        { w with
          cleanup := Function.update w.cleanup l.workerType
            (w.cleanup l.workerType ++ boundaries.entries.take i.capacity) }))
    .done

/-- Failures are only logged; the tables stay pending. -/
def tryQueueSchemaCleanup : Task Unit := do
  let pending ← readLoop (·.state.pendingRelationTableIds)
  if pending.isEmpty then pure ()
  else
    match ← getCleanupCheckpoint.attempt with
    | .ok (some checkpoint) =>
      match ← (getTableSchemaRetentionSnapshotIds checkpoint pending .empty).attempt with
      | .ok boundaries =>
        if boundaries.entries.isEmpty then
          modifyLoop fun l => { l with state := { l.state with pendingRelationTableIds := [] } }
        else queueSchemaCleanup boundaries
      | .error _ => pure ()
    | _ => pure ()

/-! ## The result of a write -/

def resolveWrite (result : Except EtlError DestinationWriteStatus) :
    Task (Bool × WriteMetadata × DestinationWriteStatus) :=
  Prog.call fun _ l w =>
    l.state.pendingFlushResult.map fun metadata =>
      let (processingPaused, st) := l.state.resumeProcessing
      match result with
      | .error e => (.error e, { l with state := st, resolved := l.resolved + 1, live := false }, w)
      | .ok status =>
        let st := { st with
          pendingRelationTableIds := st.pendingRelationTableIds ++ metadata.relationTableIds }
        match metadata.durability, status with
        | .requireDurable, .accepted =>
          (.error ⟨.destinationError,
            "Destination was expected to durably persist last batch but it didn't do it"⟩,
            { l with state := st, resolved := l.resolved + 1, live := false }, w)
        | .mayDefer, .accepted =>
          (.ok (processingPaused, metadata, status),
            { l with
              state := ({ st with
                pendingDurabilityInterval :=
                  st.pendingDurabilityInterval || decide (0 < metadata.eventCount) }
                |>.updateLastCommitEndLsn metadata.commitEndLsn).setFlushDeadlineIfNeeded
              resolved := l.resolved + 1 }, w)
        | _, .durable =>
          (.ok (processingPaused, metadata, status),
            { l with
              state := { st with pendingDurabilityInterval := false }
              resolved := l.resolved + 1
              covered := l.dispatched
              settled := metadata.commitEndLsn },
            (w.discharge l.workerType (committedOf (l.produced.take l.dispatched))).recordSynced
              l.workerType (l.produced.take l.dispatched))

def coverCommit (metadata : WriteMetadata) (status : DestinationWriteStatus) : Task Unit :=
  match status, metadata.commitEndLsn with
  | .durable, some commitEndLsn => do
    processSyncingTablesAfterFlush commitEndLsn
    tryQueueSchemaCleanup
  | _, _ => pure ()

def completeBarrier (metadata : WriteMetadata) (status : DestinationWriteStatus) : Task Unit := do
  let st ← readLoop (·.state)
  if metadata.eventCount = 0 ∧ metadata.durability = .requireDurable ∧ status = .durable ∧
      st.exitIntent = some .complete ∧ st.isQuiescent then
    processSyncingTablesWhenQuiescent
  else pure ()

def coordinateResult (metadata : WriteMetadata) (status : DestinationWriteStatus) : Task Unit := do
  coverCommit metadata status
  completeBarrier metadata status

def handleFlushResult (result : Except EtlError DestinationWriteStatus) : Task Unit := do
  let (processingPaused, metadata, status) ← resolveWrite result
  coordinateResult metadata status
  if processingPaused then flushBatch else pure ()

/-! ## What the coordination does -/

section Coordination

variable {worker : WorkerType} {l : ApplyLoop} {currentLsn : PgLsn}

lemma meets_persistReplicationCheckpoint (hlive : l.live = true) (hwaiting : l.waiting = none)
    (hsettled : l.settled = some currentLsn) :
    Meets worker (persistReplicationCheckpoint currentLsn) (fun _ => Eq l) l :=
  meets_request hwaiting nofun fun w _ =>
    ⟨.persist l w currentLsn hlive hsettled, fun _ _ => rfl⟩

lemma meets_recordExitIntent {exitIntent : Option ExitIntent}
    (hreason : exitIntent = some .complete →
      (∃ tableId, worker = .tableSync tableId) ∧ (l.done = true ∨ l.ReachesTarget)) :
    Meets worker (recordExitIntent exitIntent)
      (fun _ l' => l' = { l with state := l.state.recordExitIntent exitIntent }) l := by
  refine meets_modifyLoop (fun w hI => ?_) fun _ => rfl
  rcases exitIntent with _ | (_ | _)
  · exact .idle l w
  · exact .recordPause l w
  · obtain ⟨⟨tableId, rfl⟩, hdone⟩ := hreason rfl
    exact .recordComplete l w tableId hI.workerType hdone

lemma meets_readWorkerType {E : EtlError → ApplyLoop → Prop} :
    Prog.Sat (Coordinated worker) LoopStep E (readLoop (·.workerType))
      (fun kind l' => kind = worker ∧ l.workerType = worker ∧ l = l') l :=
  meets_readLoop fun hworker => ⟨hworker, hworker, rfl⟩

lemma meets_workerAfterFlush (hrest : l.Resting) (hsettled : l.settled = some currentLsn)
    (hreached : ∀ tableId, l.workerType = .tableSync tableId → l.target ≤ currentLsn →
      l.state.isQuiescent) :
    Meets worker (workerAfterFlush currentLsn)
      (fun exitIntent l' =>
        exitIntent = none ∧ ApplyLoop.SameCore l l' ∧ l'.settled = l.settled ∧
          (∀ tableId, l.workerType = .tableSync tableId → l.done = true ∨ currentLsn < l.target) ∨
        exitIntent = some .complete ∧ (∃ tableId, worker = .tableSync tableId) ∧
          l.state.isQuiescent ∧ l' = { l with done := true }) l := by
  refine meets_readWorkerType.bind ?_
  rintro kind l' ⟨rfl, hworker, rfl⟩
  cases kind with
  | apply =>
    refine (ApplyWorker.meets_processSyncingTablesAfterFlush hrest.live hrest.handling
      hsettled hrest.waiting).bind ?_
    rintro - l' ⟨listed, checkpoint, decoders, observed, rfl⟩
    refine .inl ⟨rfl, by constructor <;> rfl, rfl, fun _ h => ?_⟩
    rw [hworker] at h
    cases h
  | tableSync tableId =>
    refine (TableSyncWorker.meets_tryCompleteCatchup hrest.live hrest.toAtRest fun _ hle =>
      ⟨hreached tableId hworker hle, .inl hsettled⟩).mono ?_ fun _ _ h => h
    rintro exitIntent l' (⟨rfl, rfl, h⟩ | ⟨rfl, hdone, hle, rfl⟩)
    · exact .inl ⟨rfl, .refl _, rfl, fun _ _ => h⟩
    · exact .inr ⟨rfl, ⟨tableId, rfl⟩, hreached tableId hworker hle, rfl⟩

lemma meets_processSyncingTablesAfterFlush (hrest : l.Resting)
    (hsettled : l.settled = some currentLsn)
    (hreached : ∀ tableId, l.workerType = .tableSync tableId → l.target ≤ currentLsn →
      l.state.isQuiescent) :
    Meets worker (processSyncingTablesAfterFlush currentLsn)
      (fun _ l' => ApplyLoop.SameCore l l' ∧ (∀ tableId, l.workerType = .tableSync tableId →
        l.done = true ∨ currentLsn < l.target) ∨ l'.Rest) l := by
  refine (meets_modifyLoop (Q := fun _ l' => l.workerType = worker ∧ ApplyLoop.SameCore l l' ∧
    l'.settled = l.settled) (fun w _ => .flushed l w currentLsn hrest.live hsettled)
    fun hworker => ⟨hworker, by constructor <;> rfl, rfl⟩).bind ?_
  rintro - l₁ ⟨hworker, hcore, hsettled₁⟩
  rw [hsettled] at hsettled₁
  have hreached₁ : ∀ tableId, l₁.workerType = .tableSync tableId → l₁.target ≤ currentLsn →
      l₁.state.isQuiescent := by
    rw [hcore.workerType, hcore.target, hcore.isQuiescent]
    exact hreached
  refine (meets_workerAfterFlush (hcore.resting hrest) hsettled₁ hreached₁).bind ?_
  rintro exitIntent l₂ (⟨rfl, hsame, hsettled₂, hnot⟩ | ⟨rfl, hsync, hq, rfl⟩)
  · refine (meets_recordExitIntent (by simp)).bind ?_
    rintro - l' rfl
    refine (meets_persistReplicationCheckpoint (hsame.live.trans (hcore.live.trans hrest.live))
      (hsame.waiting.trans (hcore.waiting.trans hrest.waiting)) (hsettled₂.trans hsettled₁)).mono ?_ fun _ _ h => h
    rintro - l' rfl
    rw [hcore.workerType, hcore.done, hcore.target] at hnot
    exact .inl ⟨hcore.trans hsame, hnot⟩
  · refine (meets_recordExitIntent fun _ => ⟨hsync, .inl rfl⟩).bind ?_
    rintro - l' rfl
    refine Prog.Sat.mono (meets_persistReplicationCheckpoint (hcore.live.trans hrest.live)
      (hcore.waiting.trans hrest.waiting) ?_) ?_ fun _ _ h => h
    · exact hsettled₁
    rintro - l' rfl
    obtain ⟨tableId, rfl⟩ := hsync
    exact .inr ((hcore.resting hrest).finish hq (by rw [hcore.workerType, hworker]; simp))

lemma meets_workerWhenQuiescent (hrest : l.Resting)
    (hgoing : worker = .apply → l.stopping = false) (hq : l.state.isQuiescent) :
    Meets worker (workerWhenQuiescent l.state.progress.lastReceivedLsn)
      (fun exitIntent l' =>
        exitIntent = none ∧ ApplyLoop.SameCore l l' ∧ (∀ tableId, worker = .tableSync tableId →
          l.done = true ∨ l.state.progress.lastReceivedLsn < l.target) ∨
        exitIntent = some .pause ∧ worker = .apply ∧ (∃ l₁, ApplyLoop.SameCore l l₁ ∧
          l' = { l₁ with stopping := true }) ∨
        exitIntent = some .complete ∧ (∃ tableId, worker = .tableSync tableId) ∧
          l' = { l with done := true }) l := by
  refine meets_readWorkerType.bind ?_
  rintro kind l' ⟨rfl, hworker, rfl⟩
  have hfinal := (ApplyLoopState.isQuiescent_iff.1 hq).1
  cases kind with
  | apply =>
    refine (ApplyWorker.meets_processSyncingTablesWhenQuiescent ⟨hrest.live, hrest.waiting,
      hgoing rfl, .inr ⟨hrest.handling, hrest.tx.trans hfinal, hfinal, rfl⟩⟩ hrest.handling
      rfl).mono ?_ fun _ _ h => h
    rintro exitIntent l' ⟨listed, checkpoint, decoders, observed, ⟨rfl, rfl⟩ | ⟨rfl, rfl⟩⟩
    · exact .inl ⟨rfl, by constructor <;> rfl, fun _ h => nomatch h⟩
    · exact .inr (.inl ⟨rfl, rfl, _, by constructor <;> rfl, rfl⟩)
  | tableSync tableId =>
    refine (TableSyncWorker.meets_tryCompleteCatchup hrest.live hrest.toAtRest fun _ _ =>
      ⟨hq, .inr rfl⟩).mono ?_ fun _ _ h => h
    rintro exitIntent l' (⟨rfl, rfl, h⟩ | ⟨rfl, hdone, hle, rfl⟩)
    · exact .inl ⟨rfl, .refl _, fun _ _ => h⟩
    · exact .inr (.inr ⟨rfl, ⟨tableId, rfl⟩, rfl⟩)

lemma meets_processSyncingTablesWhenQuiescent (hrest : l.Resting)
    (hgoing : worker = .apply → l.stopping = false)
    (hterminal : ∀ tableId, worker = .tableSync tableId → l.state.exitIntent = some .complete →
      l.done = true ∨ l.Terminal ∨
        l.state.isQuiescent ∧ l.target ≤ l.state.progress.lastReceivedLsn) :
    Meets worker processSyncingTablesWhenQuiescent (fun _ => ApplyLoop.Rest) l := by
  refine (meets_readLoop (Q := fun st l' => l.workerType = worker ∧ st = l.state ∧ l = l')
    fun hworker => ⟨hworker, rfl, rfl⟩).bind ?_
  rintro st l' ⟨hworker, rfl, rfl⟩
  refine Prog.sat_ite (fun hq => ?_) fun hq => ?_
  · refine (meets_workerWhenQuiescent hrest hgoing hq).bind ?_
    rintro exitIntent l' (⟨rfl, hcore, hnot⟩ | ⟨rfl, happly, l₁, hcore, rfl⟩ | ⟨rfl, hsync, rfl⟩)
    · refine (meets_recordExitIntent (by simp)).mono ?_ fun _ _ h => h
      rintro - l' rfl
      refine hcore.rest ⟨hrest, fun tableId hw hexit => ?_⟩
      rw [hworker] at hw
      rcases hterminal tableId hw hexit with h | h | ⟨-, h⟩
      · exact .inl h
      · exact .inr h
      · exact .inl ((hnot tableId hw).resolve_right (not_lt.2 h))
    · refine (meets_recordExitIntent (by simp)).mono ?_ fun _ _ h => h
      rintro - l' rfl
      refine ApplyLoop.Rest.pause (l := l₁) ⟨hcore.resting hrest, fun tableId hw => ?_⟩ true
      rw [hcore.workerType, hworker, happly] at hw
      cases hw
    · refine (meets_recordExitIntent fun _ => ⟨hsync, .inl rfl⟩).mono ?_ fun _ _ h => h
      rintro - l' rfl
      obtain ⟨tableId, rfl⟩ := hsync
      exact hrest.finish hq (by rw [hworker]; simp)
  · refine ⟨hrest, fun tableId hw hexit => ?_⟩
    rw [hworker] at hw
    rcases hterminal tableId hw hexit with h | h | ⟨h, -⟩
    · exact .inl h
    · exact .inr h
    · exact absurd h hq

lemma meets_tableSyncCatchupTargetReached (hrest : l.Resting)
    (hintake : l.state.exitIntent = none) :
    Meets worker (tableSyncCatchupTargetReached currentLsn)
      (fun reached l' => l = l' ∧ (reached = true →
        ∃ tableId, worker = .tableSync tableId ∧ l.target ≤ currentLsn)) l := by
  refine meets_readWorkerType.bind ?_
  rintro kind l' ⟨rfl, hworker, rfl⟩
  cases kind with
  | apply => exact ⟨rfl, by simp⟩
  | tableSync tableId =>
    refine (TableSyncWorker.meets_catchupTargetReached hrest.live
      (hrest.done_eq_false hworker hintake)).mono ?_ fun _ _ h => h
    rintro reached l' ⟨rfl, h⟩
    exact ⟨rfl, fun hr => ⟨tableId, rfl, h hr⟩⟩

lemma meets_catchupBarrierDue (hrest : l.Resting)
    (hintake : l.state.exitIntent = none) :
    Meets worker (catchupBarrierDue l.state)
      (fun due l' => l = l' ∧ (due = true → l.state.remoteFinalLsn = none ∧
        l.state.hasUnresolvedBatchWork = false ∧ l.state.lastCommitEndLsn.isSome ∧
        ∃ tableId, worker = .tableSync tableId ∧ l.target ≤ l.state.progress.lastReceivedLsn)) l := by
  refine Prog.sat_ite (fun hcond => ?_) fun _ => ⟨rfl, by simp⟩
  simp only [Bool.and_eq_true, Bool.not_eq_true', ApplyLoopState.handlingTransaction,
    Option.isSome_eq_false_iff, Option.isNone_iff_eq_none] at hcond
  refine (meets_tableSyncCatchupTargetReached hrest hintake).mono ?_ fun _ _ h => h
  rintro reached l' ⟨rfl, h⟩
  exact ⟨rfl, fun hr => ⟨hcond.1.1, hcond.1.2, hcond.2, h hr⟩⟩

lemma meets_maybeProcessSyncingTablesWhenQuiescent (hrest : l.Rest)
    :
    Meets worker maybeProcessSyncingTablesWhenQuiescent (fun _ => ApplyLoop.Rest) l := by
  refine (meets_readLoop (Q := fun st l' => l.workerType = worker ∧ st = l.state ∧ l = l')
    fun hworker => ⟨hworker, rfl, rfl⟩).bind ?_
  rintro st l' ⟨hworker, rfl, rfl⟩
  refine Prog.sat_ite (fun _ => hrest) fun hexit => ?_
  have hintake : l.state.exitIntent = none := by simpa using hexit
  refine (meets_catchupBarrierDue hrest.toResting hintake).bind ?_
  rintro due l' ⟨rfl, hdue⟩
  refine Prog.sat_ite (fun h => ?_) fun _ => ?_
  · obtain ⟨hfinal, hwork, hcommit, tableId, rfl, hle⟩ := hdue h
    obtain ⟨hbatch, hpending⟩ := ApplyLoopState.not_hasUnresolvedBatchWork_iff.1 hwork
    have htx : l.tx = none := hrest.tx.trans hfinal
    refine (meets_recordExitIntent fun _ => ⟨⟨tableId, rfl⟩, .inr (.inr ⟨hrest.handling, htx,
      hfinal, hbatch, hpending, hcommit, hle⟩)⟩).bind ?_
    rintro - l' rfl
    exact meets_dispatchWriteEvents hbatch.symm hpending hrest.tx hrest.handling
      (hrest.toResting.barrier hworker hfinal hcommit hle hintake)
  · exact meets_processSyncingTablesWhenQuiescent hrest.toResting (fun _ => hrest.going hintake)
      fun tableId _ h => by rw [hintake] at h; cases h

end Coordination

/-! ## What the cleanup does -/

section Cleanup

variable {worker : WorkerType} {l₀ l : ApplyLoop} {checkpoint : PgLsn}

structure Bounding (l₀ : ApplyLoop) (checkpoint : PgLsn) (boundaries : OrderedMap TableId SnapshotId)
    (l : ApplyLoop) : Prop where
  core : ApplyLoop.SameCore l₀ l
  seen : l.checkpointSeen = some checkpoint
  retained : ∀ r ∈ boundaries.entries, r ∈ l.retained

variable {boundaries : OrderedMap TableId SnapshotId}

lemma sat_shouldApplyChanges_bounding
    {tableId : TableId} (hl : Bounding l₀ checkpoint boundaries l) :
    Prog.Sat (Coordinated worker) LoopStep (fun _ => ApplyLoop.SameCore l₀)
      (shouldApplyChanges false tableId checkpoint)
      (fun ready l' => Bounding l₀ checkpoint boundaries l' ∧
        (ready = true → l'.Retains tableId checkpoint)) l := by
  refine meets_readWorkerType.bind ?_
  rintro kind l' ⟨rfl, hworker, rfl⟩
  cases kind with
  | apply =>
    refine (ApplyWorker.sat_shouldApplyChanges_retain
      (fun _ _ => hl.core.trans (by constructor <;> rfl)) hl.seen).mono ?_ fun _ _ h => h
    rintro ready l' ⟨observed, rfl⟩
    refine ⟨⟨hl.core.trans (by constructor <;> rfl), hl.seen, hl.retained⟩, ?_⟩
    rintro rfl
    simp [ApplyLoop.Retains, hworker]
  | tableSync t =>
    refine ⟨hl, fun h => ?_⟩
    simpa [ApplyLoop.Retains, hworker] using h

lemma sat_getRetentionSnapshotId {tableId : TableId}
    (hl : Bounding l₀ checkpoint boundaries l) (howner : l.Retains tableId checkpoint) :
    Prog.Sat (Coordinated worker) LoopStep (fun _ => ApplyLoop.SameCore l₀)
      (getRetentionSnapshotId checkpoint tableId)
      (fun boundary l' => match boundary with
        | none => Bounding l₀ checkpoint boundaries l'
        | some snapshotId =>
          Bounding l₀ checkpoint (boundaries.insert tableId snapshotId) l') l := by
  refine sat_request (LoopStep.idle l) (fun _ => hl.core) fun w hI => ?_
  cases hmetadata : w.store.destinationTablesMetadata tableId with
  | none =>
    refine ⟨.idle l w, ?_, by rintro e ⟨⟩⟩
    rintro boundary ⟨⟩
    exact hl
  | some metadata =>
    refine ⟨.bound l w tableId checkpoint metadata hl.seen howner hmetadata, ?_, by rintro e ⟨⟩⟩
    rintro boundary ⟨⟩
    refine ⟨hl.core.trans (by constructor <;> rfl), hl.seen, ?_⟩
    rintro ⟨t, s⟩ hr
    rw [OrderedMap.mem_entries_iff, OrderedMap.get?_insert] at hr
    split at hr
    · cases hr
      simp_all
    · exact List.mem_cons_of_mem _ (hl.retained (t, s) ((boundaries.mem_entries_iff t s).2 hr))

lemma sat_getTableSchemaRetentionSnapshotIds (tableIds : List TableId) (hl : Bounding l₀ checkpoint boundaries l) :
    Prog.Sat (Coordinated worker) LoopStep (fun _ => ApplyLoop.SameCore l₀)
      (getTableSchemaRetentionSnapshotIds checkpoint tableIds boundaries)
      (fun boundaries' l' => Bounding l₀ checkpoint boundaries' l') l := by
  induction tableIds generalizing boundaries l with
  | nil => exact hl
  | cons tableId rest ih =>
    refine (sat_shouldApplyChanges_bounding hl).bind ?_
    rintro ready l₁ ⟨hl₁, howner⟩
    refine Prog.sat_ite (fun hready => ?_) fun _ => ih hl₁
    refine (sat_getRetentionSnapshotId hl₁ (howner hready)).bind ?_
    intro boundary l₂ hl₂
    cases boundary with
    | none => exact ih hl₂
    | some snapshotId => exact ih hl₂

lemma meets_tryQueueSchemaCleanup :
    Meets worker tryQueueSchemaCleanup (fun _ => ApplyLoop.SameCore l) l := by
  refine (meets_readLoop (Q := fun _ => Eq l) fun _ => rfl).bind ?_
  rintro pending l' rfl
  refine Prog.sat_ite (fun _ => .refl l) fun _ => ?_
  refine Prog.Sat.bind (R := fun result l' => ApplyLoop.SameCore l l' ∧ ∀ checkpoint,
    result = .ok (some checkpoint) → Bounding l checkpoint .empty l') ?_ ?_
  · refine Prog.sat_attempt_iff.2 (sat_request (LoopStep.idle l) (fun _ => ⟨.refl l, by simp⟩) fun w hI => ?_)
    refine ⟨.beginCleanup l w, ?_, by rintro e ⟨⟩⟩
    rintro seen ⟨⟩
    have hcore : ApplyLoop.SameCore l { l with
        checkpointSeen := w.store.replicationCheckpoints l.workerType
        retained := [] } := by constructor <;> rfl
    refine ⟨hcore, fun checkpoint h => ⟨hcore, by simpa using h, ?_⟩⟩
    rintro r hr
    cases hr
  · rintro result l₁ ⟨hcore, hresult⟩
    split
    · rename_i checkpoint
      refine Prog.Sat.bind (R := fun result l' => ApplyLoop.SameCore l l' ∧ ∀ boundaries,
        result = .ok boundaries → Bounding l checkpoint boundaries l') ?_ ?_
      · refine Prog.sat_attempt_iff.2 ((sat_getTableSchemaRetentionSnapshotIds pending
          (hresult checkpoint rfl)).mono ?_ fun e l' h => ⟨h, by simp⟩)
        intro boundaries l' hl'
        refine ⟨hl'.core, ?_⟩
        rintro _ ⟨⟩
        exact hl'
      · rintro result l₂ ⟨hcore₂, hresult₂⟩
        split
        · rename_i boundaries
          refine Prog.sat_ite (fun _ => ?_) fun _ => Prog.sat_atom ?_
          · exact meets_modifyLoop
              (fun w _ => ApplyLoop.step_touch rfl (fun h => by exact h.congr rfl rfl rfl rfl rfl) w)
              fun _ => hcore₂.trans (.of_touch rfl)
          · intro i w _ l' w' hI hf
            cases hf
            refine ⟨?_, hcore₂.trans (.of_touch rfl)⟩
            refine .queue l₂ w _ ⟨_, _, _, _⟩ (fun r hr => ?_)
              fun h => h.congr rfl rfl rfl rfl rfl
            exact (hresult₂ boundaries rfl).retained r (List.mem_of_mem_take hr)
        · exact hcore₂
    · exact hcore

end Cleanup

/-! ## What a write result does -/

section Result

variable {worker : WorkerType} {l : ApplyLoop}

lemma meets_resolveWrite (hlive : l.live = true) (hwaiting : l.waiting = none)
    (result : Except EtlError DestinationWriteStatus) :
    Meets worker (resolveWrite result) (fun r l' => l.state.pendingFlushResult = some r.2.1 ∧
      (r.2.2 = .accepted ∧ r.2.1.durability = .mayDefer ∧
          (∃ x, l' = l.accept r.2.1 x) ∨
        r.2.2 = .durable ∧ ∃ x, l' = l.settle r.2.1 x)) l := by
  refine Prog.sat_call ?_ ?_
  · intro i w r l' w' hI hf
    obtain ⟨metadata, hpending, hf⟩ := Option.map_eq_some_iff.1 hf
    cases result with
    | error e => cases hf
    | ok status =>
      cases hdur : metadata.durability <;> cases status <;> simp only [hdur] at hf <;> cases hf
      · exact ⟨.resolveAccepted l w metadata ⟨_, _, true, false⟩ hpending hdur
          (fun _ => ⟨nofun, fun _ => rfl, fun _ _ => rfl⟩), hpending,
          .inl ⟨rfl, hdur, ⟨_, _, _, _⟩, rfl⟩⟩
      · exact ⟨.resolveDurable l w metadata ⟨_, _, _, false⟩ hlive hpending
          (fun htended => ⟨nofun, htended.batch, nofun⟩), hpending,
          .inr ⟨rfl, ⟨_, _, _, _⟩, rfl⟩⟩
      · exact ⟨.resolveDurable l w metadata ⟨_, _, _, false⟩ hlive hpending
          (fun htended => ⟨nofun, htended.batch, nofun⟩), hpending,
          .inr ⟨rfl, ⟨_, _, _, _⟩, rfl⟩⟩
  · intro i w e l' w' hI hf
    obtain ⟨metadata, hpending, hf⟩ := Option.map_eq_some_iff.1 hf
    cases result with
    | error e' =>
      cases hf
      exact ⟨.resolveError l w metadata ⟨_, _, _, _⟩ hpending hwaiting, hwaiting⟩
    | ok status =>
      cases hdur : metadata.durability <;> cases status <;> simp only [hdur] at hf <;> cases hf
      exact ⟨.resolveError l w metadata ⟨_, _, _, _⟩ hpending hwaiting, hwaiting⟩

variable {metadata : WriteMetadata}

lemma meets_coverCommit (hrest : l.Resting) (hsettled : l.settled = metadata.commitEndLsn)
    (hreached : ∀ tableId, l.workerType = .tableSync tableId →
      ∀ lsn, metadata.commitEndLsn = some lsn → l.target ≤ lsn → l.state.isQuiescent) :
    Meets worker (coverCommit metadata .durable) (fun _ l' => ApplyLoop.SameCore l l' ∧
      (∀ tableId, l.workerType = .tableSync tableId → l.done = true ∨
        ∀ lsn, metadata.commitEndLsn = some lsn → lsn < l.target) ∨ l'.Rest) l := by
  cases hcommit : metadata.commitEndLsn with
  | none =>
    simp only [coverCommit, hcommit]
    exact .inl ⟨.refl l, fun _ _ => .inr nofun⟩
  | some lsn =>
    simp only [coverCommit, hcommit]
    rw [hcommit] at hsettled
    refine (meets_processSyncingTablesAfterFlush hrest hsettled
      fun tableId hw hle => hreached tableId hw lsn hcommit hle).bind ?_
    intro _ l₁ hl₁
    refine meets_tryQueueSchemaCleanup.mono ?_ fun _ _ h => h
    intro _ l₂ hcore₂
    rcases hl₁ with ⟨hcore, hnot⟩ | hrest₁
    · refine .inl ⟨hcore.trans hcore₂, fun tableId hw => (hnot tableId hw).imp_right ?_⟩
      rintro hlt _ ⟨⟩
      exact hlt
    · exact .inr (hcore₂.rest hrest₁)

lemma meets_completeBarrier (hrest : l.Resting)
    (hterminal : ∀ tableId, l.workerType = .tableSync tableId →
      l.state.exitIntent = some .complete → l.done = true ∨ l.Terminal ∨
        l.state.isQuiescent ∧ metadata.eventCount = 0 ∧ metadata.durability = .requireDurable ∧
          l.target ≤ l.state.progress.lastReceivedLsn) :
    Meets worker (completeBarrier metadata .durable) (fun _ => ApplyLoop.Rest) l := by
  refine (meets_readLoop (Q := fun st l' => l.workerType = worker ∧ st = l.state ∧ l = l')
    fun hworker => ⟨hworker, rfl, rfl⟩).bind ?_
  rintro st l' ⟨hworker, rfl, rfl⟩
  refine Prog.sat_ite (fun hcond => ?_) fun hcond => ?_
  · refine meets_processSyncingTablesWhenQuiescent hrest (fun happly => ?_) fun tableId hw hexit => ?_
    · exact absurd hcond.2.2.2.1 (hrest.incomplete (hworker.trans happly))
    · exact (hterminal tableId (hworker.trans hw) hexit).imp_right
        (Or.imp_right fun h => ⟨h.1, h.2.2.2⟩)
  · refine ⟨hrest, fun tableId hw hexit => ?_⟩
    rcases hterminal tableId hw hexit with h | h | ⟨hq, hcount, hdur, -⟩
    · exact .inl h
    · exact .inr h
    · exact absurd ⟨hcount, hdur, rfl, hexit, hq⟩ hcond

lemma meets_coordinateResult_accepted (hrest : l.Rest) :
    Meets worker (coordinateResult metadata .accepted) (fun _ => ApplyLoop.Rest) l := by
  refine Prog.Sat.bind (R := fun _ => ApplyLoop.Rest) hrest ?_
  intro _ l₁ hrest₁
  refine (meets_readLoop (Q := fun _ => ApplyLoop.Rest) fun _ => hrest₁).bind ?_
  intro st l₂ hrest₂
  exact Prog.sat_ite (fun h => absurd h.2.2.1 (by simp)) fun _ => hrest₂

lemma meets_coordinateResult_durable (hrest : l.Rest)
    (hpending : l.state.pendingFlushResult = some metadata) (x : Inert) :
    Meets worker (coordinateResult metadata .durable) (fun _ => ApplyLoop.Rest)
      (l.settle metadata x) := by
  have hsettling := hrest.toResting.settle hpending x
  refine (meets_coverCommit hsettling rfl ?_).bind ?_
  · intro tableId hworker lsn hcommit hle
    rcases hrest.settle_cases hworker hpending x with ⟨hlt, -⟩ | ⟨hq, -⟩
    · exact absurd hle (not_le.2 (hlt lsn hcommit))
    · exact hq
  · rintro - l₁ (⟨hcore, hnot⟩ | hrest₁)
    · refine meets_completeBarrier (hcore.resting hsettling) fun tableId hworker hexit => ?_
      rw [hcore.workerType] at hworker
      rw [hcore.exit] at hexit
      rcases hrest.settle_cases hworker hpending x with ⟨-, hterminal⟩ | ⟨hq, hlast⟩
      · exact .inr (.inl (hcore.terminal (hterminal hexit)))
      · rw [hcore.done, hcore.isQuiescent, hcore.target]
        rcases hlast with ⟨lsn, hcommit, hle⟩ | ⟨hcount, hdur, hle⟩
        · exact .inl ((hnot tableId hworker).resolve_right fun h =>
            absurd (h lsn hcommit) (not_lt.2 hle))
        · exact .inr (.inr ⟨hq, hcount, hdur, hle.trans hcore.received⟩)
    · exact meets_completeBarrier hrest₁.toResting fun tableId hworker hexit =>
        (hrest₁.terminal tableId hworker hexit).imp_right .inl

lemma meets_handleFlushResult (hrest : l.Rest)
    (result : Except EtlError DestinationWriteStatus) :
    Meets worker (handleFlushResult result) (fun _ => ApplyLoop.Rest) l := by
  refine (meets_resolveWrite hrest.live hrest.waiting result).bind ?_
  rintro ⟨paused, metadata, status⟩ l₁ ⟨hpending, hl₁⟩
  refine Prog.Sat.bind (R := fun _ => ApplyLoop.Rest) ?_ ?_
  · rcases hl₁ with ⟨rfl, hdefer, x, rfl⟩ | ⟨rfl, x, rfl⟩
    · exact meets_coordinateResult_accepted (hrest.accept hpending hdefer x)
    · exact meets_coordinateResult_durable hrest hpending x
  · intro _ l₂ hrest₂
    exact Prog.sat_ite (fun _ => meets_flushBatch hrest₂) fun _ => hrest₂

end Result

end Etl
