import Etl.Runtime.ApplyWorker

/-!
# The table-sync worker

An attempt copies the table from a new slot, waits for its catchup target and runs an apply loop up
to it. A failed attempt is noted as the state of the table, which is rolled back before a retry.
-/

namespace Etl

open ApplyLoop

inductive TableSyncResult where
  | stopped
  | notRequired
  | completed
deriving DecidableEq

namespace TableSyncWorker

/-! ## The copy -/

def checkState (tableId : TableId) : Task Bool :=
  Prog.call fun _ l w =>
    match w.poolState tableId with
    | some .init | some .dataSync | some .finishedCopy =>
      some (.ok true, { l with phase := .starting }, w)
    | some (.syncDone _ _) | some .ready | some (.errored _ _) => some (.ok false, l, w)
    | some _ => some (.error ⟨.invalidState, "Invalid table state"⟩, l, w)
    | none => none

/-- `get_existing_replicated_table_schema`: whether there is a destination table. -/
def getExistingReplicatedTableSchema (tableId : TableId) : Task Bool := do
  match ← perform fun l w => (w.store.destinationTablesMetadata tableId, l, w) with
  | none => pure false
  | some metadata =>
    match ← perform fun l w => (w.store.getTableSchema tableId metadata.snapshotId, l, w) with
    | none => .fail ⟨.invalidState,
        "Destination table metadata found, but no corresponding table schema exists"⟩
    | some _ => pure true

def awaitDestination : Task Bool :=
  Prog.call fun i l w =>
    if i.shutdownFirst && w.shutdown then some (.ok false, l, w)
    else
      match i.fault with
      | some e => some (.error e, l, w)
      | none => some (.ok true, l, w)

def dropTableForCopy (tableId : TableId) : Task Bool := do
  if ← getExistingReplicatedTableSchema tableId then
    callout
    awaitDestination
  else pure true

def deleteSlotIfExists (tableId : TableId) : Task Unit :=
  perform fun l w => ((), l, w.deleteSlot (.tableSync tableId))

def prepareTableStateForCopy (tableId : TableId) : Task Unit :=
  perform fun l w =>
    ((), { l with phase := .prepared }, { w with store := w.store.prepareForCopy tableId })

def setAndStore (tableId : TableId) (phase : Phase) (state : ApplyLoop → TableState) : Task Unit :=
  perform fun l w => ((), { l with phase := phase }, w.setAndStore tableId (state l))

def createSlotWithTransaction (tableId : TableId) : Task Unit :=
  Prog.call fun i l w =>
    match i.fault with
    | some e => some (.error e, l, w)
    | none =>
      match w.slots (.tableSync tableId) with
      | some _ =>
        some (.error ⟨.replicationSlotAlreadyExists, "Replication slot already exists"⟩, l, w)
      | none =>
        some (.ok (), { l with phase := .slotted, startLsn := i.lsn, copySchema := none },
          (w.createSlot (.tableSync tableId) i.lsn).recordCopy tableId i.lsn)

def queryCatalog {β : Type} (f : CatalogTable → β) : Task β :=
  Prog.call fun i l w =>
    match i.fault with
    | some e => some (.error e, l, w)
    | none => some (.ok (f i.catalog), l, w)

def storeTableSchema (tableId : TableId) (tableSchema : TableSchema) : Task Unit :=
  perform fun l w =>
    ((), { l with copySchema := some tableSchema }, w.storeCopySchema tableId tableSchema)

def buildReplicatedTableSchema (tableSchema : TableSchema) (replicatedColumnNames : List String)
    (identity : IdentityMessage) : Except EtlError ReplicatedTableSchema :=
  match ReplicationMask.tryBuild tableSchema replicatedColumnNames with
  | none => .error ⟨.invalidState, "Schema mismatch during table sync"⟩
  | some replicationMask => do
    let identityMask ← identity.buildIdentityMask tableSchema replicationMask
    return .fromMasks tableSchema replicationMask identityMask

def copySchema (tableId : TableId) : Task ReplicatedTableSchema := do
  let (name, columnSchemas, identity) ←
    queryCatalog fun table => (table.name, table.columnSchemas, table.identity)
  let tableSchema : TableSchema := ⟨tableId, name, columnSchemas, .initial⟩
  storeTableSchema tableId tableSchema
  let replicatedColumnNames ← queryCatalog (·.replicatedColumnNames)
  Prog.ofExcept (buildReplicatedTableSchema tableSchema replicatedColumnNames identity)

/-- `false` if a shutdown comes first. Whether it is needed depends on the copy. -/
def copyBarrier : Task Bool :=
  Prog.call fun i l w =>
    if i.shutdownFirst && w.shutdown then some (.ok false, l, w)
    else
      match i.branch with
      | .flushResult (.ok .durable) => some (.ok true, l, w)
      | .flushResult (.ok .accepted) =>
        some (.error ⟨.destinationError,
          "Table copy durability barrier did not confirm durability"⟩, l, w)
      | .flushResult (.error e) => some (.error e, l, w)
      | _ => some (.ok true, l, w)

def tableCopy : Task Bool := do
  if ← awaitDestination then
    callout
    copyBarrier
  else pure false

def awaitCatchup (config : Config) (tableId : TableId) (schema : ReplicatedTableSchema) :
    Task Bool :=
  Prog.atom
    (fun i l w =>
      if i.shutdownFirst && w.shutdown then some (false, l, w)
      else
        match w.poolState tableId with
        | some (.catchup target) =>
          some (true, l.startLoop config.wal l.startLsn (initialDecoders tableId schema) target, w)
        | _ => none)
    .done

def copyTable (config : Config) (tableId : TableId) : Task TableSyncResult := do
  deleteSlotIfExists tableId
  prepareTableStateForCopy tableId
  setAndStore tableId .copying fun _ => .dataSync
  createSlotWithTransaction tableId
  let schema ← copySchema tableId
  if ← tableCopy then
    setAndStore tableId .copied fun _ => .finishedCopy
    setAndStore tableId .waiting fun l => .syncWait l.startLsn
    if ← awaitCatchup config tableId schema then pure .completed else pure .stopped
  else pure .stopped

def startTableSync (config : Config) (tableId : TableId) : Task TableSyncResult := do
  if ← checkState tableId then
    if ← dropTableForCopy tableId then copyTable config tableId else pure .stopped
  else pure .notRequired

/-! ## An attempt -/

def finishTask (tableId : TableId) : Task Label :=
  Prog.atom (fun _ l w => some (.launch, { l with phase := .idle }, w.finishWorker tableId)) .done

def resetRetryAttempts (tableId : TableId) : Task Unit :=
  Prog.atom (fun _ l w => some ((), l, w.setRetryAttempts tableId 0)) .done

def complete (tableId : TableId) : Task Label := do
  resetRetryAttempts tableId
  finishTask tableId

def acquirePermit : Task Bool :=
  Prog.atom (fun _ l w => some (!w.shutdown, l, w)) .done

def runTableSyncWorker (config : Config) (tableId : TableId) : Task Label := do
  if ← acquirePermit then
    callout
    match ← startTableSync config tableId with
    | .completed =>
      callout
      pure .iterate
    | .stopped => complete tableId
    | .notRequired => complete tableId
  else complete tableId

def cleanupResources (tableId : TableId) : Task Unit := do
  perform fun l w =>
    ((), l, { w with store := w.store.deleteReplicationCheckpoint (.tableSync tableId) })
  deleteSlotIfExists tableId

/-- The end of `run_table_sync_worker`, with the result of its loop. -/
def finishLoop (tableId : TableId) (result : ApplyLoopResult) : Task Label := do
  teardown
  match result with
  | .paused => complete tableId
  | .completed =>
    match ← inspect (·.poolState tableId) with
    | some (.syncDone _ _) | some .ready =>
      let _ ← (cleanupResources tableId).attempt
      complete tableId
    | _ => .fail ⟨.invalidState,
        "Table sync apply loop completed before reaching the expected state"⟩

/-! ## Failures -/

def retryPolicy (config : Config) (attempts : Nat) (e : EtlError) : TableRetryPolicy :=
  match buildErrorHandlingPolicy e with
  | .timed => if config.tableErrorRetryMaxAttempts ≤ attempts then .manualRetry else .timedRetry
  | .manual => .manualRetry
  | .noRetry => .noRetry

def storeError (config : Config) (tableId : TableId) (e : EtlError) : Task TableRetryPolicy :=
  perform fun l w =>
    let attempts := match w.pool tableId with
      | some entry => entry.retryAttempts
      | none => 0
    let policy := retryPolicy config attempts e
    (policy, { l with phase := .failed }, w.setAndStore tableId (.errored e policy))

def awaitRetry : Task Bool :=
  Prog.atom (fun i l w => some (!(i.shutdownFirst && w.shutdown), l, w)) .done

def incrementRetryAttempts (tableId : TableId) : Task Unit :=
  Prog.atom (fun _ l w =>
    some ((), l, match w.pool tableId with
      | some entry => w.setRetryAttempts tableId (entry.retryAttempts + 1)
      | none => w)) .done

def rollback (tableId : TableId) : Task Unit :=
  request fun l w =>
    match w.store.rollbackTableState tableId with
    | .ok (previous, store) => (.ok (), { l with phase := .engaged }, w.rollback tableId previous store)
    | .error e => (.error e, l, w)

def handleTableSyncWorkerError (config : Config) (tableId : TableId) (e : EtlError) : Task Bool := do
  match ← storeError config tableId e with
  | .timedRetry =>
    if ← awaitRetry then
      incrementRetryAttempts tableId
      rollback tableId
      pure true
    else
      resetRetryAttempts tableId
      pure false
  | _ =>
    resetRetryAttempts tableId
    pure false

def recover (config : Config) (tableId : TableId) (e : EtlError) : Task Label := do
  teardown
  match ← (handleTableSyncWorkerError config tableId e).attempt with
  | .ok true => pure .connect
  | _ => finishTask tableId

def launch (tableId : TableId) : Task Label :=
  Prog.atom
    (fun _ l w => if w.isActive tableId then some (.connect, { l with phase := .engaged }, w) else none)
    .done

end TableSyncWorker

/-! ## What the worker does -/

namespace TableSyncWorker

variable {config : Config} {wal : Option Wal} {tableId : TableId} {l : ApplyLoop}

lemma works_checkState (hl : Prepares .engaged l) :
    Works wal (.tableSync tableId) (checkState tableId)
      (fun needed => Prepares (if needed then .starting else .engaged)) l := by
  refine Prog.sat_call ?_ ?_
  · intro i w needed l' w' hI hf
    split at hf <;> cases hf
    all_goals rename_i hstate
    · exact ⟨.enter l w tableId hI.workerType hl.live hl.phase (by simp [hstate]), hl.live, rfl⟩
    · exact ⟨.enter l w tableId hI.workerType hl.live hl.phase (by simp [hstate]), hl.live, rfl⟩
    · exact ⟨.enter l w tableId hI.workerType hl.live hl.phase (by simp [hstate]), hl.live, rfl⟩
    · exact ⟨.loop (.idle l w), hl⟩
    · exact ⟨.loop (.idle l w), hl⟩
    · exact ⟨.loop (.idle l w), hl⟩
  · intro i w e l' w' hI hf
    split at hf <;> cases hf
    exact ⟨.loop (.idle l w), hl.mayFail (by simp)⟩

lemma works_getExistingReplicatedTableSchema (hfail : l.MayFail) :
    Works wal (.tableSync tableId) (getExistingReplicatedTableSchema tableId) (fun _ => Eq l) l := by
  refine Prog.Sat.bind (R := fun _ => Eq l)
    (works_perform hfail fun w _ => ⟨.loop (.idle l w), rfl⟩) ?_
  rintro (_ | metadata) _ rfl
  · rfl
  · refine Prog.Sat.bind (R := fun _ => Eq l)
      (works_perform hfail fun w _ => ⟨.loop (.idle l w), rfl⟩) ?_
    rintro (_ | schema) _ rfl
    · exact hfail
    · rfl

lemma works_awaitDestination (hfail : l.MayFail) :
    Works wal (.tableSync tableId) awaitDestination (fun _ => Eq l) l := by
  refine Prog.sat_call ?_ ?_
  · intro i w b l' w' hI hf
    split at hf
    · cases hf
      exact ⟨.loop (.idle l w), rfl⟩
    · split at hf <;> cases hf
      exact ⟨.loop (.idle l w), rfl⟩
  · intro i w e l' w' hI hf
    split at hf
    · cases hf
    · split at hf <;> cases hf
      exact ⟨.loop (.idle l w), hfail⟩

lemma works_dropTableForCopy (hfail : l.MayFail) :
    Works wal (.tableSync tableId) (dropTableForCopy tableId) (fun _ => Eq l) l := by
  refine (works_getExistingReplicatedTableSchema hfail).bind ?_
  rintro present _ rfl
  refine Prog.sat_ite (fun _ => ?_) fun _ => rfl
  refine (works_callout hfail).bind ?_
  rintro - _ rfl
  exact works_awaitDestination hfail

lemma works_createSlotWithTransaction (hl : Prepares .copying l) :
    Works wal (.tableSync tableId) (createSlotWithTransaction tableId)
      (fun _ => Prepares .slotted) l := by
  refine Prog.sat_call ?_ ?_
  · intro i w b l' w' hI hf
    split at hf
    · cases hf
    · split at hf
      · cases hf
      · rename_i hslot
        cases hf
        exact ⟨.createSyncSlot l w tableId i.lsn hI.workerType hl.live hl.phase hslot, hl.live,
          rfl⟩
  · intro i w e l' w' hI hf
    have hsame : l' = l ∧ w' = w := by
      split at hf
      · cases hf
        exact ⟨rfl, rfl⟩
      · split at hf <;> cases hf
        exact ⟨rfl, rfl⟩
    obtain ⟨rfl, rfl⟩ := hsame
    exact ⟨.loop (.idle _ _), hl.mayFail (by simp)⟩

lemma works_queryCatalog {β : Type} {f : CatalogTable → β} (hfail : l.MayFail) :
    Works wal (.tableSync tableId) (queryCatalog f) (fun _ => Eq l) l := by
  refine Prog.sat_call ?_ ?_
  · intro i w b l' w' hI hf
    split at hf <;> cases hf
    exact ⟨.loop (.idle l w), rfl⟩
  · intro i w e l' w' hI hf
    split at hf <;> cases hf
    exact ⟨.loop (.idle l w), hfail⟩

lemma fits_buildReplicatedTableSchema {tableSchema : TableSchema} {names : List String}
    {identity : IdentityMessage} {schema : ReplicatedTableSchema}
    (h : buildReplicatedTableSchema tableSchema names identity = .ok schema) :
    schema.tableSchema = tableSchema ∧ schema.Fits := by
  unfold buildReplicatedTableSchema at h
  unfold ReplicationMask.tryBuild at h
  split_ifs at h
  cases hmask : identity.buildIdentityMask tableSchema ⟨buildMaskBytes tableSchema names⟩ with
  | error e => simp [hmask, bind, Except.bind] at h
  | ok identityMask =>
    simp only [hmask, bind, Except.bind, pure, Except.pure, Except.ok.injEq] at h
    subst h
    exact ⟨rfl, fits_fromMasks_buildIdentityMask hmask⟩

lemma works_copySchema (hl : Prepares .slotted l) :
    Works wal (.tableSync tableId) (copySchema tableId) (fun schema l' =>
      Prepares .slotted l' ∧ l'.copySchema = some schema.tableSchema ∧ schema.Fits) l := by
  have hfail := hl.mayFail (by simp)
  refine (works_queryCatalog hfail).bind ?_
  rintro ⟨name, columnSchemas, identity⟩ _ rfl
  refine Prog.Sat.bind (R := fun _ l' => Prepares .slotted l' ∧
      l'.copySchema = some ⟨tableId, name, columnSchemas, .initial⟩)
    (works_perform hfail fun w hI =>
      ⟨.storeCopySchema l w tableId _ hI.workerType hl.live hl.phase rfl rfl,
        ⟨hl.live, hl.phase⟩, rfl⟩) ?_
  rintro - l₁ ⟨hl₁, hcopy⟩
  refine (works_queryCatalog (hl₁.mayFail (by simp))).bind ?_
  rintro names _ rfl
  refine Prog.sat_ofExcept (fun schema hschema => ?_) fun _ _ => hl₁.mayFail (by simp)
  obtain ⟨hts, hfits⟩ := fits_buildReplicatedTableSchema hschema
  exact ⟨hl₁, by rw [hcopy, hts], hfits⟩

lemma works_copyBarrier (hfail : l.MayFail) :
    Works wal (.tableSync tableId) copyBarrier (fun _ => Eq l) l := by
  refine Prog.sat_call ?_ ?_
  · intro i w b l' w' hI hf
    split at hf
    · cases hf
      exact ⟨.loop (.idle l w), rfl⟩
    · split at hf <;> cases hf
      all_goals exact ⟨.loop (.idle l w), rfl⟩
  · intro i w e l' w' hI hf
    split at hf
    · cases hf
    · split at hf <;> cases hf
      all_goals exact ⟨.loop (.idle l w), hfail⟩

lemma works_tableCopy (hfail : l.MayFail) :
    Works wal (.tableSync tableId) tableCopy (fun _ => Eq l) l := by
  refine (works_awaitDestination hfail).bind ?_
  rintro copied _ rfl
  refine Prog.sat_ite (fun _ => ?_) fun _ => rfl
  refine (works_callout hfail).bind ?_
  rintro - _ rfl
  exact works_copyBarrier hfail

def Synced (result : TableSyncResult) (l : ApplyLoop) : Prop :=
  match result with
  | .completed => Continues .iterate l
  | _ => l.live = false ∧ l.MayFail

lemma works_awaitCatchup {schema : ReplicatedTableSchema} (hl : Prepares .waiting l)
    (hcopy : l.copySchema = some schema.tableSchema) (hfits : schema.Fits) :
    Works config.wal (.tableSync tableId) (awaitCatchup config tableId schema)
      (fun started => Synced (if started then .completed else .stopped)) l := by
  refine Prog.sat_atom ?_
  intro i w started l' w' hI hf
  split at hf
  · cases hf
    exact ⟨.loop (.idle l w), hl.live, hl.mayFail (by simp)⟩
  · split at hf <;> cases hf
    rename_i target hstate
    exact ⟨.follow l w tableId schema target hI.workerType hl.live hl.phase hstate hcopy hfits,
      rest_startLoop .., rfl⟩

lemma works_copyTable (hl : Prepares .starting l) :
    Works config.wal (.tableSync tableId) (copyTable config tableId) Synced l := by
  have hfail := hl.mayFail (by simp)
  refine Prog.Sat.bind (R := fun _ => Eq l) (works_perform hfail fun w hI =>
    ⟨.dropSyncSlot l w tableId hI.workerType hl.live, rfl⟩) ?_
  rintro - _ rfl
  refine Prog.Sat.bind (R := fun _ => Prepares .prepared) (works_perform hfail fun w hI =>
    ⟨.prepareForCopy l w tableId hI.workerType hl.live hl.phase, hl.live, rfl⟩) ?_
  intro _ l₀ hl₀
  refine Prog.Sat.bind (R := fun _ => Prepares .copying)
    (works_perform (hl₀.mayFail (by simp)) fun w hI =>
      ⟨.beginCopy l₀ w tableId hI.workerType hl₀.live hl₀.phase, hl₀.live, rfl⟩) ?_
  intro _ l₁ hl₁
  refine (works_createSlotWithTransaction hl₁).bind ?_
  intro _ l₂ hl₂
  refine (works_copySchema hl₂).bind ?_
  rintro schema l₃ ⟨hl₃, hcopy, hfits⟩
  refine (works_tableCopy (hl₃.mayFail (by simp))).bind ?_
  rintro copied _ rfl
  refine Prog.sat_ite (fun _ => ?_) fun _ => ⟨hl₃.live, hl₃.mayFail (by simp)⟩
  refine Prog.Sat.bind (R := fun _ l' => Prepares .copied l' ∧ l'.copySchema = l₃.copySchema)
    (works_perform (hl₃.mayFail (by simp)) fun w hI =>
      ⟨.finishCopy l₃ w tableId hI.workerType hl₃.live hl₃.phase (by simp [hcopy]),
        ⟨hl₃.live, rfl⟩, rfl⟩) ?_
  rintro - l₄ ⟨hl₄, hcopy₄⟩
  refine Prog.Sat.bind (R := fun _ l' => Prepares .waiting l' ∧ l'.copySchema = l₄.copySchema)
    (works_perform (hl₄.mayFail (by simp)) fun w hI =>
      ⟨.syncWait l₄ w tableId hI.workerType hl₄.live hl₄.phase, ⟨hl₄.live, rfl⟩, rfl⟩) ?_
  rintro - l₅ ⟨hl₅, hcopy₅⟩
  refine (works_awaitCatchup hl₅ (by rw [hcopy₅, hcopy₄, hcopy]) hfits).bind ?_
  intro started l₆ hl₆
  cases started <;> exact hl₆

lemma works_startTableSync (hl : Prepares .engaged l) :
    Works config.wal (.tableSync tableId) (startTableSync config tableId) Synced l := by
  refine (works_checkState hl).bind ?_
  intro needed l₁ hl₁
  cases needed with
  | false => exact ⟨hl₁.live, hl₁.mayFail (by simp)⟩
  | true =>
    refine (works_dropTableForCopy (hl₁.mayFail (by simp))).bind ?_
    rintro dropped _ rfl
    exact Prog.sat_ite (fun _ => works_copyTable hl₁) fun _ => ⟨hl₁.live, hl₁.mayFail (by simp)⟩

lemma works_finishTask (hlive : l.live = false) :
    Works wal (.tableSync tableId) (finishTask tableId) Continues l := by
  refine Prog.sat_atom ?_
  intro i w b l' w' hI hf
  cases hf
  exact ⟨.finish l w tableId hI.workerType hlive, hlive,
    fun h => nomatch hI.workerType.symm.trans h⟩

lemma works_resetRetryAttempts :
    Works wal (.tableSync tableId) (resetRetryAttempts tableId) (fun _ => Eq l) l := by
  refine Prog.sat_atom ?_
  intro i w b l' w' hI hf
  cases hf
  exact ⟨.countAttempts l w tableId 0 hI.workerType, rfl⟩

lemma works_complete (hlive : l.live = false) :
    Works wal (.tableSync tableId) (complete tableId) Continues l := by
  refine works_resetRetryAttempts.bind ?_
  rintro - _ rfl
  exact works_finishTask hlive

lemma works_runTableSyncWorker (hl : Continues .connect l) :
    Works config.wal (.tableSync tableId) (runTableSyncWorker config tableId) Continues l := by
  refine Prog.Sat.bind (R := fun _ => Eq l) (Prog.sat_atom ?_) ?_
  · intro i w b l' w' hI hf
    cases hf
    exact ⟨.loop (.idle l w), rfl⟩
  rintro permitted _ rfl
  refine Prog.sat_ite (fun _ => ?_) fun _ => works_complete hl.1.live
  refine (works_callout (hl.1.mayFail (by simp))).bind ?_
  rintro - _ rfl
  refine (works_startTableSync hl.1).bind ?_
  intro result l₁ hl₁
  cases result with
  | completed =>
    refine (works_callout (hl₁.1.mayFail hl₁.2)).bind ?_
    rintro - _ rfl
    exact hl₁
  | stopped => exact works_complete hl₁.1
  | notRequired => exact works_complete hl₁.1

lemma works_cleanupResources (hl : Prepares .engaged l) :
    Works wal (.tableSync tableId) (cleanupResources tableId).attempt (fun _ => Eq l) l := by
  have hfail := hl.mayFail (by simp)
  have hcleanup : Prog.Sat (Coordinated (.tableSync tableId)) (WorkerStep wal) (fun _ => Eq l)
      (cleanupResources tableId) (fun _ => Eq l) l := by
    refine Prog.Sat.bind (R := fun _ => Eq l) ?_ ?_
    · exact sat_request (fun w => .loop (.idle l w)) (fun _ => rfl) fun w hI =>
        ⟨.dropSyncCheckpoint l w tableId hI.workerType hl.live, fun _ _ => rfl, nofun⟩
    · rintro - _ rfl
      exact sat_request (fun w => .loop (.idle l w)) (fun _ => rfl) fun w hI =>
        ⟨.dropSyncSlot l w tableId hI.workerType hl.live, fun _ _ => rfl, nofun⟩
  exact Prog.sat_attempt_iff.2 hcleanup

lemma works_finishLoop {result : ApplyLoopResult} (hl : Continues (.finish result) l) :
    Works wal (.tableSync tableId) (finishLoop tableId result) Continues l := by
  refine (works_teardown (hl.1.1.mayFail hl.2)).bind ?_
  intro _ l₁ hl₁
  cases result with
  | paused => exact works_complete hl₁.live
  | completed =>
    refine (works_inspect (Q := fun _ => Eq l₁) fun _ _ => rfl).bind ?_
    rintro state _ rfl
    split
    · refine (works_cleanupResources hl₁).bind ?_
      rintro - _ rfl
      exact works_complete hl₁.live
    · refine (works_cleanupResources hl₁).bind ?_
      rintro - _ rfl
      exact works_complete hl₁.live
    · exact hl₁.mayFail (by simp)

lemma works_incrementRetryAttempts :
    Prog.Sat (Coordinated (.tableSync tableId)) (WorkerStep wal) (fun _ l => l.live = false)
      (incrementRetryAttempts tableId) (fun _ => Eq l) l := by
  refine Prog.sat_atom ?_
  intro i w b l' w' hI hf
  cases hf
  refine ⟨?_, rfl⟩
  split
  · exact .countAttempts l w tableId _ hI.workerType
  · exact .loop (.idle l w)

lemma works_rollback (hl : Prepares .failed l) :
    Prog.Sat (Coordinated (.tableSync tableId)) (WorkerStep wal) (fun _ l => l.live = false)
      (rollback tableId) (fun _ => Continues .connect) l := by
  refine sat_request (fun w => .loop (.idle l w)) (fun _ => hl.live) fun w hI => ?_
  rcases hrolled : w.store.rollbackTableState tableId with e | ⟨previous, store⟩ <;> simp only
  · exact ⟨.loop (.idle l w), nofun, fun _ _ => hl.live⟩
  · exact ⟨.rollback l w tableId previous store hI.workerType hl.live hl.phase hrolled,
      fun _ _ => ⟨⟨hl.live, rfl⟩, fun h => nomatch hI.workerType.symm.trans h⟩, nofun⟩

lemma works_handleTableSyncWorkerError {e : EtlError} (hl : Prepares .engaged l) :
    Prog.Sat (Coordinated (.tableSync tableId)) (WorkerStep wal) (fun _ l => l.live = false)
      (handleTableSyncWorkerError config tableId e)
      (fun retry l' => l'.live = false ∧ (retry = true → Continues .connect l')) l := by
  refine Prog.Sat.bind (R := fun _ => Prepares .failed)
    (sat_request (fun w => .loop (.idle l w)) (fun _ => hl.live) fun w hI =>
      ⟨.storeError l w tableId e _ hI.workerType hl.live hl.phase, fun _ _ => ⟨hl.live, rfl⟩,
        nofun⟩) ?_
  intro policy l₁ hl₁
  have hreset : Prog.Sat (Coordinated (.tableSync tableId)) (WorkerStep wal)
      (fun _ l => l.live = false) (do resetRetryAttempts tableId; pure false)
      (fun retry l' => l'.live = false ∧ (retry = true → Continues .connect l')) l₁ := by
    refine Prog.Sat.bind (R := fun _ => Eq l₁) (Prog.sat_atom ?_) ?_
    · intro i w b l' w' hI hf
      cases hf
      exact ⟨.countAttempts l₁ w tableId 0 hI.workerType, rfl⟩
    · rintro - _ rfl
      exact ⟨hl₁.live, nofun⟩
  cases policy with
  | timedRetry =>
    refine Prog.Sat.bind (R := fun _ => Eq l₁) (Prog.sat_atom ?_) ?_
    · intro i w b l' w' hI hf
      cases hf
      exact ⟨.loop (.idle l₁ w), rfl⟩
    rintro again _ rfl
    refine Prog.sat_ite (fun _ => ?_) fun _ => hreset
    refine works_incrementRetryAttempts.bind ?_
    rintro - _ rfl
    refine (works_rollback hl₁).bind ?_
    intro _ l₂ hl₂
    exact ⟨hl₂.1.live, fun _ => hl₂⟩
  | manualRetry => exact hreset
  | noRetry => exact hreset

lemma works_recover {e : EtlError} (hfail : l.MayFail) :
    Works wal (.tableSync tableId) (recover config tableId e) Continues l := by
  refine (works_teardown hfail).bind ?_
  intro _ l₁ hl₁
  refine Prog.Sat.bind (R := fun r l' => l'.live = false ∧ (r = .ok true → Continues .connect l'))
    (Prog.sat_attempt_iff.2 ((works_handleTableSyncWorkerError hl₁).mono ?_ ?_)) ?_
  · rintro retry l' ⟨hlive, hretry⟩
    exact ⟨hlive, fun h => hretry (by simpa using h)⟩
  · intro e' l' hlive
    exact ⟨hlive, nofun⟩
  · rintro r l' ⟨hlive, hretry⟩
    rcases r with e' | (_ | _)
    · exact works_finishTask hlive
    · exact works_finishTask hlive
    · exact hretry rfl

end TableSyncWorker

def tableSyncScript (config : Config) (tableId : TableId) :
    Script EtlError Input ApplyLoop World Label where
  body
    | .launch => TableSyncWorker.launch tableId
    | .connect => TableSyncWorker.runTableSyncWorker config tableId
    | .iterate => runLoop config
    | .finish result => TableSyncWorker.finishLoop tableId result
    | .stopped => Prog.atom (β := Label) (fun _ _ _ => none) .done
  onError e := TableSyncWorker.recover config tableId e

lemma tableSyncScript_guarantees (config : Config) (tableId : TableId) :
    (tableSyncScript config tableId).Guarantees (Coordinated (.tableSync tableId))
      (WorkerStep config.wal) Continues (fun _ => MayFail) where
  body label l hl := by
    cases label with
    | launch =>
      refine Prog.sat_atom ?_
      intro i w b l' w' hI hf
      split at hf
      · rename_i hactive
        cases hf
        exact ⟨.engage l w tableId hI.workerType hl.1 hactive, ⟨hl.1, rfl⟩, hl.2⟩
      · cases hf
    | connect => exact TableSyncWorker.works_runTableSyncWorker hl
    | iterate => exact works_runLoop hl
    | finish result => exact TableSyncWorker.works_finishLoop hl
    | stopped =>
      intro i w b l' w' hI hf
      cases hf
  onError e l hl := TableSyncWorker.works_recover hl

end Etl
