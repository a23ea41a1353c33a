import Etl.Replication.Flush

/-!
# Coordination between the apply worker and table-sync workers

The apply worker gives a waiting table-sync worker its catchup target and blocks until the handover;
later it moves the table to `Ready`. The table-sync worker hands over once it has caught up.
-/

namespace Etl

namespace ApplyLoop

variable (l : ApplyLoop)

def withDecoders (decoders : TableId → Option TableDecodingState)
    (observed : Option (TableId × Bool)) : ApplyLoop :=
  { l with tableDecodingStates := decoders, observed := observed }

structure Attends (currentLsn : PgLsn) : Prop where
  live : l.live = true
  waiting : l.waiting = none
  going : l.stopping = false
  position : l.StandsAt currentLsn

/-- The tables that may become `Ready` at this position, with the checkpoint it has read. -/
structure Evaluates (currentLsn : PgLsn) (checkpoint : Option PgLsn) : Prop where
  live : l.live = true
  waiting : l.waiting = none
  handling : l.handling = none
  position : l.settled = some currentLsn ∨ l.state.progress.lastReceivedLsn = currentLsn
  seen : l.checkpointSeen = checkpoint

/-- A pass changes decoders only, unless a wait was given up because of a shutdown. -/
def Passes (exitIntent : Option ExitIntent) (l' : ApplyLoop) : Prop :=
  ∃ decoders observed, exitIntent = none ∧ l' = l.withDecoders decoders observed ∨
    exitIntent = some .pause ∧ l' = { l.withDecoders decoders observed with stopping := true }

variable {l}

lemma Attends.of_observed {currentLsn : PgLsn} (h : l.Attends currentLsn)
    (observed : Option (TableId × Bool)) :
    ({ l with observed := observed } : ApplyLoop).Attends currentLsn :=
  ⟨h.live, h.waiting, h.going, h.position⟩

lemma Evaluates.of_observed {currentLsn : PgLsn} {checkpoint : Option PgLsn}
    (h : l.Evaluates currentLsn checkpoint) (observed : Option (TableId × Bool)) :
    ({ l with observed := observed } : ApplyLoop).Evaluates currentLsn checkpoint :=
  ⟨h.live, h.waiting, h.handling, h.position, h.seen⟩

lemma Passes.refl : l.Passes none l := ⟨l.tableDecodingStates, l.observed, .inl ⟨rfl, rfl⟩⟩

end ApplyLoop

/-! ## The apply worker -/

namespace ApplyWorker

def isWorkerActive (tableId : TableId) : Task Bool :=
  Prog.atom
    (fun _ l w => some (w.isActive tableId, { l with observed := some (tableId, w.isActive tableId) }, w))
    .done

def getSyncingTables : Task (List (TableId × TableState)) :=
  request fun l w => (.ok w.store.getSyncingTables, { l with listed := w.store.getSyncingTables }, w)

def getReplicationCheckpoint : Task (Option PgLsn) :=
  request fun l w =>
    let checkpoint := w.store.replicationCheckpoints l.workerType
    (.ok checkpoint, { l with checkpointSeen := checkpoint }, w)

/-- The pool takes the new worker unless one is running. A failure is only logged. -/
def startTableSyncWorker (tableId : TableId) : Task Unit :=
  Prog.atom
    (fun i l w =>
      some ((), { l with observed := none },
        match i.fault, w.store.getTableState tableId with
        | none, some state =>
          if w.isActive tableId then w
          else { w with pool := Function.update w.pool tableId (some ⟨state, true, 0⟩) }
        | _, _ => w))
    .done

def resetAndStart (tableId : TableId) : Task Unit := do
  modifyLoop fun l => l.setDecoder tableId none
  startTableSyncWorker tableId

def waitForTableSyncWorkerCatchup (tableId : TableId) : Task (Option ExitIntent) :=
  Prog.atom
    (fun i l w =>
      if i.shutdownFirst && w.shutdown then
        some (some .pause, { l with waiting := none, stopping := true }, w)
      else
        match w.poolState tableId with
        | some (.syncDone _ _) => some (none, { l with waiting := none }, w)
        | some (.errored _ _) => some (none, { l with waiting := none }, w)
        | _ => none)
    .done

def processSingleSyncingTableAfterCommitEvent (currentLsn : PgLsn) (table : TableId × TableState) :
    Task (Option ExitIntent) := do
  let tableId := table.1
  if ← isWorkerActive tableId then
    let wait ← Prog.atom (fun _ l w =>
      match w.poolState tableId with
      | some (.syncWait snapshotLsn) =>
        some (true, { l with waiting := some tableId },
          w.setAndStore tableId (.catchup (max snapshotLsn currentLsn)))
      | some (.catchup _) => some (true, { l with waiting := some tableId }, w)
      | some _ => some (false, l, w)
      | none => none) .done
    if wait then waitForTableSyncWorkerCatchup tableId else pure none
  else
    match table.2 with
    | .syncDone _ _ => pure none
    | _ =>
      resetAndStart tableId
      pure none

def processSyncingTablesAfterCommitEvent (currentLsn : PgLsn) : Task (Option ExitIntent) := do
  let tables ← getSyncingTables
  Prog.findFirst (processSingleSyncingTableAfterCommitEvent currentLsn) tables

def storeReady (currentLsn : PgLsn) (persistedCheckpointLsn : Option PgLsn) (tableId : TableId)
    (syncDoneLsn : PgLsn) : Task Unit := do
  if ← readLoop fun l => canTransitionToReady currentLsn persistedCheckpointLsn syncDoneLsn
      (hasMaterializedDecodingState (l.tableDecodingStates tableId)) then
    request fun l w => (.ok (), l, w.promote tableId false)

def processSingleSyncingTableAfterFlush (currentLsn : PgLsn) (persistedCheckpointLsn : Option PgLsn)
    (table : TableId × TableState) : Task Unit := do
  let tableId := table.1
  if ← isWorkerActive tableId then
    Prog.call fun i l w =>
      match w.poolState tableId with
      | some (.syncDone syncDoneLsn _) =>
        if canTransitionToReady currentLsn persistedCheckpointLsn syncDoneLsn
            (hasMaterializedDecodingState (l.tableDecodingStates tableId)) then
          match i.fault with
          | some e => some (.error e, l, w)
          | none => some (.ok (), l, w.promote tableId true)
        else some (.ok (), l, w)
      | some _ => some (.ok (), l, w)
      | none => none
  else
    match table.2 with
    | .syncDone syncDoneLsn _ => storeReady currentLsn persistedCheckpointLsn tableId syncDoneLsn
    | _ => resetAndStart tableId

def processSyncingTablesAfterFlush (currentLsn : PgLsn) : Task Unit := do
  let tables ← getSyncingTables
  if tables.isEmpty then pure ()
  else
    let checkpoint ← getReplicationCheckpoint
    let _ ← Prog.findFirst (β := Unit) (fun table => do
      processSingleSyncingTableAfterFlush currentLsn checkpoint table
      pure none) tables

def processSingleSyncingTableWhenQuiescent (currentLsn : PgLsn)
    (persistedCheckpointLsn : Option PgLsn) (table : TableId × TableState) :
    Task (Option ExitIntent) := do
  let tableId := table.1
  if ← isWorkerActive tableId then
    let wait ← Prog.call fun i l w =>
      match w.poolState tableId with
      | some (.syncWait snapshotLsn) =>
        some (.ok true, { l with waiting := some tableId },
          w.setAndStore tableId (.catchup (max snapshotLsn currentLsn)))
      | some (.syncDone syncDoneLsn _) =>
        if canTransitionToReady currentLsn persistedCheckpointLsn syncDoneLsn
            (hasMaterializedDecodingState (l.tableDecodingStates tableId)) then
          match i.fault with
          | some e => some (.error e, l, w)
          | none => some (.ok false, l, w.promote tableId true)
        else some (.ok false, l, w)
      | some (.catchup _) => some (.ok true, { l with waiting := some tableId }, w)
      | some _ => some (.ok false, l, w)
      | none => none
    if wait then waitForTableSyncWorkerCatchup tableId else pure none
  else
    match table.2 with
    | .syncDone syncDoneLsn _ =>
      storeReady currentLsn persistedCheckpointLsn tableId syncDoneLsn
      pure none
    | _ =>
      resetAndStart tableId
      pure none

def processSyncingTablesWhenQuiescent (currentLsn : PgLsn) : Task (Option ExitIntent) := do
  let tables ← getSyncingTables
  if tables.isEmpty then pure none
  else
    let checkpoint ← getReplicationCheckpoint
    Prog.findFirst (processSingleSyncingTableWhenQuiescent currentLsn checkpoint) tables

/-- A question about the current transaction is also noted in the history. -/
def shouldApplyChanges (deciding : Bool) (tableId : TableId) (lsn : PgLsn) : Task Bool := do
  let answer := fun (l : ApplyLoop) (w : World) (state : Option TableState) =>
    let ready := state.any fun s => isStateReadyForChanges s lsn
    if deciding then
      (ready, { l with owned := if ready then some (tableId, lsn) else none, observed := none },
        w.recordDecision tableId lsn ready)
    else (ready, { l with retaining := if ready then some (tableId, lsn) else none }, w)
  if ← isWorkerActive tableId then
    Prog.atom (fun _ l w =>
      match w.poolState tableId with
      | some state => some (answer l w (some state))
      | none => none) .done
  else
    request fun l w =>
      let (ready, l', w') := answer l w (w.store.getTableState tableId)
      (.ok ready, l', w')

/-! ### What the passes do -/

section Passes

variable {l : ApplyLoop} {tableId : TableId} {currentLsn : PgLsn}

lemma meets_isWorkerActive {E : EtlError → ApplyLoop → Prop} :
    Prog.Sat (Coordinated .apply) LoopStep E (isWorkerActive tableId)
      (fun active l' => l' = { l with observed := some (tableId, active) }) l := by
  refine Prog.sat_atom ?_
  intro i w active l' w' hI hf
  cases hf
  exact ⟨.observe l w (some (tableId, w.isActive tableId)) (by simp), rfl⟩

lemma meets_getSyncingTables (hwaiting : l.waiting = none) :
    Meets .apply getSyncingTables (fun tables l' => l' = { l with listed := tables }) l := by
  refine meets_request hwaiting nofun fun w _ => ⟨.list l w, ?_⟩
  rintro tables ⟨⟩
  rfl

lemma meets_getReplicationCheckpoint (hwaiting : l.waiting = none) :
    Meets .apply getReplicationCheckpoint
      (fun checkpoint l' => l' = { l with checkpointSeen := checkpoint }) l := by
  refine meets_request hwaiting nofun fun w _ => ⟨.readCheckpoint l w, ?_⟩
  rintro checkpoint ⟨⟩
  rfl

lemma meets_startTableSyncWorker (hlive : l.live = true) :
    Meets .apply (startTableSyncWorker tableId) (fun _ l' => l' = { l with observed := none }) l := by
  refine Prog.sat_atom ?_
  intro i w b l' w' hI hf
  cases hf
  refine ⟨?_, rfl⟩
  split
  · rename_i state _ hstate
    split
    · exact .observe l w none nofun
    · rename_i hactive
      exact .spawn l w tableId _ hI.workerType hlive (by simpa using hactive) hstate
  · exact .observe l w none nofun

lemma meets_resetAndStart (hlive : l.live = true) :
    Meets .apply (resetAndStart tableId)
      (fun _ l' => l' = { l.setDecoder tableId none with observed := none }) l := by
  refine (meets_modifyLoop (Q := fun _ l' => l' = l.setDecoder tableId none)
    (fun w hI => .resetDecoder l w tableId hI.workerType) fun _ => rfl).bind ?_
  rintro - l' rfl
  exact meets_startTableSyncWorker hlive

lemma meets_waitForTableSyncWorkerCatchup (tableId : TableId) (hwaiting : l.waiting = none) :
    Meets .apply (waitForTableSyncWorkerCatchup tableId) l.Passes
      { l with waiting := some tableId } := by
  have hsame : ({ l with waiting := none } : ApplyLoop) = l := by rw [← hwaiting]
  refine Prog.sat_atom ?_
  intro i w r l' w' hI hf
  split at hf
  · rename_i hshutdown
    cases hf
    simp only [Bool.and_eq_true] at hshutdown
    refine ⟨.giveUp _ w tableId rfl hshutdown.2, l.tableDecodingStates, l.observed, .inr ⟨rfl, ?_⟩⟩
    exact congrArg (fun l : ApplyLoop => { l with stopping := true }) hsame
  · split at hf
    all_goals rename_i hstate
    · cases hf
      exact ⟨.caughtUp _ w tableId rfl (by simp [hstate]), _, _, .inl ⟨rfl, hsame⟩⟩
    · cases hf
      exact ⟨.caughtUp _ w tableId rfl (by simp [hstate]), _, _, .inl ⟨rfl, hsame⟩⟩
    · cases hf

lemma meets_wait {wait : Bool} (hwaiting : l.waiting = none) :
    Meets .apply (if wait then waitForTableSyncWorkerCatchup tableId else pure none) l.Passes
      (if wait then { l with waiting := some tableId } else l) := by
  cases wait with
  | true => exact meets_waitForTableSyncWorkerCatchup tableId hwaiting
  | false => exact .refl

lemma meets_resetAndStart_passes (hlive : l.live = true) :
    Meets .apply (do resetAndStart tableId; pure none) l.Passes l := by
  refine (meets_resetAndStart hlive).bind ?_
  rintro - l' rfl
  exact ⟨_, _, .inl ⟨rfl, rfl⟩⟩

variable {table : TableId × TableState}

lemma meets_processSingleSyncingTableAfterCommitEvent (hl : l.Attends currentLsn) :
    Meets .apply (processSingleSyncingTableAfterCommitEvent currentLsn table) l.Passes l := by
  refine meets_isWorkerActive.bind ?_
  rintro active l' rfl
  replace hl := hl.of_observed (some (table.1, active))
  change Meets .apply _ ({ l with observed := some (table.1, active) } : ApplyLoop).Passes _
  generalize { l with observed := some (table.1, active) } = l at hl ⊢
  refine Prog.sat_ite (fun _ => ?_) fun _ => ?_
  · refine Prog.Sat.bind (R := fun wait l' => l' = if wait then { l with waiting := some table.1 }
      else l) (Prog.sat_atom ?_) ?_
    · intro i w wait l' w' hI hf
      split at hf
      all_goals rename_i hstate
      · cases hf
        exact ⟨.setCatchup l w table.1 _ currentLsn hI.workerType hl.live hl.position hl.going
          hl.waiting hstate, rfl⟩
      · cases hf
        exact ⟨.awaitCatchup l w table.1 hl.live hl.waiting, rfl⟩
      · cases hf
        exact ⟨.idle l w, rfl⟩
      · cases hf
    · rintro wait l' rfl
      exact meets_wait hl.waiting
  · split
    · exact .refl
    · exact meets_resetAndStart_passes hl.live

lemma meets_findFirst {f : TableId × TableState → Task (Option ExitIntent)}
    {tables : List (TableId × TableState)}
    (hf : ∀ table ∈ tables, ∀ decoders observed, Meets .apply (f table)
      (l.withDecoders decoders observed).Passes (l.withDecoders decoders observed)) :
    Meets .apply (Prog.findFirst f tables) l.Passes l := by
  refine Prog.sat_findFirst (R := fun l' => ∃ decoders observed, l' = l.withDecoders decoders observed)
    ?_ ?_ ⟨l.tableDecodingStates, l.observed, rfl⟩
  · rintro table htable - ⟨decoders, observed, rfl⟩
    refine (hf table htable decoders observed).mono ?_ fun _ _ h => h
    rintro r l' ⟨decoders', observed', ⟨rfl, rfl⟩ | ⟨rfl, rfl⟩⟩
    · exact ⟨fun _ => ⟨decoders', observed', rfl⟩, fun h => absurd rfl h⟩
    · exact ⟨fun h => absurd h (by simp), fun _ => ⟨decoders', observed', .inr ⟨rfl, rfl⟩⟩⟩
  · rintro - ⟨decoders, observed, rfl⟩
    exact ⟨decoders, observed, .inl ⟨rfl, rfl⟩⟩

lemma meets_processSyncingTablesAfterCommitEvent (hl : l.Attends currentLsn) :
    Meets .apply (processSyncingTablesAfterCommitEvent currentLsn)
      (fun exitIntent l' => ∃ listed, ({ l with listed := listed } : ApplyLoop).Passes exitIntent l')
      l := by
  refine (meets_getSyncingTables hl.waiting).bind ?_
  rintro tables l' rfl
  refine (meets_findFirst fun table _ decoders observed => ?_).mono (fun _ _ h => ⟨tables, h⟩) fun _ _ h => h
  exact meets_processSingleSyncingTableAfterCommitEvent ⟨hl.live, hl.waiting, hl.going, hl.position⟩

lemma meets_findFirst_unit {f : TableId × TableState → Task Unit}
    {tables : List (TableId × TableState)}
    (hf : ∀ table ∈ tables, ∀ decoders observed, Meets .apply (f table)
      (fun _ l' => ∃ decoders' observed',
        l' = (l.withDecoders decoders observed).withDecoders decoders' observed')
      (l.withDecoders decoders observed)) :
    Meets .apply (Prog.findFirst (β := Unit) (fun table => do f table; pure none) tables)
      (fun _ l' => ∃ decoders observed, l' = l.withDecoders decoders observed) l := by
  refine Prog.sat_findFirst (R := fun l' => ∃ decoders observed, l' = l.withDecoders decoders observed)
    ?_ (fun _ h => h) ⟨l.tableDecodingStates, l.observed, rfl⟩
  rintro table htable - ⟨decoders, observed, rfl⟩
  refine (hf table htable decoders observed).bind ?_
  rintro - l' ⟨decoders', observed', rfl⟩
  exact ⟨fun _ => ⟨decoders', observed', rfl⟩, fun h => absurd rfl h⟩

lemma meets_storeReady {checkpoint : Option PgLsn} {syncDoneLsn : PgLsn}
    {payload : Option StoredTableDecodingState} (hl : l.Evaluates currentLsn checkpoint)
    (hlisted : (tableId, .syncDone syncDoneLsn payload) ∈ l.listed)
    (hobserved : l.observed = some (tableId, false)) :
    Meets .apply (storeReady currentLsn checkpoint tableId syncDoneLsn) (fun _ => Eq l) l := by
  refine (meets_readLoop (Q := fun can l' => l = l' ∧ can = canTransitionToReady currentLsn checkpoint
    syncDoneLsn (hasMaterializedDecodingState (l.tableDecodingStates tableId)))
    fun _ => ⟨rfl, rfl⟩).bind ?_
  rintro can l' ⟨rfl, rfl⟩
  refine Prog.sat_ite (fun hcan => ?_) fun _ => rfl
  refine meets_request hl.waiting nofun fun w hI => ⟨?_, fun _ _ => rfl⟩
  have hcan' : canTransitionToReady currentLsn l.checkpointSeen syncDoneLsn
      (hasMaterializedDecodingState (l.tableDecodingStates tableId)) := by rwa [hl.seen]
  exact .ready l w tableId syncDoneLsn currentLsn payload false hI.workerType hl.live hl.position
    hl.handling hcan' hobserved hlisted

lemma step_ready {checkpoint : Option PgLsn} {syncDoneLsn : PgLsn} {w : World}
    {payload : Option StoredTableDecodingState} (hl : l.Evaluates currentLsn checkpoint)
    (hI : Coordinated .apply l w) (hobserved : l.observed = some (tableId, true))
    (hstate : w.poolState tableId = some (.syncDone syncDoneLsn payload))
    (hcan : canTransitionToReady currentLsn checkpoint syncDoneLsn
      (hasMaterializedDecodingState (l.tableDecodingStates tableId))) :
    LoopStep l w l (w.promote tableId true) := by
  have hcan' : canTransitionToReady currentLsn l.checkpointSeen syncDoneLsn
      (hasMaterializedDecodingState (l.tableDecodingStates tableId)) := by rwa [hl.seen]
  exact .ready l w tableId syncDoneLsn currentLsn payload true hI.workerType hl.live hl.position
    hl.handling hcan' hobserved hstate

lemma meets_processSingleSyncingTableAfterFlush {checkpoint : Option PgLsn} (hl : l.Evaluates currentLsn checkpoint)
    (hlisted : table ∈ l.listed) :
    Meets .apply (processSingleSyncingTableAfterFlush currentLsn checkpoint table)
      (fun _ l' => ∃ decoders observed, l' = l.withDecoders decoders observed) l := by
  refine meets_isWorkerActive.bind ?_
  rintro active l' rfl
  have hl₁ := hl.of_observed (some (table.1, active))
  refine Prog.sat_ite (fun hactive => Prog.sat_call ?_ ?_) fun hactive => ?_
  · intro i w _ l' w' hI hf
    split at hf
    all_goals rename_i hstate
    · split at hf
      · rename_i hcan
        split at hf <;> cases hf
        exact ⟨step_ready hl₁ hI (by rw [hactive]) hstate hcan, _, _, rfl⟩
      · cases hf
        exact ⟨.idle _ w, _, _, rfl⟩
    · cases hf
      exact ⟨.idle _ w, _, _, rfl⟩
    · cases hf
  · intro i w e l' w' hI hf
    repeat' split at hf
    all_goals cases hf
    exact ⟨.idle _ w, hl.waiting⟩
  · obtain ⟨tableId, state⟩ := table
    split
    · rename_i syncDoneLsn payload heq
      obtain rfl : state = .syncDone syncDoneLsn payload := heq
      refine (meets_storeReady hl₁ hlisted (by simpa using hactive)).mono ?_ fun _ _ h => h
      rintro - l' rfl
      exact ⟨_, _, rfl⟩
    · refine (meets_resetAndStart hl₁.live).mono ?_ fun _ _ h => h
      rintro - l' rfl
      exact ⟨_, _, rfl⟩

lemma meets_processSyncingTablesAfterFlush (hlive : l.live = true) (hhandling : l.handling = none)
    (hposition : l.settled = some currentLsn) (hwaiting : l.waiting = none) :
    Meets .apply (processSyncingTablesAfterFlush currentLsn)
      (fun _ l' => ∃ listed checkpoint decoders observed, l' = ({ l with
        listed := listed
        checkpointSeen := checkpoint } : ApplyLoop).withDecoders decoders observed) l := by
  refine (meets_getSyncingTables hwaiting).bind ?_
  rintro tables l' rfl
  refine Prog.sat_ite (fun _ => ⟨tables, l.checkpointSeen, _, _, rfl⟩) fun _ => ?_
  refine (meets_getReplicationCheckpoint (l := { l with listed := tables }) hwaiting).bind ?_
  rintro checkpoint l' rfl
  refine (meets_findFirst_unit fun table htable decoders observed => ?_).bind ?_
  · exact meets_processSingleSyncingTableAfterFlush
      ⟨hlive, hwaiting, hhandling, .inl hposition, rfl⟩ htable
  · rintro - l' ⟨decoders, observed, rfl⟩
    exact ⟨tables, checkpoint, decoders, observed, rfl⟩

lemma meets_processSingleSyncingTableWhenQuiescent {checkpoint : Option PgLsn} (hattends : l.Attends currentLsn)
    (hl : l.Evaluates currentLsn checkpoint) (hlisted : table ∈ l.listed) :
    Meets .apply (processSingleSyncingTableWhenQuiescent currentLsn checkpoint table) l.Passes l := by
  refine meets_isWorkerActive.bind ?_
  rintro active l' rfl
  change Meets .apply _ ({ l with observed := some (table.1, active) } : ApplyLoop).Passes _
  replace hattends := hattends.of_observed (some (table.1, active))
  replace hl := hl.of_observed (some (table.1, active))
  have hobserved : ({ l with observed := some (table.1, active) } : ApplyLoop).observed =
    some (table.1, active) := rfl
  have hlisted : table ∈ ({ l with observed := some (table.1, active) } : ApplyLoop).listed := hlisted
  generalize { l with observed := some (table.1, active) } = l at hl hattends hobserved hlisted ⊢
  refine Prog.sat_ite (fun hactive => ?_) fun hactive => ?_
  · refine Prog.Sat.bind (R := fun wait l' => l' = if wait then { l with waiting := some table.1 }
      else l) (Prog.sat_call ?_ ?_) ?_
    · intro i w wait l' w' hI hf
      split at hf
      all_goals rename_i hstate
      · cases hf
        exact ⟨.setCatchup l w table.1 _ currentLsn hI.workerType hattends.live hattends.position
          hattends.going hattends.waiting hstate, rfl⟩
      · split at hf
        · rename_i hcan
          split at hf <;> cases hf
          exact ⟨step_ready hl hI (by rw [hobserved, hactive]) hstate hcan, rfl⟩
        · cases hf
          exact ⟨.idle l w, rfl⟩
      · cases hf
        exact ⟨.awaitCatchup l w table.1 hattends.live hattends.waiting, rfl⟩
      · cases hf
        exact ⟨.idle l w, rfl⟩
      · cases hf
    · intro i w e l' w' hI hf
      repeat' split at hf
      all_goals cases hf
      exact ⟨.idle l w, hl.waiting⟩
    · rintro wait l' rfl
      exact meets_wait hattends.waiting
  · obtain ⟨tableId, state⟩ := table
    split
    · rename_i syncDoneLsn payload heq
      obtain rfl : state = .syncDone syncDoneLsn payload := heq
      refine (meets_storeReady hl hlisted (by simpa [hobserved] using hactive)).bind ?_
      rintro - l' rfl
      exact .refl
    · exact meets_resetAndStart_passes hl.live

lemma meets_processSyncingTablesWhenQuiescent (hl : l.Attends currentLsn)
    (hhandling : l.handling = none) (hposition : l.state.progress.lastReceivedLsn = currentLsn) :
    Meets .apply (processSyncingTablesWhenQuiescent currentLsn)
      (fun exitIntent l' => ∃ listed checkpoint, ({ l with
        listed := listed
        checkpointSeen := checkpoint } : ApplyLoop).Passes exitIntent l') l := by
  refine (meets_getSyncingTables hl.waiting).bind ?_
  rintro tables l' rfl
  refine Prog.sat_ite (fun _ => ⟨tables, l.checkpointSeen, .refl⟩) fun _ => ?_
  refine (meets_getReplicationCheckpoint (l := { l with listed := tables }) hl.waiting).bind ?_
  rintro checkpoint l' rfl
  refine (meets_findFirst fun table htable decoders observed => ?_).mono
    (fun _ _ h => ⟨tables, checkpoint, h⟩) fun _ _ h => h
  exact meets_processSingleSyncingTableWhenQuiescent
    ⟨hl.live, hl.waiting, hl.going, hl.position⟩
    ⟨hl.live, hl.waiting, hhandling, .inr hposition, rfl⟩ htable

lemma meets_shouldApplyChanges {lsn : PgLsn} (hlive : l.live = true) (htx : l.tx = some lsn)
    (hfinal : l.state.remoteFinalLsn = some lsn) (hintake : l.state.exitIntent = none)
    (hgoing : l.stopping = false) (hwaiting : l.waiting = none) :
    Meets .apply (shouldApplyChanges true tableId lsn) (fun ready l' => l' = { l with
      owned := if ready then some (tableId, lsn) else none
      observed := none }) l := by
  refine meets_isWorkerActive.bind ?_
  rintro active l' rfl
  refine Prog.sat_ite (fun hactive => Prog.sat_atom ?_) fun hactive =>
    meets_request hwaiting nofun fun w hI => ⟨?_, ?_⟩
  · intro i w ready l' w' hI hf
    split at hf <;> cases hf
    rename_i state hstate
    exact ⟨.decide _ w tableId lsn (some state) hI.workerType hlive htx hfinal hintake hgoing
      hwaiting (.inl ⟨hstate, rfl, by rw [hactive]⟩), rfl⟩
  · exact .decide _ w tableId lsn _ hI.workerType hlive htx hfinal hintake hgoing hwaiting
      (.inr ⟨rfl, by simpa using hactive⟩)
  · rintro ready ⟨⟩
    rfl

lemma sat_shouldApplyChanges_retain {checkpoint : PgLsn} {E : EtlError → ApplyLoop → Prop}
    (hE : ∀ e observed, E e { l with observed := observed })
    (hseen : l.checkpointSeen = some checkpoint) :
    Prog.Sat (Coordinated .apply) LoopStep E (shouldApplyChanges false tableId checkpoint)
      (fun ready l' => ∃ observed, l' = { l with
        retaining := if ready then some (tableId, checkpoint) else none
        observed := observed }) l := by
  refine meets_isWorkerActive.bind ?_
  rintro active l' rfl
  refine Prog.sat_ite (fun _ => Prog.sat_atom ?_) fun _ =>
    sat_request (LoopStep.idle _) (fun e => hE e _) fun w hI => ⟨?_, ?_, ?_⟩
  · intro i w ready l' w' hI hf
    split at hf <;> cases hf
    rename_i state hstate
    exact ⟨.retain _ w tableId checkpoint (some state) hI.workerType hseen (.inl ⟨hstate, rfl⟩), _,
      rfl⟩
  · exact .retain _ w tableId checkpoint _ hI.workerType hseen (.inr rfl)
  · rintro ready ⟨⟩
    exact ⟨_, rfl⟩
  · rintro e ⟨⟩

end Passes

end ApplyWorker

/-! ## The table-sync worker -/

namespace TableSyncWorker

def buildSyncDoneState (syncDoneLsn : PgLsn) :
    Option TableDecodingState → Except EtlError TableState
  | some (.withSchema schema) => .ok (.ofSyncDone syncDoneLsn schema)
  | some (.pendingRelation _ _) =>
    .error ⟨.invalidState, "Table-sync decoding state is incomplete"⟩
  | none => .error ⟨.invalidState, "Table-sync decoding state is missing"⟩

def catchupTargetReached (tableId : TableId) (currentLsn : PgLsn) : Task Bool :=
  inspect fun w =>
    match w.poolState tableId with
    | some (.catchup catchupLsn) => catchupLsn ≤ currentLsn
    | _ => false

def processSyncingTablesAfterCommitEvent (tableId : TableId) (currentLsn : PgLsn) :
    Task (Option ExitIntent) :=
  inspect fun w =>
    match w.poolState tableId with
    | some (.catchup catchupLsn) => if catchupLsn ≤ currentLsn then some .complete else none
    | _ => none

def tryCompleteCatchup (tableId : TableId) (currentLsn : PgLsn) : Task (Option ExitIntent) :=
  Prog.call fun i l w =>
    match w.poolState tableId with
    | some (.catchup catchupLsn) =>
      if catchupLsn ≤ currentLsn then
        match buildSyncDoneState currentLsn (l.tableDecodingStates tableId), i.fault with
        | .error e, _ => some (.error e, l, w)
        | .ok _, some e => some (.error e, l, w)
        | .ok state, none =>
          some (.ok (some .complete), { l with done := true },
            (w.setAndStore tableId state).recordHandover tableId currentLsn)
      else some (.ok none, l, w)
    | _ => some (.ok none, l, w)

/-! ### What the steps towards the handover do -/

section Catchup

variable {l : ApplyLoop} {tableId : TableId} {currentLsn : PgLsn}

lemma meets_catchupTargetReached (hlive : l.live = true) (hdone : l.done = false) :
    Meets (.tableSync tableId) (catchupTargetReached tableId currentLsn)
      (fun reached l' => l = l' ∧ (reached = true → l.target ≤ currentLsn)) l := by
  refine meets_inspect fun w hI => ⟨rfl, ?_⟩
  rw [hI.catchup tableId rfl hlive hdone]
  exact of_decide_eq_true

lemma meets_processSyncingTablesAfterCommitEvent_sync (hlive : l.live = true)
    (hdone : l.done = false) :
    Meets (.tableSync tableId) (processSyncingTablesAfterCommitEvent tableId currentLsn)
      (fun exitIntent l' => l = l' ∧ (exitIntent = some .complete ∧ l.target ≤ currentLsn ∨
        exitIntent = none ∧ currentLsn < l.target)) l := by
  refine meets_inspect fun w hI => ⟨rfl, ?_⟩
  rw [hI.catchup tableId rfl hlive hdone]
  simp only
  split
  · exact .inl ⟨rfl, ‹_›⟩
  · exact .inr ⟨rfl, not_le.1 ‹_›⟩

lemma meets_tryCompleteCatchup (hlive : l.live = true) (hrest : l.AtRest)
    (hreached : l.done = false → l.target ≤ currentLsn → l.state.isQuiescent ∧
      (l.settled = some currentLsn ∨ l.state.progress.lastReceivedLsn = currentLsn)) :
    Meets (.tableSync tableId) (tryCompleteCatchup tableId currentLsn)
      (fun exitIntent l' =>
        exitIntent = none ∧ l' = l ∧ (l.done = true ∨ currentLsn < l.target) ∨
        exitIntent = some .complete ∧ l.done = false ∧ l.target ≤ currentLsn ∧
          l' = { l with done := true }) l := by
  refine Prog.sat_call ?_ ?_
  · intro i w r l' w' hI hf
    cases hdone : l.done with
    | true =>
      have hstate := hI.handedOver tableId rfl hlive hdone
      split at hf
      · rename_i hcatchup
        rcases hstate with h | ⟨lsn, payload, h⟩ <;> rw [hcatchup] at h <;> cases h
      · cases hf
        exact ⟨.idle _ _, .inl ⟨rfl, rfl, .inl rfl⟩⟩
    | false =>
      rw [hI.catchup tableId rfl hlive hdone] at hf
      simp only at hf
      split at hf
      · rename_i hle
        obtain ⟨hq, hposition⟩ := hreached hdone hle
        have htx : l.tx = none := hrest.tx.trans (ApplyLoopState.isQuiescent_iff.1 hq).1
        unfold buildSyncDoneState at hf
        split at hf <;> rename_i hbuild hfault <;> cases hf
        split at hbuild <;> rename_i hdecoder <;> cases hbuild
        exact ⟨.syncDone l w tableId currentLsn _ hI.workerType hlive
          (hI.catchup tableId rfl hlive hdone) hle hdecoder hrest.handling htx hq hposition,
          .inr ⟨rfl, rfl, hle, rfl⟩⟩
      · cases hf
        exact ⟨.idle _ _, .inl ⟨rfl, rfl, .inr (not_le.1 ‹_›)⟩⟩
  · intro i w e l' w' hI hf
    repeat' split at hf
    all_goals cases hf
    all_goals exact ⟨.idle _ _, hrest.waiting⟩

end Catchup

end TableSyncWorker

end Etl
