import Etl.Destinations.DuckLake.KeySet
import Etl.Destinations.DuckLake.ReplayState

/-!
# Buffered table copies

The batches of a copy are staged in one session and committed in windows, each with a marker for
every batch. A window that fails invalidates the session, and the copy starts again with a drop. A
`CopyCall` is one call with all its endings. The results are about every sequence of calls in which
a drop that failed is repeated until it succeeds.
-/

namespace Etl.DuckLake

/-! ## Batch identifiers -/

structure TableCopyBatchId where
  attemptId : BitVec 128
  sequence : UInt64
deriving DecidableEq

def TableCopyBatchId.toText (batchId : TableCopyBatchId) : String :=
  String.ofList (uuidText batchId.attemptId ++ ':' :: Text.render 10 batchId.sequence.toNat)

def copyCompleteBatchId (fingerprint : UInt64) : String :=
  String.ofList (['c', 'o', 'p', 'y', '_', 'c', 'o', 'm', 'p', 'l', 'e', 't', 'e'] ++ ':' ::
    (Text.lowerHex 16 0 ++ ':' :: (Text.lowerHex 16 0 ++
      ':' :: Text.lowerHex 16 fingerprint.toNat)))

/-! ## The accumulator -/

structure PreparedDuckLakeCopyBatch where
  tableName : DuckLakeTableName
  replayEpoch : String
  batchId : String
  insertColumnNames : List String
  estimatedBytes : Nat

structure CopyCompleteBatch where
  tableName : DuckLakeTableName
  replayEpoch : String
  batchId : String

/-- The staging table is known by the batches whose rows it holds. -/
structure DuckLakeCopyAccumulator where
  tableName : DuckLakeTableName
  replayEpoch : String
  insertColumnNames : List String
  staging : List String
  pendingMarkers : List String
  stagedBytes : Nat

structure CopyTransaction where
  replayEpoch : String
  rows : List String
  markers : List String

structure CopyStore where
  lake : Lake
  transactions : List CopyTransaction

def CopyStore.commit (store : CopyStore) (name : DuckLakeTableName) (t : CopyTransaction) :
    CopyStore where
  lake := { store.lake.setContents name (store.lake.contents name ++ t.rows.map .copied) with
    markers := store.lake.markers ++ t.markers.map fun batchId =>
      ⟨name.id, some t.replayEpoch, batchId⟩ }
  transactions := store.transactions ++ [t]

inductive AppendEnd where
  | markerLookupFails (error : EtlError)
  /-- The rows may be staged all the same. -/
  | loadFails (error : EtlError) (loaded : Bool)
  | succeeds

inductive FlushEnd where
  | rolledBack (error : EtlError)
  | commitFails (error : EtlError) (landed : Bool)
  | clearFails (error : EtlError)
  | succeeds

namespace DuckLakeCopyAccumulator

def new (batch : PreparedDuckLakeCopyBatch) : DuckLakeCopyAccumulator :=
  ⟨batch.tableName, batch.replayEpoch, batch.insertColumnNames, [], [], 0⟩

def append (accumulator : DuckLakeCopyAccumulator) (lake : Lake)
    (batch : PreparedDuckLakeCopyBatch) (ending : AppendEnd) :
    Except EtlError Bool × DuckLakeCopyAccumulator :=
  if batch.tableName ≠ accumulator.tableName ∨ batch.replayEpoch ≠ accumulator.replayEpoch ∨
      batch.insertColumnNames ≠ accumulator.insertColumnNames then
    (.error ⟨.invalidState, "DuckLake buffered copy batch does not match its staging session"⟩,
      accumulator)
  else if batch.batchId ∈ accumulator.pendingMarkers then (.ok false, accumulator)
  else
    match ending with
    | .markerLookupFails error => (.error error, accumulator)
    | .loadFails error loaded =>
      if lake.appliedBatchMarkerIdExists batch.tableName batch.replayEpoch batch.batchId then
        (.ok false, accumulator)
      else
        (.error error,
          if loaded then { accumulator with staging := accumulator.staging ++ [batch.batchId] }
          else accumulator)
    | .succeeds =>
      if lake.appliedBatchMarkerIdExists batch.tableName batch.replayEpoch batch.batchId then
        (.ok false, accumulator)
      else
        (.ok true,
          { accumulator with
            staging := accumulator.staging ++ [batch.batchId]
            pendingMarkers := accumulator.pendingMarkers ++ [batch.batchId]
            stagedBytes := Machine.saturatingAdd (2 ^ 64 - 1) accumulator.stagedBytes
              batch.estimatedBytes })

/-- The staged rows if there are markers, the markers, and the copy-complete marker unless it
exists. -/
def window (accumulator : DuckLakeCopyAccumulator) (lake : Lake)
    (copyComplete : Option CopyCompleteBatch) : CopyTransaction where
  replayEpoch := accumulator.replayEpoch
  rows := if accumulator.pendingMarkers.isEmpty then [] else accumulator.staging
  markers := accumulator.pendingMarkers ++
    (copyComplete.toList.filter fun batch => !lake.appliedBatchMarkerIdExists batch.tableName
      batch.replayEpoch batch.batchId).map (·.batchId)

def flush (accumulator : DuckLakeCopyAccumulator) (store : CopyStore)
    (copyComplete : Option CopyCompleteBatch) (ending : FlushEnd) :
    Except EtlError Unit × DuckLakeCopyAccumulator × CopyStore :=
  if accumulator.pendingMarkers.isEmpty ∧ copyComplete.isNone then (.ok (), accumulator, store)
  else if copyComplete.any fun batch => batch.tableName ≠ accumulator.tableName ∨
      batch.replayEpoch ≠ accumulator.replayEpoch then
    (.error ⟨.invalidState, "DuckLake copy-complete marker does not match its buffered session"⟩,
      accumulator, store)
  else
    let committed :=
      store.commit accumulator.tableName (accumulator.window store.lake copyComplete)
    match ending with
    | .rolledBack error => (.error error, accumulator, store)
    | .commitFails error landed => (.error error, accumulator, if landed then committed else store)
    | .clearFails error => (.error error, accumulator, committed)
    | .succeeds =>
      (.ok (), { accumulator with staging := [], pendingMarkers := [], stagedBytes := 0 },
        committed)

end DuckLakeCopyAccumulator

/-! ## Calls -/

/-- The runner may refuse an operation, or report an error although it has ended without one. -/
structure RunnerEnd where
  refused : Option EtlError
  reported : Option EtlError

def RunnerEnd.run {α σ : Type} (runner : RunnerEnd) (before : σ)
    (operation : Except EtlError α × σ) : Except EtlError α × σ :=
  match runner.refused with
  | some error => (.error error, before)
  | none =>
    match runner.reported with
    | some error => (.error error, operation.2)
    | none => operation

structure CopyBufferConfig where
  targetBytes : Nat
  maxTotalBytes : Nat

/-- A table's entry in `copy_buffers` and whether it is in `failed_copy_buffers`. -/
structure Session where
  store : CopyStore
  buffer : Option DuckLakeCopyAccumulator
  failed : Bool

structure WriteEnds where
  early : Option EtlError
  /-- How the flush that makes room ends, if the capacity is used up. -/
  capacity : Option (RunnerEnd × FlushEnd)
  waited : Option EtlError
  runner : RunnerEnd
  append : AppendEnd
  flush : FlushEnd

inductive ApplyEnd where
  | fails (error : EtlError) (landed : Bool)
  | succeeds

structure CompleteEnds where
  early : Option EtlError
  runner : RunnerEnd
  flush : FlushEnd
  apply : ApplyEnd
  restore : Option EtlError

inductive DropEnd where
  | beforeEpoch (error : EtlError)
  | beginEpoch (error : EtlError) (landed : Bool)
  | dropTable (error : EtlError) (landed : Bool)
  | completeEpoch (error : EtlError) (landed : Bool)
  | succeeds

namespace Session

def invalidate (session : Session) : Session := { session with buffer := none, failed := true }

def invalidatedCopyBufferError : EtlError :=
  ⟨.destinationAtomicBatchRetryable, "DuckLake buffered table copy was invalidated"⟩

section

variable (config : CopyBufferConfig) (name : DuckLakeTableName) (session : Session)

def reserveCopyBufferCapacity (accumulator : DuckLakeCopyAccumulator) (ends : WriteEnds) :
    Except EtlError DuckLakeCopyAccumulator × Session :=
  match ends.capacity with
  | none => (.ok accumulator, { session with buffer := some accumulator })
  | some (runner, ending) =>
    match runner.run (accumulator, session.store) (accumulator.flush session.store none ending) with
    | (.error error, _, store) => (.error error, { session with store := store }.invalidate)
    | (.ok (), accumulator, store) =>
      let session := { session with store := store, buffer := some accumulator }
      match ends.waited with
      | some error => (.error error, session)
      | none => (.ok accumulator, session)

def appendAndFlush (accumulator : DuckLakeCopyAccumulator) (store : CopyStore)
    (batch : PreparedDuckLakeCopyBatch) (ends : WriteEnds) :
    Except EtlError Unit × DuckLakeCopyAccumulator × CopyStore :=
  match accumulator.append store.lake batch ends.append with
  | (.error error, accumulator) => (.error error, accumulator, store)
  | (.ok false, accumulator) => (.ok (), accumulator, store)
  | (.ok true, accumulator) =>
    if config.targetBytes ≤ accumulator.stagedBytes then accumulator.flush store none ends.flush
    else (.ok (), accumulator, store)

def writeRows (batchId : TableCopyBatchId) (insertColumnNames : List String)
    (estimatedBytes : Nat) (ends : WriteEnds) : Except EtlError Unit × Session :=
  match ends.early with
  | some error => (.error error, session)
  | none =>
    if session.failed then (.error invalidatedCopyBufferError, session)
    else if config.maxTotalBytes < estimatedBytes then
      (.error ⟨.validationError, "DuckLake copy batch exceeds the configured buffer maximum"⟩,
        session)
    else
      let batch := ⟨name, session.store.lake.readTableReplayEpoch name, batchId.toText,
        insertColumnNames, estimatedBytes⟩
      match session.reserveCopyBufferCapacity (session.buffer.getD (.new batch)) ends with
      | (.error error, session) => (.error error, session)
      | (.ok accumulator, session) =>
        match ends.runner.run (accumulator, session.store)
            (appendAndFlush config accumulator session.store batch ends) with
        | (.error error, _, store) => (.error error, { session with store := store }.invalidate)
        | (.ok (), accumulator, store) =>
          (.ok (), { session with store := store, buffer := some accumulator })

def applyCopyComplete (copyComplete : CopyCompleteBatch) : CopyStore :=
  if session.store.lake.appliedBatchMarkerIdExists name copyComplete.replayEpoch
      copyComplete.batchId then session.store
  else session.store.commit name ⟨copyComplete.replayEpoch, [], [copyComplete.batchId]⟩

def complete (fingerprint : UInt64) (ends : CompleteEnds) : Except EtlError Unit × Session :=
  match ends.early with
  | some error => (.error error, session)
  | none =>
    if session.failed then (.error invalidatedCopyBufferError, session)
    else
      let copyComplete := ⟨name, session.store.lake.readTableReplayEpoch name,
        copyCompleteBatchId fingerprint⟩
      match session.buffer with
      | none =>
        let applied := { session with store := session.applyCopyComplete name copyComplete }
        match ends.apply with
        | .fails error landed => (.error error, if landed then applied else session)
        | .succeeds =>
          match ends.restore with
          | some error => (.error error, applied)
          | none => (.ok (), applied)
      | some accumulator =>
        match ends.runner.run (accumulator, session.store)
            (accumulator.flush session.store (some copyComplete) ends.flush) with
        | (.error error, _, store) => (.error error, { session with store := store }.invalidate)
        | (.ok (), accumulator, store) =>
          match ends.restore with
          | some error =>
            (.error error, { session with store := store, buffer := some accumulator })
          | none => (.ok (), { session with store := store, buffer := none })

def withLake (lake : Lake) : Session :=
  { session with store := { session.store with lake := lake } }

def dropTableForCopy (newReplayEpoch : String) (ending : DropEnd) :
    Except EtlError Unit × Session :=
  let session := { session with buffer := none }
  let row := session.store.lake.beginEpochRow name newReplayEpoch
  let begun := (session.store.lake.cacheForget name).setEpoch name row
  let dropped := begun.setContents name []
  let completed? := dropped.completeEpochRow name (row.pendingReplayEpoch.getD newReplayEpoch)
  let completed := (completed?.map (dropped.setEpoch name)).getD dropped
  match ending with
  | .beforeEpoch error => (.error error, session)
  | .beginEpoch error landed => (.error error, if landed then session.withLake begun else session)
  | .dropTable error landed => (.error error, session.withLake (if landed then dropped else begun))
  | .completeEpoch error landed =>
    (.error error, session.withLake (if landed then completed else dropped))
  | .succeeds =>
    match completed? with
    | none =>
      (.error ⟨.invalidState, "DuckLake replay epoch transition is inconsistent"⟩,
        session.withLake dropped)
    | some _ => (.ok (), { session.withLake completed with failed := false })

end

end Session

inductive CopyCall where
  | writeRows (batchId : TableCopyBatchId) (insertColumnNames : List String)
      (estimatedBytes : Nat) (ends : WriteEnds)
  | complete (ends : CompleteEnds)
  | dropTableForCopy (newReplayEpoch : String) (ending : DropEnd)

/-- The batches accepted since the last drop that succeeded, and whether a drop has to be repeated.
-/
structure CopyRun where
  session : Session
  accepted : List TableCopyBatchId
  restarting : Bool

section Runs

variable (config : CopyBufferConfig) (name : DuckLakeTableName) (fingerprint : UInt64)

def CopyRun.after (run : CopyRun) : CopyCall → CopyRun
  | .writeRows batchId insertColumnNames estimatedBytes ends =>
    match run.session.writeRows config name batchId insertColumnNames estimatedBytes ends with
    | (.ok (), session) => { run with session := session, accepted := batchId :: run.accepted }
    | (.error _, session) => { run with session := session }
  | .complete ends => { run with session := (run.session.complete name fingerprint ends).2 }
  | .dropTableForCopy newReplayEpoch ending =>
    match run.session.dropTableForCopy name newReplayEpoch ending with
    | (.ok (), session) => ⟨session, [], false⟩
    | (.error _, session) => { run with session := session, restarting := true }

/-- After a drop that failed, or a restart, which forgets the sessions, only drops come. A new
replay epoch is random and has not been used before. -/
inductive CopyRun.Reachable : CopyRun → Prop where
  | start (lake : Lake) (hcontents : lake.contents name = [])
      (hmarkers : ∀ replayEpoch batchId,
        lake.appliedBatchMarkerIdExists name replayEpoch batchId = false)
      (hepoch : lake.epochs name.id = none) :
      Reachable ⟨⟨⟨lake, []⟩, none, false⟩, [], false⟩
  | writeRows {run : CopyRun} (h : Reachable run) (hgo : run.restarting = false)
      (batchId : TableCopyBatchId) (insertColumnNames : List String) (estimatedBytes : Nat)
      (ends : WriteEnds) :
      Reachable (run.after config name fingerprint
        (.writeRows batchId insertColumnNames estimatedBytes ends))
  | complete {run : CopyRun} (h : Reachable run) (hgo : run.restarting = false)
      (ends : CompleteEnds) : Reachable (run.after config name fingerprint (.complete ends))
  | dropTableForCopy {run : CopyRun} (h : Reachable run) (newReplayEpoch : String)
      (ending : DropEnd)
      (hcurrent : newReplayEpoch ≠ run.session.store.lake.readTableReplayEpoch name)
      (hfresh : ∀ t ∈ run.session.store.transactions, t.replayEpoch ≠ newReplayEpoch) :
      Reachable (run.after config name fingerprint (.dropTableForCopy newReplayEpoch ending))
  | restart {run : CopyRun} (h : Reachable run) :
      Reachable { run with
        session := ⟨run.session.store, none, false⟩
        restarting := true }

end Runs

/-! ## Batch identifiers are told apart -/

lemma mem_uuidText {bits : BitVec 128} {c : Char} (h : c ∈ uuidText bits) :
    c = '-' ∨ Text.IsLowerHex c := by
  by_cases hc : c = '-'
  · exact .inl hc
  · have hmem : c ∈ (uuidText bits).filter (· ≠ '-') := List.mem_filter.2 ⟨h, by simpa using hc⟩
    rw [filter_uuidText] at hmem
    exact .inr (Text.isLowerHex_of_mem_lowerHex hmem)

lemma colon_notMem_uuidText (bits : BitVec 128) : ':' ∉ uuidText bits := by
  intro h
  rcases mem_uuidText h with h | h
  · cases h
  · exact absurd h.1 (by decide)

lemma splitOnce?_toText (batchId : TableCopyBatchId) :
    Text.splitOnce? ':' batchId.toText.toList =
      some (uuidText batchId.attemptId, Text.render 10 batchId.sequence.toNat) := by
  rw [TableCopyBatchId.toText, String.toList_ofList,
    Text.splitOnce?_append _ _ (colon_notMem_uuidText _)]

lemma toText_injective : Function.Injective TableCopyBatchId.toText := by
  intro a b h
  have hsplit := splitOnce?_toText a
  rw [h, splitOnce?_toText b, Option.some.injEq, Prod.mk.injEq] at hsplit
  obtain ⟨huuid, hsequence⟩ := hsplit
  have hattempt : b.attemptId = a.attemptId := by
    have hread := readUuid?_uuidText b.attemptId
    rw [huuid, readUuid?_uuidText] at hread
    exact (Option.some.inj hread).symm
  have hnumber : b.sequence.toNat = a.sequence.toNat := by
    have hread := Text.parse?_render (by norm_num) (by norm_num) b.sequence.toNat (b := 10)
    rw [hsequence, Text.parse?_render (by norm_num) (by norm_num)] at hread
    exact (Option.some.inj hread).symm
  cases a
  cases b
  simp_all [UInt64.toNat_inj]

lemma toText_ne_copyCompleteBatchId (batchId : TableCopyBatchId) (fingerprint : UInt64) :
    batchId.toText ≠ copyCompleteBatchId fingerprint := by
  intro h
  have hsplit := splitOnce?_toText batchId
  rw [h, copyCompleteBatchId, String.toList_ofList, Text.splitOnce?_append _ _ (by simp),
    Option.some.injEq, Prod.mk.injEq] at hsplit
  have hmem : 'o' ∈ uuidText batchId.attemptId := by
    rw [← hsplit.1]
    simp
  rcases mem_uuidText hmem with h | h
  · cases h
  · exact absurd h.1 (by decide)

/-! ## The store -/

section Store

variable {name : DuckLakeTableName} {fingerprint : UInt64} {store : CopyStore} {t : CopyTransaction}

def CopyStore.Committed (name : DuckLakeTableName) (store : CopyStore) (batchId : String) : Prop :=
  ∃ t ∈ store.transactions,
    t.replayEpoch = store.lake.readTableReplayEpoch name ∧ batchId ∈ t.rows

structure CopyStore.Sound (name : DuckLakeTableName) (fingerprint : UInt64) (store : CopyStore) :
    Prop where
  markers : ∀ replayEpoch batchId,
    store.lake.appliedBatchMarkerIdExists name replayEpoch batchId = true ↔
      ∃ t ∈ store.transactions, t.replayEpoch = replayEpoch ∧ batchId ∈ t.markers
  marked : ∀ t ∈ store.transactions, ∀ batchId ∈ t.rows, batchId ∈ t.markers
  rows_of_marker : ∀ t ∈ store.transactions, ∀ batchId ∈ t.markers,
    batchId ∈ t.rows ∨ batchId = copyCompleteBatchId fingerprint
  once : (store.transactions.flatMap fun t =>
    t.rows.map fun batchId => (t.replayEpoch, batchId)).Nodup
  nodup_contents : (store.lake.contents name).Nodup
  /-- Nothing was written under an epoch still to begin. -/
  pending_epoch : ∀ row, store.lake.epochs name.id = some row → ∀ epoch,
    row.pendingReplayEpoch = some epoch → epoch ≠ row.replayEpoch ∧
      ∀ t ∈ store.transactions, t.replayEpoch ≠ epoch

def CopyStore.Present (name : DuckLakeTableName) (store : CopyStore) : Prop :=
  ∀ batchId, .copied batchId ∈ store.lake.contents name ↔ store.Committed name batchId

@[simp] lemma readTableReplayEpoch_commit :
    (store.commit name t).lake.readTableReplayEpoch name = store.lake.readTableReplayEpoch name :=
  rfl

@[simp] lemma epochs_commit : (store.commit name t).lake.epochs = store.lake.epochs := rfl

@[simp] lemma transactions_commit :
    (store.commit name t).transactions = store.transactions ++ [t] := rfl

lemma contents_commit : (store.commit name t).lake.contents name =
    store.lake.contents name ++ t.rows.map .copied := by
  simp [CopyStore.commit, Lake.setContents]

lemma appliedBatchMarkerIdExists_commit (replayEpoch batchId : String) :
    (store.commit name t).lake.appliedBatchMarkerIdExists name replayEpoch batchId = true ↔
      store.lake.appliedBatchMarkerIdExists name replayEpoch batchId = true ∨
        t.replayEpoch = replayEpoch ∧ batchId ∈ t.markers := by
  simp only [Lake.appliedBatchMarkerIdExists, CopyStore.commit, List.any_append, Bool.or_eq_true,
    List.any_map, List.any_eq_true, Function.comp_apply, Option.getD_some, decide_true,
    Bool.true_and, Bool.and_eq_true, decide_eq_true_eq]
  refine or_congr Iff.rfl ?_
  constructor
  · rintro ⟨marker, hmarker, hepoch, rfl⟩
    exact ⟨hepoch, hmarker⟩
  · rintro ⟨hepoch, hmarker⟩
    exact ⟨batchId, hmarker, hepoch, rfl⟩

lemma committed_commit (batchId : String) :
    (store.commit name t).Committed name batchId ↔ store.Committed name batchId ∨
      t.replayEpoch = store.lake.readTableReplayEpoch name ∧ batchId ∈ t.rows := by
  simp [CopyStore.Committed, or_and_right, exists_or]

lemma CopyStore.Sound.commit (h : store.Sound name fingerprint) (hpresent : store.Present name)
    (hepoch : t.replayEpoch = store.lake.readTableReplayEpoch name) (hnodup : t.rows.Nodup)
    (hfresh : ∀ batchId ∈ t.rows,
      store.lake.appliedBatchMarkerIdExists name t.replayEpoch batchId ≠ true)
    (hmarked : ∀ batchId ∈ t.rows, batchId ∈ t.markers)
    (hrows : ∀ batchId ∈ t.markers, batchId ∈ t.rows ∨ batchId = copyCompleteBatchId fingerprint) :
    (store.commit name t).Sound name fingerprint ∧ (store.commit name t).Present name := by
  -- an older transaction of the same epoch with one of the batches would have left its marker
  have hnew : ∀ batchId ∈ t.rows, ∀ old ∈ store.transactions, old.replayEpoch = t.replayEpoch →
      batchId ∉ old.rows := fun batchId hmem old hold hsame hrow =>
    hfresh batchId hmem ((h.markers _ _).2 ⟨old, hold, hsame, h.marked old hold batchId hrow⟩)
  refine ⟨⟨fun replayEpoch batchId => ?_, ?_, ?_, ?_, ?_, ?_⟩, fun batchId => ?_⟩
  · rw [appliedBatchMarkerIdExists_commit, h.markers]
    simp [or_and_right, exists_or]
  · rw [transactions_commit]
    exact List.forall_mem_append.2 ⟨h.marked, by simpa using hmarked⟩
  · rw [transactions_commit]
    exact List.forall_mem_append.2 ⟨h.rows_of_marker, by simpa using hrows⟩
  · rw [transactions_commit, List.flatMap_append, List.nodup_append]
    refine ⟨h.once, by simpa using hnodup.map fun a b hab => (Prod.mk.inj hab).2, ?_⟩
    rintro ⟨epoch, batchId⟩ hold ⟨epoch', batchId'⟩ hmem heq
    cases heq
    obtain ⟨old, holdMem, hold⟩ := List.mem_flatMap.1 hold
    obtain ⟨_, hrow, hpair⟩ := List.mem_map.1 hold
    cases hpair
    simp only [List.flatMap_cons, List.flatMap_nil, List.append_nil, List.mem_map, Prod.mk.injEq]
      at hmem
    obtain ⟨_, hmem, hsame, rfl⟩ := hmem
    exact hnew _ hmem old holdMem hsame.symm hrow
  · rw [contents_commit, List.nodup_append]
    refine ⟨h.nodup_contents, hnodup.map fun a b hab => TableEffect.copied.inj hab, ?_⟩
    rintro effect hold _ hmem rfl
    obtain ⟨batchId, hrows, rfl⟩ := List.mem_map.1 hmem
    obtain ⟨old, holdMem, hsame, hrow⟩ := (hpresent batchId).1 hold
    exact hnew batchId hrows old holdMem (hsame.trans hepoch.symm) hrow
  · intro row hrow epoch hpending
    rw [epochs_commit] at hrow
    obtain ⟨hne, hold⟩ := h.pending_epoch row hrow epoch hpending
    refine ⟨hne, ?_⟩
    rw [transactions_commit]
    refine List.forall_mem_append.2 ⟨hold, ?_⟩
    have hcurrent : store.lake.readTableReplayEpoch name = row.replayEpoch := by
      simp [Lake.readTableReplayEpoch, hrow]
    simpa [hepoch, hcurrent] using hne.symm
  · rw [contents_commit, committed_commit, List.mem_append, hpresent batchId]
    simp [hepoch]

end Store

/-! ## The accumulator -/

section Accumulator

variable {name : DuckLakeTableName} {fingerprint : UInt64} {store : CopyStore}
  {accumulator : DuckLakeCopyAccumulator}

structure CopyStore.Good (name : DuckLakeTableName) (fingerprint : UInt64) (store : CopyStore) :
    Prop where
  sound : store.Sound name fingerprint
  present : store.Present name

/-- The staged rows are those of the pending markers, and none has landed. -/
structure DuckLakeCopyAccumulator.Fits (name : DuckLakeTableName) (store : CopyStore)
    (accumulator : DuckLakeCopyAccumulator) : Prop where
  tableName : accumulator.tableName = name
  replayEpoch : accumulator.replayEpoch = store.lake.readTableReplayEpoch name
  staging : accumulator.staging = accumulator.pendingMarkers
  nodup : accumulator.pendingMarkers.Nodup
  fresh : ∀ batchId ∈ accumulator.pendingMarkers,
    store.lake.appliedBatchMarkerIdExists name accumulator.replayEpoch batchId ≠ true

lemma fits_new {batch : PreparedDuckLakeCopyBatch} (hname : batch.tableName = name)
    (hepoch : batch.replayEpoch = store.lake.readTableReplayEpoch name) :
    (DuckLakeCopyAccumulator.new batch).Fits name store where
  tableName := hname
  replayEpoch := hepoch
  staging := rfl
  nodup := List.nodup_nil
  fresh := by simp [DuckLakeCopyAccumulator.new]

structure Extends (name : DuckLakeTableName) (fingerprint : UInt64) (store store' : CopyStore) :
    Prop where
  good : store'.Good name fingerprint
  replayEpoch : store'.lake.readTableReplayEpoch name = store.lake.readTableReplayEpoch name
  committed : ∀ batchId, store.Committed name batchId → store'.Committed name batchId

lemma Extends.refl (h : store.Good name fingerprint) : Extends name fingerprint store store :=
  ⟨h, rfl, fun _ => id⟩

variable {store' : CopyStore}

def IsCopyComplete (name : DuckLakeTableName) (fingerprint : UInt64) (store : CopyStore)
    (batch : CopyCompleteBatch) : Prop :=
  batch = ⟨name, store.lake.readTableReplayEpoch name, copyCompleteBatchId fingerprint⟩

lemma extends_window (h : store.Good name fingerprint) (hfits : accumulator.Fits name store)
    {copyComplete : Option CopyCompleteBatch}
    (hcomplete : ∀ batch ∈ copyComplete, IsCopyComplete name fingerprint store batch) :
    Extends name fingerprint store
        (store.commit name (accumulator.window store.lake copyComplete)) ∧
      ∀ batchId ∈ accumulator.pendingMarkers, (store.commit name
        (accumulator.window store.lake copyComplete)).Committed name batchId := by
  have hrows : (accumulator.window store.lake copyComplete).rows = accumulator.pendingMarkers := by
    simp only [DuckLakeCopyAccumulator.window, hfits.staging]
    split_ifs with hempty
    · exact (List.isEmpty_iff.1 hempty).symm
    · rfl
  obtain ⟨hsound, hpresent⟩ := h.sound.commit h.present
    (t := accumulator.window store.lake copyComplete) hfits.replayEpoch (hrows ▸ hfits.nodup)
    (hrows ▸ hfits.fresh) (by
      intro batchId hmem
      rw [hrows] at hmem
      exact List.mem_append_left _ hmem) (by
      intro batchId hmem
      rw [hrows]
      rcases List.mem_append.1 hmem with hpending | hend
      · exact .inl hpending
      · obtain ⟨batch, hbatch, rfl⟩ := List.mem_map.1 hend
        have hmem := (List.mem_filter.1 hbatch).1
        exact .inr (congrArg (·.batchId) (hcomplete batch (by simpa using hmem))))
  refine ⟨⟨⟨hsound, hpresent⟩, rfl, fun id hid => (committed_commit id).2 (.inl hid)⟩, ?_⟩
  intro batchId hmem
  exact (committed_commit batchId).2 (.inr ⟨hfits.replayEpoch, hrows.symm ▸ hmem⟩)

structure Staged (name : DuckLakeTableName) (fingerprint : UInt64) (store : CopyStore)
    (ids : List String) (outcome : Except EtlError Unit × DuckLakeCopyAccumulator × CopyStore) :
    Prop where
  grows : Extends name fingerprint store outcome.2.2
  fits : outcome.1 = .ok () → outcome.2.1.Fits name outcome.2.2
  held : outcome.1 = .ok () → ∀ batchId ∈ ids,
    outcome.2.2.Committed name batchId ∨ batchId ∈ outcome.2.1.pendingMarkers

variable {ids : List String}

lemma Staged.of_error (h : Extends name fingerprint store store')
    (error : EtlError) : Staged name fingerprint store ids (.error error, accumulator, store') :=
  ⟨h, nofun, nofun⟩

lemma Staged.of_ok (h : store.Good name fingerprint) (hfits : accumulator.Fits name store)
    (hheld : ∀ batchId ∈ ids,
      store.Committed name batchId ∨ batchId ∈ accumulator.pendingMarkers) :
    Staged name fingerprint store ids (.ok (), accumulator, store) :=
  ⟨.refl h, fun _ => hfits, fun _ => hheld⟩

lemma flush_staged (h : store.Good name fingerprint) (hfits : accumulator.Fits name store)
    (copyComplete : Option CopyCompleteBatch)
    (hcomplete : ∀ batch ∈ copyComplete, IsCopyComplete name fingerprint store batch)
    (ending : FlushEnd) :
    Staged name fingerprint store accumulator.pendingMarkers
      (accumulator.flush store copyComplete ending) := by
  obtain ⟨hextends, hcommitted⟩ := extends_window h hfits hcomplete
  unfold DuckLakeCopyAccumulator.flush
  split_ifs with hnothing hmismatch
  · exact .of_ok h hfits fun _ => .inr
  · exact .of_error (.refl h) _
  · rw [hfits.tableName]
    cases ending with
    | rolledBack error => exact .of_error (.refl h) error
    | commitFails error landed =>
      cases landed with
      | true => exact .of_error hextends error
      | false => exact .of_error (.refl h) error
    | clearFails error => exact .of_error hextends error
    | succeeds =>
      exact ⟨hextends, fun _ => ⟨rfl, hfits.replayEpoch, rfl, List.nodup_nil, by simp⟩,
        fun _ batchId hmem => .inl (hcommitted batchId hmem)⟩

lemma pendingMarkers_flush {copyComplete : Option CopyCompleteBatch} {ending : FlushEnd}
    {accumulator' : DuckLakeCopyAccumulator}
    (h : accumulator.flush store copyComplete ending = (.ok (), accumulator', store')) :
    accumulator'.pendingMarkers = [] := by
  unfold DuckLakeCopyAccumulator.flush at h
  split_ifs at h with hnothing hmismatch
  · cases h
    exact List.isEmpty_iff.1 hnothing.1
  · cases h
  · cases ending <;> cases h
    rfl

lemma committed_of_marker (h : store.Good name fingerprint) {batchId : String}
    (hid : batchId ≠ copyCompleteBatchId fingerprint)
    (hmarker : store.lake.appliedBatchMarkerIdExists name (store.lake.readTableReplayEpoch name)
      batchId = true) : store.Committed name batchId := by
  obtain ⟨t, ht, hepoch, hmem⟩ := (h.sound.markers _ _).1 hmarker
  exact ⟨t, ht, hepoch, (h.sound.rows_of_marker t ht batchId hmem).resolve_right hid⟩

section Append

variable {batch : PreparedDuckLakeCopyBatch}

lemma fits_append (hfits : accumulator.Fits name store) {batchId : String} {bytes : Nat}
    (hpending : batchId ∉ accumulator.pendingMarkers)
    (hmarker : store.lake.appliedBatchMarkerIdExists name accumulator.replayEpoch batchId ≠ true) :
    DuckLakeCopyAccumulator.Fits name store { accumulator with
      staging := accumulator.staging ++ [batchId]
      pendingMarkers := accumulator.pendingMarkers ++ [batchId]
      stagedBytes := bytes } where
  tableName := hfits.tableName
  replayEpoch := hfits.replayEpoch
  staging := congrArg (· ++ [batchId]) hfits.staging
  nodup := by simpa using hfits.nodup.concat hpending
  fresh := List.forall_mem_append.2 ⟨hfits.fresh, by simpa using hmarker⟩

lemma append_staged (h : store.Good name fingerprint) (hfits : accumulator.Fits name store)
    (hname : batch.tableName = name)
    (hid : batch.batchId ≠ copyCompleteBatchId fingerprint) {ending : AppendEnd} {isNew : Bool}
    {accumulator' : DuckLakeCopyAccumulator}
    (happend : accumulator.append store.lake batch ending = (.ok isNew, accumulator')) :
    Staged name fingerprint store (batch.batchId :: accumulator.pendingMarkers)
      (.ok (), accumulator', store) := by
  unfold DuckLakeCopyAccumulator.append at happend
  split_ifs at happend with hmismatch hpending hmarker
  · cases happend
  · cases happend
    exact .of_ok h hfits (List.forall_mem_cons.2 ⟨.inr hpending, fun _ => .inr⟩)
  · -- the batch has a marker and is skipped, unless the lookup fails
    have hepoch : batch.replayEpoch = accumulator.replayEpoch := by
      simp only [not_or, not_not] at hmismatch
      exact hmismatch.2.1
    rw [hname, hepoch, hfits.replayEpoch] at hmarker
    have hskip := Staged.of_ok h hfits
      (List.forall_mem_cons.2 ⟨.inl (committed_of_marker h hid hmarker), fun _ => .inr⟩)
    cases ending with
    | markerLookupFails error => cases happend
    | loadFails error loaded =>
      cases happend
      exact hskip
    | succeeds =>
      cases happend
      exact hskip
  · have hepoch : batch.replayEpoch = accumulator.replayEpoch := by
      simp only [not_or, not_not] at hmismatch
      exact hmismatch.2.1
    rw [hname, hepoch] at hmarker
    cases ending with
    | markerLookupFails error => cases happend
    | loadFails error loaded => cases happend
    | succeeds =>
      cases happend
      refine .of_ok h (fits_append hfits hpending hmarker) (List.forall_mem_cons.2 ⟨?_, ?_⟩)
      · exact .inr (List.mem_append_right _ (List.mem_singleton_self _))
      · exact fun _ hmem => .inr (List.mem_append_left _ hmem)

lemma appendAndFlush_staged (config : CopyBufferConfig) (h : store.Good name fingerprint)
    (hfits : accumulator.Fits name store) (hname : batch.tableName = name)
    (hid : batch.batchId ≠ copyCompleteBatchId fingerprint) (ends : WriteEnds) :
    Staged name fingerprint store (batch.batchId :: accumulator.pendingMarkers)
      (Session.appendAndFlush config accumulator store batch ends) := by
  unfold Session.appendAndFlush
  rcases happend : accumulator.append store.lake batch ends.append with
    ⟨error | isNew, accumulator'⟩
  · exact .of_error (.refl h) error
  · have hstaged := append_staged h hfits hname hid happend
    cases isNew with
    | false => exact hstaged
    | true =>
      simp only
      split_ifs with hfull
      · have hflush := flush_staged h (hstaged.fits rfl) none (by simp) ends.flush
        refine ⟨hflush.grows, hflush.fits, fun hok batchId hmem => ?_⟩
        rcases hstaged.held rfl batchId hmem with hcommitted | hpending
        · exact .inl (hflush.grows.committed batchId hcommitted)
        · exact hflush.held hok batchId hpending
      · exact hstaged

end Append

lemma run_cases {α σ : Type} (runner : RunnerEnd) (before : σ)
    (operation : Except EtlError α × σ) :
    runner.run before operation = operation ∨
      ∃ error, runner.run before operation = (.error error, before) ∨
        runner.run before operation = (.error error, operation.2) := by
  rcases runner with ⟨_ | error, _ | error'⟩
  · exact .inl rfl
  · exact .inr ⟨error', .inr rfl⟩
  · exact .inr ⟨error, .inl rfl⟩
  · exact .inr ⟨error, .inl rfl⟩

lemma eq_of_run_eq_ok {α σ : Type} {runner : RunnerEnd} {before after : σ}
    {operation : Except EtlError α × σ} {a : α}
    (h : runner.run before operation = (.ok a, after)) : operation = (.ok a, after) := by
  rcases run_cases runner before operation with hrun | ⟨error, hrun | hrun⟩
  · rw [← hrun, h]
  · cases hrun.symm.trans h
  · cases hrun.symm.trans h

lemma Staged.run (h : store.Good name fingerprint)
    {operation : Except EtlError Unit × DuckLakeCopyAccumulator × CopyStore}
    (hstaged : Staged name fingerprint store ids operation)
    (accumulator : DuckLakeCopyAccumulator) (runner : RunnerEnd) :
    Staged name fingerprint store ids (runner.run (accumulator, store) operation) := by
  rcases run_cases runner (accumulator, store) operation with hrun | ⟨error, hrun | hrun⟩
  · rwa [hrun]
  · rw [hrun]
    exact .of_error (.refl h) error
  · rw [hrun]
    exact .of_error hstaged.grows error

end Accumulator

/-! ## The calls -/

section Calls

variable {name : DuckLakeTableName} {fingerprint : UInt64} {session session' : Session}

structure Session.Good (name : DuckLakeTableName) (fingerprint : UInt64) (session : Session) :
    Prop where
  store : session.store.Good name fingerprint
  fits : ∀ accumulator ∈ session.buffer, accumulator.Fits name session.store

def Session.Held (name : DuckLakeTableName) (session : Session) (batchId : String) : Prop :=
  session.store.Committed name batchId ∨
    ∃ accumulator ∈ session.buffer, batchId ∈ accumulator.pendingMarkers

structure Session.Keeps (name : DuckLakeTableName) (fingerprint : UInt64)
    (session session' : Session) : Prop where
  good : session'.Good name fingerprint
  failed : session'.failed = false → session.failed = false
  held : session'.failed = false → ∀ batchId, session.Held name batchId → session'.Held name batchId

lemma Session.Keeps.refl (h : session.Good name fingerprint) :
    session.Keeps name fingerprint session :=
  ⟨h, id, fun _ _ => id⟩

lemma Session.Keeps.trans {session'' : Session} (h : session.Keeps name fingerprint session')
    (h' : session'.Keeps name fingerprint session'') : session.Keeps name fingerprint session'' :=
  ⟨h'.good, fun hf => h.failed (h'.failed hf),
    fun hf id hid => h'.held hf id (h.held (h'.failed hf) id hid)⟩

variable {store : CopyStore}

lemma keeps_invalidate (h : store.Good name fingerprint) :
    session.Keeps name fingerprint { session with store := store }.invalidate where
  good := ⟨h, fun _ hmem => nomatch hmem⟩
  failed := fun hfailed => nomatch hfailed
  held := fun hfailed => nomatch hfailed

variable {accumulator : DuckLakeCopyAccumulator}

lemma Staged.keeps {accumulator' : DuckLakeCopyAccumulator} {ids : List String}
    (h : Staged name fingerprint session.store ids (.ok (), accumulator', store))
    (hbuffer : session.buffer = some accumulator ∨ session.buffer = none)
    (hids : ∀ batchId ∈ accumulator.pendingMarkers, batchId ∈ ids) : session.Keeps name fingerprint
      { session with store := store, buffer := some accumulator' } where
  good := ⟨h.grows.good, by
    intro _ hmem
    cases hmem
    exact h.fits rfl⟩
  failed := id
  held := by
    rintro - batchId (hcommitted | ⟨_, hmem, hpending⟩)
    · exact .inl (h.grows.committed batchId hcommitted)
    · rcases hbuffer with hbuffer | hbuffer
      · rw [hbuffer] at hmem
        cases hmem
        exact (h.held rfl batchId (hids batchId hpending)).imp_right fun hmem => ⟨_, rfl, hmem⟩
      · rw [hbuffer] at hmem
        cases hmem

lemma Session.Keeps.forget
    {failed : Bool} (h : session.Keeps name fingerprint ⟨store, some accumulator, failed⟩)
    (hempty : accumulator.pendingMarkers = []) :
    session.Keeps name fingerprint ⟨store, none, failed⟩ where
  good := ⟨h.good.store, nofun⟩
  failed := h.failed
  held := by
    intro hfailed batchId hheld
    refine (h.held hfailed batchId hheld).imp_right ?_
    rintro ⟨_, ⟨⟩, hmem⟩
    rw [hempty] at hmem
    cases hmem

lemma reserveCopyBufferCapacity_keeps (h : session.Good name fingerprint) (hfits : accumulator.Fits name session.store)
    (hbuffer : session.buffer = some accumulator ∨ session.buffer = none) (ends : WriteEnds)
    {result : Except EtlError DuckLakeCopyAccumulator}
    (hreserve : session.reserveCopyBufferCapacity accumulator ends = (result, session')) :
    session.Keeps name fingerprint session' ∧
      ∀ accumulator', result = .ok accumulator' → session'.buffer = some accumulator' := by
  unfold Session.reserveCopyBufferCapacity at hreserve
  split at hreserve
  · cases hreserve
    have hstaged : Staged name fingerprint session.store accumulator.pendingMarkers
        (.ok (), accumulator, session.store) := .of_ok h.store hfits fun _ => .inr
    refine ⟨hstaged.keeps hbuffer fun _ => id, ?_⟩
    rintro _ ⟨⟩
    rfl
  · rename_i runner ending _
    have hflush := flush_staged h.store hfits none (by simp) ending
    have hstaged := hflush.run h.store accumulator runner
    split at hreserve
    · rename_i error _ store hrun
      cases hreserve
      rw [hrun] at hstaged
      exact ⟨keeps_invalidate hstaged.grows.good, nofun⟩
    · rename_i accumulator' store hrun
      rw [hrun] at hstaged
      have hkeeps := hstaged.keeps hbuffer fun _ => id
      simp only at hreserve
      split at hreserve
      · cases hreserve
        exact ⟨hkeeps, nofun⟩
      · cases hreserve
        refine ⟨hkeeps, ?_⟩
        rintro _ ⟨⟩
        rfl

lemma writeRows_keeps (config : CopyBufferConfig) (h : session.Good name fingerprint)
    (batchId : TableCopyBatchId) (insertColumnNames : List String) (estimatedBytes : Nat)
    (ends : WriteEnds) {result : Except EtlError Unit}
    (hwrite : session.writeRows config name batchId insertColumnNames estimatedBytes ends =
      (result, session')) :
    session.Keeps name fingerprint session' ∧
      (result = .ok () → session'.Held name batchId.toText) := by
  unfold Session.writeRows at hwrite
  split at hwrite
  · cases hwrite
    exact ⟨.refl h, nofun⟩
  · split_ifs at hwrite with hfailed hlarge
    · cases hwrite
      exact ⟨.refl h, nofun⟩
    · cases hwrite
      exact ⟨.refl h, nofun⟩
    · simp only at hwrite
      generalize hbatch : (⟨name, session.store.lake.readTableReplayEpoch name, batchId.toText,
        insertColumnNames, estimatedBytes⟩ : PreparedDuckLakeCopyBatch) = batch at hwrite
      have hname : batch.tableName = name := by rw [← hbatch]
      have hepoch : batch.replayEpoch = session.store.lake.readTableReplayEpoch name := by
        rw [← hbatch]
      have hid : batch.batchId = batchId.toText := by rw [← hbatch]
      have hbuffer : session.buffer = some (session.buffer.getD (.new batch)) ∨
          session.buffer = none := by
        cases session.buffer with
        | none => exact .inr rfl
        | some accumulator => exact .inl rfl
      have hfits : (session.buffer.getD (.new batch)).Fits name session.store := by
        cases hnow : session.buffer with
        | none => exact fits_new hname hepoch
        | some accumulator => exact h.fits accumulator hnow
      split at hwrite
      · rename_i error session₁ hreserve
        cases hwrite
        exact ⟨(reserveCopyBufferCapacity_keeps h hfits hbuffer ends hreserve).1, nofun⟩
      · rename_i accumulator session₁ hreserve
        obtain ⟨hkeeps, hnow⟩ := reserveCopyBufferCapacity_keeps h hfits hbuffer ends hreserve
        have hnow := hnow accumulator rfl
        have hstaged := (appendAndFlush_staged config hkeeps.good.store
          (hkeeps.good.fits accumulator hnow) hname
          (hid ▸ toText_ne_copyCompleteBatchId batchId fingerprint) ends).run hkeeps.good.store
          accumulator ends.runner
        split at hwrite
        · rename_i error _ store hrun
          cases hwrite
          rw [hrun] at hstaged
          exact ⟨hkeeps.trans (keeps_invalidate hstaged.grows.good), nofun⟩
        · rename_i accumulator' store hrun
          cases hwrite
          rw [hrun] at hstaged
          refine ⟨hkeeps.trans (hstaged.keeps (.inl hnow) fun _ => List.mem_cons_of_mem _), ?_⟩
          intro _
          have hheld := hstaged.held rfl batch.batchId (List.mem_cons_self ..)
          rw [hid] at hheld
          exact hheld.imp_right fun hmem => ⟨accumulator', rfl, hmem⟩

lemma extends_applyCopyComplete (h : session.store.Good name fingerprint) :
    Extends name fingerprint session.store (session.applyCopyComplete name
      ⟨name, session.store.lake.readTableReplayEpoch name, copyCompleteBatchId fingerprint⟩) := by
  unfold Session.applyCopyComplete
  split_ifs with hmarker
  · exact .refl h
  · obtain ⟨hsound, hpresent⟩ := h.sound.commit h.present
      (t := ⟨_, [], [copyCompleteBatchId fingerprint]⟩) rfl List.nodup_nil (by simp) (by simp)
      (by simp)
    exact ⟨⟨hsound, hpresent⟩, rfl, fun id hid => (committed_commit id).2 (.inl hid)⟩

lemma keeps_of_extends (h : Extends name fingerprint session.store store)
    (hbuffer : session.buffer = none) :
    session.Keeps name fingerprint { session with store := store } where
  good := ⟨h.good, fun _ hmem => by
    rw [hbuffer] at hmem
    cases hmem⟩
  failed := id
  held := fun _ batchId hheld => hheld.imp_left (h.committed batchId)

lemma complete_keeps (h : session.Good name fingerprint) (ends : CompleteEnds)
    {result : Except EtlError Unit}
    (hcomplete : session.complete name fingerprint ends = (result, session')) :
    session.Keeps name fingerprint session' ∧
      (result = .ok () → session'.failed = false ∧ session'.buffer = none) := by
  unfold Session.complete at hcomplete
  split at hcomplete
  · cases hcomplete
    exact ⟨.refl h, nofun⟩
  · split_ifs at hcomplete with hfailed
    · cases hcomplete
      exact ⟨.refl h, nofun⟩
    · have hfailed : session.failed = false := by simpa using hfailed
      simp only at hcomplete
      split at hcomplete
      · rename_i hbuffer
        have happlied := keeps_of_extends (extends_applyCopyComplete h.store) hbuffer
        split at hcomplete
        · rename_i error landed _
          cases hcomplete
          refine ⟨?_, nofun⟩
          split_ifs
          · exact happlied
          · exact .refl h
        · split at hcomplete
          · cases hcomplete
            exact ⟨happlied, nofun⟩
          · cases hcomplete
            exact ⟨happlied, fun _ => ⟨hfailed, hbuffer⟩⟩
      · rename_i accumulator hbuffer
        generalize hflush : accumulator.flush session.store _ ends.flush = operation at hcomplete
        have hstaged := flush_staged h.store (h.fits accumulator hbuffer) (some _)
          (by rintro _ ⟨⟩; rfl) ends.flush
        rw [hflush] at hstaged
        have hrunStaged := hstaged.run h.store accumulator ends.runner
        split at hcomplete
        · rename_i error _ store hrun
          cases hcomplete
          rw [hrun] at hrunStaged
          exact ⟨keeps_invalidate hrunStaged.grows.good, nofun⟩
        · rename_i accumulator' store hrun
          rw [hrun] at hrunStaged
          have hkeeps := hrunStaged.keeps (.inl hbuffer) fun _ => id
          split at hcomplete
          · cases hcomplete
            exact ⟨hkeeps, nofun⟩
          · cases hcomplete
            have hempty := pendingMarkers_flush (hflush.trans (eq_of_run_eq_ok hrun))
            exact ⟨hkeeps.forget hempty, fun _ => ⟨hfailed, rfl⟩⟩

end Calls

/-! ## Drops -/

section Drops

variable {name : DuckLakeTableName} {fingerprint : UInt64} {session : Session}

lemma CopyStore.Sound.withLake (h : session.store.Sound name fingerprint) {lake : Lake}
    (hmarkers : lake.markers = session.store.lake.markers) (hcontents : (lake.contents name).Nodup)
    (hepoch : ∀ row, lake.epochs name.id = some row → ∀ epoch, row.pendingReplayEpoch = some epoch →
      epoch ≠ row.replayEpoch ∧ ∀ t ∈ session.store.transactions, t.replayEpoch ≠ epoch) :
    (session.withLake lake).store.Sound name fingerprint where
  markers := by
    intro replayEpoch batchId
    refine Iff.trans (Bool.eq_iff_iff.1 ?_) (h.markers replayEpoch batchId)
    simp only [Session.withLake, Lake.appliedBatchMarkerIdExists, hmarkers]
  marked := h.marked
  rows_of_marker := h.rows_of_marker
  once := h.once
  nodup_contents := hcontents
  pending_epoch := hepoch

lemma beginEpochRow_pending (h : session.store.Sound name fingerprint) {newReplayEpoch : String}
    (hcurrent : newReplayEpoch ≠ session.store.lake.readTableReplayEpoch name)
    (hfresh : ∀ t ∈ session.store.transactions, t.replayEpoch ≠ newReplayEpoch) :
    ∃ epoch,
      (session.store.lake.beginEpochRow name newReplayEpoch).pendingReplayEpoch = some epoch ∧
      epoch ≠ (session.store.lake.beginEpochRow name newReplayEpoch).replayEpoch ∧
      ∀ t ∈ session.store.transactions, t.replayEpoch ≠ epoch := by
  unfold Lake.readTableReplayEpoch at hcurrent
  unfold Lake.beginEpochRow
  cases hrow : session.store.lake.epochs name.id with
  | none =>
    rw [hrow] at hcurrent
    exact ⟨newReplayEpoch, rfl, hcurrent, hfresh⟩
  | some row =>
    rw [hrow] at hcurrent
    refine ⟨_, rfl, ?_⟩
    cases hpending : row.pendingReplayEpoch with
    | none => exact ⟨hcurrent, hfresh⟩
    | some epoch => exact h.pending_epoch row hrow epoch hpending

lemma dropTableForCopy_spec (h : session.store.Sound name fingerprint) {newReplayEpoch : String}
    (hcurrent : newReplayEpoch ≠ session.store.lake.readTableReplayEpoch name)
    (hfresh : ∀ t ∈ session.store.transactions, t.replayEpoch ≠ newReplayEpoch) (ending : DropEnd)
    {result : Except EtlError Unit} {session' : Session}
    (hdrop : session.dropTableForCopy name newReplayEpoch ending = (result, session')) :
    session'.store.Sound name fingerprint ∧ (result = .ok () → session'.Good name fingerprint) := by
  obtain ⟨epoch, hpending, hne, hnone⟩ := beginEpochRow_pending h hcurrent hfresh
  generalize hrow : session.store.lake.beginEpochRow name newReplayEpoch = row at hpending hne
  unfold Session.dropTableForCopy at hdrop
  simp only [hrow, hpending, Option.getD_some] at hdrop
  generalize hbegun : (session.store.lake.cacheForget name).setEpoch name row = begun at hdrop
  have hbegunRow : begun.epochs name.id = some row := by simp [← hbegun, Lake.setEpoch]
  have hmarkers : begun.markers = session.store.lake.markers := by rw [← hbegun]; rfl
  have hpendingEpoch : ∀ row', begun.epochs name.id = some row' → ∀ epoch',
      row'.pendingReplayEpoch = some epoch' →
        epoch' ≠ row'.replayEpoch ∧ ∀ t ∈ session.store.transactions, t.replayEpoch ≠ epoch' := by
    rintro row' hrow' epoch' hepoch'
    cases hbegunRow.symm.trans hrow'
    cases hpending.symm.trans hepoch'
    exact ⟨hne, hnone⟩
  have hbegunSound : (session.withLake begun).store.Sound name fingerprint :=
    h.withLake hmarkers (by rw [← hbegun]; exact h.nodup_contents) hpendingEpoch
  generalize hdropped : begun.setContents name [] = dropped at hdrop
  have hempty : dropped.contents name = [] := by simp [← hdropped, Lake.setContents]
  have hdroppedSound : (session.withLake dropped).store.Sound name fingerprint := by
    refine h.withLake (by rw [← hdropped]; exact hmarkers) (hempty ▸ List.nodup_nil) ?_
    rw [← hdropped]
    exact hpendingEpoch
  have hcompletes : dropped.completeEpochRow name epoch = some ⟨epoch, none⟩ := by
    simp [← hdropped, Lake.completeEpochRow, Lake.setContents, hbegunRow, hpending]
  rw [hcompletes] at hdrop
  simp only [Option.map_some, Option.getD_some] at hdrop
  have hcompletedSound : (session.withLake (dropped.setEpoch name ⟨epoch, none⟩)).store.Sound name
      fingerprint := by
    refine h.withLake (by rw [← hdropped]; exact hmarkers) (hempty ▸ List.nodup_nil) ?_
    intro row' hrow' epoch' hepoch'
    simp only [Lake.setEpoch, Function.update_self, Option.some.injEq] at hrow'
    subst hrow'
    cases hepoch'
  cases ending with
  | beforeEpoch error =>
    cases hdrop
    exact ⟨h, nofun⟩
  | beginEpoch error landed =>
    cases hdrop
    refine ⟨?_, nofun⟩
    cases landed with
    | true => exact hbegunSound
    | false => exact h
  | dropTable error landed =>
    cases hdrop
    refine ⟨?_, nofun⟩
    cases landed with
    | true => exact hdroppedSound
    | false => exact hbegunSound
  | completeEpoch error landed =>
    cases hdrop
    refine ⟨?_, nofun⟩
    cases landed with
    | true => exact hcompletedSound
    | false => exact hdroppedSound
  | succeeds =>
    cases hdrop
    refine ⟨hcompletedSound, fun _ => ⟨⟨hcompletedSound, ?_⟩, nofun⟩⟩
    intro batchId
    refine iff_of_false (by simp [Session.withLake, Lake.setEpoch, hempty]) ?_
    rintro ⟨t, ht, hepoch, -⟩
    refine hnone t ht (hepoch.trans ?_)
    simp [Session.withLake, Lake.readTableReplayEpoch, Lake.setEpoch]

end Drops

/-! ## Runs -/

section Runs

variable {config : CopyBufferConfig} {name : DuckLakeTableName} {fingerprint : UInt64}
  {run : CopyRun}

structure CopyRun.Inv (name : DuckLakeTableName) (fingerprint : UInt64) (run : CopyRun) : Prop where
  sound : run.session.store.Sound name fingerprint
  good : run.restarting = false → run.session.Good name fingerprint
  held : run.restarting = false → run.session.failed = false →
    ∀ batchId ∈ run.accepted, run.session.Held name batchId.toText

lemma CopyRun.Inv.of_keeps (h : run.Inv name fingerprint) (hgo : run.restarting = false)
    {session : Session} {accepted : List TableCopyBatchId}
    (hkeeps : run.session.Keeps name fingerprint session)
    (haccepted : ∀ batchId ∈ accepted,
      batchId ∈ run.accepted ∨ session.Held name batchId.toText) :
    CopyRun.Inv name fingerprint { run with session := session, accepted := accepted } where
  sound := hkeeps.good.store.sound
  good := fun _ => hkeeps.good
  held := by
    intro _ hfailed batchId hmem
    rcases haccepted batchId hmem with hold | hheld
    · exact hkeeps.held hfailed _ (h.held hgo (hkeeps.failed hfailed) batchId hold)
    · exact hheld

lemma CopyRun.Inv.writeRows (h : run.Inv name fingerprint) (hgo : run.restarting = false)
    (batchId : TableCopyBatchId) (insertColumnNames : List String) (estimatedBytes : Nat)
    (ends : WriteEnds) :
    (run.after config name fingerprint
      (.writeRows batchId insertColumnNames estimatedBytes ends)).Inv name fingerprint := by
  unfold CopyRun.after
  simp only
  split
  · rename_i session hwrite
    obtain ⟨hkeeps, hheld⟩ := writeRows_keeps config (h.good hgo) _ _ _ _ hwrite
    exact h.of_keeps hgo hkeeps (List.forall_mem_cons.2 ⟨.inr (hheld rfl), fun _ => .inl⟩)
  · rename_i session hwrite
    exact h.of_keeps hgo (writeRows_keeps config (h.good hgo) _ _ _ _ hwrite).1 fun _ => .inl

lemma CopyRun.Inv.dropTableForCopy (h : run.Inv name fingerprint) {newReplayEpoch : String}
    (ending : DropEnd)
    (hcurrent : newReplayEpoch ≠ run.session.store.lake.readTableReplayEpoch name)
    (hfresh : ∀ t ∈ run.session.store.transactions, t.replayEpoch ≠ newReplayEpoch) :
    (run.after config name fingerprint (.dropTableForCopy newReplayEpoch ending)).Inv name
      fingerprint := by
  unfold CopyRun.after
  simp only
  split
  · rename_i session hdrop
    obtain ⟨hsound, hgood⟩ := dropTableForCopy_spec h.sound hcurrent hfresh ending hdrop
    exact ⟨hsound, fun _ => hgood rfl, fun _ _ => nofun⟩
  · rename_i error session hdrop
    obtain ⟨hsound, -⟩ := dropTableForCopy_spec h.sound hcurrent hfresh ending hdrop
    exact ⟨hsound, nofun, nofun⟩

lemma CopyRun.Reachable.inv (h : run.Reachable config name fingerprint) :
    run.Inv name fingerprint := by
  induction h with
  | start lake hcontents hmarkers hepoch =>
    have hsound : CopyStore.Sound name fingerprint ⟨lake, []⟩ :=
      ⟨by simp [hmarkers], nofun, nofun, List.nodup_nil, by simp [hcontents], by simp [hepoch]⟩
    refine ⟨hsound, fun _ => ⟨⟨hsound, ?_⟩, nofun⟩, fun _ _ => nofun⟩
    intro batchId
    simp [hcontents, CopyStore.Committed]
  | writeRows h hgo batchId insertColumnNames estimatedBytes ends ih =>
    exact ih.writeRows hgo batchId insertColumnNames estimatedBytes ends
  | complete h hgo ends ih =>
    exact ih.of_keeps hgo (complete_keeps (ih.good hgo) ends rfl).1 fun _ => .inl
  | dropTableForCopy h newReplayEpoch ending hcurrent hfresh ih =>
    exact ih.dropTableForCopy ending hcurrent hfresh
  | restart h ih => exact ⟨ih.sound, nofun, nofun⟩

/-- Whatever the calls of a copy and their endings, a batch is in at most one transaction of a
replay epoch and in the table at most once, and its rows and its marker are in the same transaction.
If the end of the copy returns without an error then each batch that was accepted since the last
drop has its rows in the table and its marker. -/
theorem copy_commits_once (h : run.Reachable config name fingerprint) :
    Function.Injective TableCopyBatchId.toText ∧
    (run.session.store.transactions.flatMap fun t =>
      t.rows.map fun batchId => (t.replayEpoch, batchId)).Nodup ∧
    (run.session.store.lake.contents name).Nodup ∧
    (∀ t ∈ run.session.store.transactions, ∀ batchId : TableCopyBatchId,
      batchId.toText ∈ t.rows ↔ batchId.toText ∈ t.markers) ∧
    (run.restarting = false → ∀ (ends : CompleteEnds) (session : Session),
      run.session.complete name fingerprint ends = (.ok (), session) →
        ∀ batchId ∈ run.accepted,
          .copied batchId.toText ∈ session.store.lake.contents name ∧
            session.store.lake.appliedBatchMarkerIdExists name
              (session.store.lake.readTableReplayEpoch name) batchId.toText = true) := by
  have hinv := h.inv
  refine ⟨toText_injective, hinv.sound.once, hinv.sound.nodup_contents, ?_, ?_⟩
  · intro t ht batchId
    refine ⟨hinv.sound.marked t ht _, fun hmem => ?_⟩
    exact (hinv.sound.rows_of_marker t ht _ hmem).resolve_right
      (toText_ne_copyCompleteBatchId batchId fingerprint)
  · intro hgo ends session hcomplete batchId hmem
    obtain ⟨hkeeps, hok⟩ := complete_keeps (hinv.good hgo) ends hcomplete
    obtain ⟨hfailed, hbuffer⟩ := hok rfl
    have hheld := hkeeps.held hfailed _ (hinv.held hgo (hkeeps.failed hfailed) batchId hmem)
    -- nothing is pending any more
    have hcommitted : session.store.Committed name batchId.toText := by
      rcases hheld with hcommitted | ⟨_, hmem, -⟩
      · exact hcommitted
      · rw [hbuffer] at hmem
        cases hmem
    obtain ⟨t, ht, hepoch, hrow⟩ := id hcommitted
    have hsound := hkeeps.good.store.sound
    exact ⟨(hkeeps.good.store.present _).2 hcommitted,
      (hsound.markers _ _).2 ⟨t, ht, hepoch, hsound.marked t ht _ hrow⟩⟩

/-- A run with one batch, which is staged and not flushed before the end. -/
theorem copy_commits_once_staged :
    let name : DuckLakeTableName := ⟨"main", "users"⟩
    let batchId : TableCopyBatchId := ⟨7, 0⟩
    let run := CopyRun.after ⟨100, 1000⟩ name 0 ⟨⟨⟨.empty, []⟩, none, false⟩, [], false⟩
      (.writeRows batchId ["id"] 10 ⟨none, none, none, ⟨none, none⟩, .succeeds, .succeeds⟩)
    run.session.store.lake.contents name = [] ∧
      .copied batchId.toText ∈ (run.session.complete name 0
        ⟨none, ⟨none, none⟩, .succeeds, .succeeds, none⟩).2.store.lake.contents name := by
  intro name batchId run
  have h : run.Reachable ⟨100, 1000⟩ name 0 :=
    .writeRows (.start .empty rfl (fun _ _ => rfl) rfl) rfl _ _ _ _
  exact ⟨rfl, ((copy_commits_once h).2.2.2.2 rfl ⟨none, ⟨none, none⟩, .succeeds, .succeeds, none⟩ _
    rfl batchId (List.mem_singleton_self _)).1⟩

end Runs

end Etl.DuckLake
