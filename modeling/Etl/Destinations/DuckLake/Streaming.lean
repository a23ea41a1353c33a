import Etl.Destinations.DuckLake.Isolation

/-!
# Streaming into a table once

Calls, attempts and transactions may fail at any point, a transaction may land although an error is
reported, and the process may restart and be sent the stream again from an earlier position. The
operations that a table holds are still in the order of their keys, so none is applied twice: a
batch is written only beyond the frontier, the frontier moves in the same transaction, and a
remembered frontier is that of the rows (`Consistent`).
-/

namespace Etl.DuckLake

/-! ## Frontiers as bounds -/

def rank (key : EventSequenceKey) : PgLsn ×ₗ Nat :=
  toLex (key.commitLsn, key.txOrdinal)

lemma before_iff_rank_lt {a b : EventSequenceKey} : a.Before b ↔ rank a < rank b := by
  simp [EventSequenceKey.Before, rank, Prod.Lex.toLex_lt_toLex]

lemma rank_laterKey (a b : EventSequenceKey) : rank (laterKey a b) = max (rank a) (rank b) := by
  rw [laterKey, max_def_lt]
  simp only [before_iff_rank_lt, apply_ite rank]

/-- A frontier as a bound; a table without rows has none. -/
def bound (key : Option EventSequenceKey) : WithBot (PgLsn ×ₗ Nat) :=
  key.map rank

lemma bound_latestKey (keys : List EventSequenceKey) :
    bound (latestKey keys) = (keys.map rank).maximum := by
  induction keys using List.reverseRecOn with
  | nil => rfl
  | append_singleton keys key ih =>
    rw [List.map_append, List.map_singleton, List.maximum_concat, ← ih]
    simp only [latestKey, List.foldl_append, List.foldl_cons, List.foldl_nil]
    cases keys.foldl _ none with
    | none => rfl
    | some best => exact congrArg WithBot.some (rank_laterKey best key)

namespace Lake

variable {progressTable : String} {lake lake' : Lake} {name : DuckLakeTableName}
  {batch : TableBatch} {kind : SegmentKind} {operations : List TrackedOperation}
  {segments : List Segment} {known : Option EventSequenceKey}

/-- The frontier of a table under its replay epoch. -/
def frontier (progressTable : String) (lake : Lake) (name : DuckLakeTableName) :
    WithBot (PgLsn ×ₗ Nat) :=
  bound (lake.readTableStreamingProgress name progressTable (lake.readTableReplayEpoch name))

lemma bound_readTableStreamingProgress (replayEpoch : String) :
    bound (lake.readTableStreamingProgress name progressTable replayEpoch) =
      max (bound (lake.readStreamingProgressFrom name progressTable replayEpoch))
        (bound ((legacyTable progressTable).bind (lake.readStreamingProgressFrom name ·
          replayEpoch))) := by
  rw [readTableStreamingProgress]
  cases legacyTable progressTable with
  | none => exact (max_bot_right _).symm
  | some legacy =>
    dsimp only [Option.bind_some]
    rcases lake.readStreamingProgressFrom name progressTable replayEpoch with _ | own <;>
      rcases lake.readStreamingProgressFrom name legacy replayEpoch with _ | other
    · rfl
    · rfl
    · rfl
    · exact congrArg WithBot.some (rank_laterKey own other)

lemma frontier_updateTableStreamingProgress (key : EventSequenceKey) :
    (lake.updateTableStreamingProgress name progressTable (lake.readTableReplayEpoch name)
      key).frontier progressTable name = max (lake.frontier progressTable name) (rank key) := by
  have hfrom (table : String) (h : table ∈ writtenTables progressTable) (replayEpoch : String) :
      bound ((lake.updateTableStreamingProgress name progressTable replayEpoch
        key).readStreamingProgressFrom name table replayEpoch) =
          max (bound (lake.readStreamingProgressFrom name table replayEpoch)) (rank key) := by
    simp [readStreamingProgressFrom, updateTableStreamingProgress, h, bound_latestKey,
      List.maximum_concat]
  rw [frontier, frontier, bound_readTableStreamingProgress, bound_readTableStreamingProgress]
  change max (bound (readStreamingProgressFrom _ name _ (lake.readTableReplayEpoch name)))
    (bound (Option.bind _ (readStreamingProgressFrom _ name ·
      (lake.readTableReplayEpoch name)))) = _
  rw [hfrom progressTable (by simp [writtenTables])]
  cases hlegacy : legacyTable progressTable with
  | none => exact max_right_comm _ _ _
  | some legacy =>
    simp only [Option.bind_some, hfrom legacy (by simp [writtenTables, hlegacy])]
    rw [max_max_max_comm, max_self]

/-! ## What holds of a table -/

def Increasing (operations : List TrackedOperation) : Prop :=
  operations.Pairwise fun a b => rank a.sequenceKey < rank b.sequenceKey

/-- The operations of the stream that the table holds. -/
def applied (lake : Lake) (name : DuckLakeTableName) : List TrackedOperation :=
  (lake.contents name).filterMap fun
    | .applied operation => some operation
    | .copied _ => none

structure Sound (progressTable : String) (lake : Lake) (name : DuckLakeTableName) : Prop where
  increasing : Increasing (lake.applied name)
  covered : ∀ op ∈ lake.applied name, ↑(rank op.sequenceKey) ≤ lake.frontier progressTable name
  cache : ∀ known, lake.cacheGet name (lake.readTableReplayEpoch name) = some known →
    bound known = lake.frontier progressTable name

/-- A batch is written under the replay epoch, and while no frontier is remembered. -/
structure Attempting (replayEpoch : String) (cache : Option KnownFrontier) (batch : TableBatch)
    (operations : List TrackedOperation) (segments : List Segment) : Prop where
  epoch : batch.replayEpoch = replayEpoch
  cache : cache = none
  nonempty : batch.operations ≠ []
  increasing : Increasing batch.operations
  rest : Increasing operations
  segments : ∀ segment ∈ segments, Increasing segment.operations

def TaskFits (progressTable : String) (lake : Lake) (name : DuckLakeTableName) : Task → Prop
  | .idle => True
  | .writing segments => ∀ segment ∈ segments, Increasing segment.operations
  | .pending replayEpoch _ operations segments =>
    replayEpoch = lake.readTableReplayEpoch name ∧ Increasing operations ∧
      ∀ segment ∈ segments, Increasing segment.operations
  | .attempting batch known _ operations segments =>
    Attempting (lake.readTableReplayEpoch name) (lake.cache name) batch operations segments ∧
      (known.isSome → bound known = lake.frontier progressTable name)
  | .resetting _ => lake.cache name = none
  | .reset _ => lake.cache name = none ∧ lake.contents name = []

structure Consistent (progressTable : String) (lake : Lake) (name : DuckLakeTableName) : Prop
    extends Sound progressTable lake name where
  task : lake.TaskFits progressTable name (lake.tasks name)

namespace Sound

lemma setTask (h : lake.Sound progressTable name) (task : Task)
    (htask : lake.TaskFits progressTable name task) :
    (lake.setTask name task).Consistent progressTable name where
  increasing := h.increasing
  covered := h.covered
  cache := h.cache
  task := by
    rw [show (lake.setTask name task).tasks name = task from Function.update_self ..]
    cases task <;> exact htask

lemma of_cache_eq_none (hcache : lake.cache name = none)
    (hincreasing : Increasing (lake.applied name))
    (hcovered : ∀ op ∈ lake.applied name,
      ↑(rank op.sequenceKey) ≤ lake.frontier progressTable name) :
    lake.Sound progressTable name :=
  ⟨hincreasing, hcovered, by simp [cacheGet, hcache]⟩

lemma of_contents_eq_nil (lake : Lake) (hcache : lake.cache name = none)
    (hcontents : lake.contents name = []) : lake.Sound progressTable name :=
  of_cache_eq_none hcache (by simp [applied, hcontents, Increasing]) (by simp [applied, hcontents])

lemma cacheRecord (h : lake.Sound progressTable name)
    (hknown : bound known = lake.frontier progressTable name) :
    (lake.cacheRecord name (lake.readTableReplayEpoch name) known).Sound progressTable name where
  increasing := h.increasing
  covered := h.covered
  cache key hkey := by
    have heq : known = key := by simpa [cacheGet, Lake.cacheRecord, readTableReplayEpoch] using hkey
    exact heq ▸ hknown

lemma setEpoch (h : lake.Sound progressTable name) {row : EpochRow}
    (hrow : row.replayEpoch = lake.readTableReplayEpoch name) :
    (lake.setEpoch name row).Sound progressTable name := by
  have hepoch : (lake.setEpoch name row).readTableReplayEpoch name =
      lake.readTableReplayEpoch name := by simp [readTableReplayEpoch, Lake.setEpoch, hrow]
  have hfrontier : (lake.setEpoch name row).frontier progressTable name =
      lake.frontier progressTable name := by
    rw [frontier, hepoch]
    rfl
  exact ⟨h.increasing, fun op hop => hfrontier ▸ h.covered op hop,
    fun known hknown => (h.cache known (hepoch ▸ hknown)).trans hfrontier.symm⟩

/-- A batch beyond the frontier is new, and its end becomes the frontier. -/
lemma commitBatch (h : lake.Sound progressTable name)
    (hbatch : Attempting (lake.readTableReplayEpoch name) (lake.cache name) batch operations
      segments)
    (hbeyond : ∀ op ∈ batch.operations, lake.frontier progressTable name < rank op.sequenceKey) :
    ∃ committed, lake.commitBatch name progressTable batch = committed ∧
      committed.Sound progressTable name ∧
      Attempting (committed.readTableReplayEpoch name) (committed.cache name) batch operations
        segments ∧
      bound batch.lastSequenceKey = committed.frontier progressTable name := by
  obtain ⟨init, last, hlast⟩ :=
    (List.eq_nil_or_concat' batch.operations).resolve_left hbatch.nonempty
  have hlt := hbeyond last (by simp [hlast])
  have hfrontier : (updateTableStreamingProgress (lake.setContents name (lake.contents name ++
      batch.operations.map .applied)) name progressTable (lake.readTableReplayEpoch name)
        last.sequenceKey).frontier progressTable name = rank last.sequenceKey :=
    (frontier_updateTableStreamingProgress _).trans (max_eq_right hlt.le)
  refine ⟨updateTableStreamingProgress (lake.setContents name (lake.contents name ++
      batch.operations.map .applied)) name progressTable (lake.readTableReplayEpoch name)
        last.sequenceKey, ?_, of_cache_eq_none hbatch.cache ?_ ?_, { hbatch with }, ?_⟩
  · simp [Lake.commitBatch, TableBatch.lastSequenceKey, hlast, hbatch.epoch]
  · have happlied : Increasing (lake.applied name ++ batch.operations) :=
      List.pairwise_append.2 ⟨h.increasing, hbatch.increasing, fun a ha b hb =>
        WithBot.coe_lt_coe.1 ((h.covered a ha).trans_lt (hbeyond b hb))⟩
    simpa [applied, updateTableStreamingProgress, setContents, List.filterMap_map] using happlied
  · intro op hop
    rw [hfrontier]
    have hmem : op ∈ lake.applied name ∨ op ∈ batch.operations := by
      simpa [applied, updateTableStreamingProgress, setContents, List.filterMap_map] using hop
    rcases hmem with hold | hnew
    · exact (h.covered op hold).trans hlt.le
    · have hincreasing := hbatch.increasing
      simp only [Increasing, hlast, List.pairwise_append, List.mem_append, List.mem_singleton]
        at hincreasing hnew
      rw [WithBot.coe_le_coe]
      rcases hnew with hnew | rfl
      · exact (hincreasing.2.2 op hnew last rfl).le
      · exact le_rfl
  · rw [hfrontier]
    simp [TableBatch.lastSequenceKey, hlast, bound]
    rfl

lemma retryBatch (h : lake.Sound progressTable name) (hbatch : Attempting
    (lake.readTableReplayEpoch name) (lake.cache name) batch operations segments) :
    (lake.retryBatch name batch kind operations segments).Consistent progressTable name :=
  h.setTask _ ⟨hbatch, by simp⟩

lemma finishBatch (h : lake.Sound progressTable name) (hbatch : Attempting
      (lake.readTableReplayEpoch name) (lake.cache name) batch operations segments)
    (hknown : bound known = lake.frontier progressTable name) :
    (lake.finishBatch name batch kind operations segments known).Consistent progressTable name := by
  rw [Lake.finishBatch, hbatch.epoch]
  refine (h.cacheRecord hknown).setTask _ ?_
  rw [afterBatch]
  split
  · exact hbatch.segments
  · exact ⟨rfl, hbatch.rest, hbatch.segments⟩

lemma transactBatch (h : lake.Sound progressTable name) (attempt : Attempt) (hbatch : Attempting
      (lake.readTableReplayEpoch name) (lake.cache name) batch operations segments)
    (hbeyond : ∀ op ∈ batch.operations, lake.frontier progressTable name < rank op.sequenceKey) :
    (lake.transactBatch progressTable name batch kind operations segments attempt).Consistent
      progressTable name := by
  obtain ⟨committed, hcommit, hsound, hcommitted, hlast⟩ := h.commitBatch hbatch hbeyond
  rw [Lake.transactBatch, hcommit]
  split
  · exact hsound.finishBatch hcommitted hlast
  · exact hsound.retryBatch hcommitted

lemma attemptBatch (h : lake.Sound progressTable name) (attempt : Attempt) (hbatch : Attempting
      (lake.readTableReplayEpoch name) (lake.cache name) batch operations segments)
    (hknown : known.isSome → bound known = lake.frontier progressTable name) :
    (lake.attemptBatch progressTable name batch kind operations segments attempt known).Consistent
      progressTable name := by
  have hprogress : bound (lake.attemptProgress progressTable name batch known) =
      lake.frontier progressTable name := by
    rcases known with _ | key
    · rw [attemptProgress, hbatch.epoch, frontier]
    · exact hknown rfl
  rw [Lake.attemptBatch]
  split
  · exact h.retryBatch hbatch
  split
  · rename_i hnone
    rw [hnone] at hprogress
    exact h.transactBatch attempt hbatch fun op _ => hprogress ▸ WithBot.bot_lt_coe _
  · rename_i key hkey
    rw [hkey] at hprogress
    split
    · exact h.retryBatch hbatch
    · exact h.finishBatch hbatch hprogress
    · rename_i happly
      refine h.transactBatch attempt hbatch fun op hop => ?_
      obtain ⟨first, rest, hfirst⟩ := List.exists_cons_of_ne_nil hbatch.nonempty
      have hbefore : key.Before first.sequenceKey := by
        simp only [streamingReplayDecision, TableBatch.firstSequenceKey, hfirst] at happly
        grind
      have hincreasing := hbatch.increasing
      simp only [Increasing, hfirst, List.pairwise_cons, List.mem_cons] at hincreasing hop
      rw [← hprogress]
      refine WithBot.coe_lt_coe.2 ((before_iff_rank_lt.1 hbefore).trans_le ?_)
      rcases hop with rfl | hop
      · exact le_rfl
      · exact (hincreasing.1 op hop).le

lemma readCursor (h : lake.Sound progressTable name) {segment : Segment}
    (hsegments : ∀ s ∈ segment :: segments, Increasing s.operations) :
    (lake.readCursor progressTable name segment segments).Consistent progressTable name := by
  obtain ⟨known, next, hread, hnext, hepoch⟩ : ∃ known next,
      lake.readFrontier progressTable name (lake.readTableReplayEpoch name) = (known, next) ∧
        next.Sound progressTable name ∧
        next.readTableReplayEpoch name = lake.readTableReplayEpoch name := by
    rw [readFrontier]
    split
    · exact ⟨_, _, rfl, h, rfl⟩
    · exact ⟨_, _, rfl, h.cacheRecord rfl, rfl⟩
  obtain ⟨hsegment, hsegments⟩ := List.forall_mem_cons.1 hsegments
  simp only [Lake.readCursor, hread]
  split
  · exact hnext.setTask _ hsegments
  · refine hnext.setTask _ ⟨hepoch.symm, ?_, hsegments⟩
    cases known with
    | none => exact hsegment
    | some key => exact hsegment.filter _

end Sound

lemma replayEpoch_beginEpochRow (newReplayEpoch : String) :
    (lake.beginEpochRow name newReplayEpoch).replayEpoch = lake.readTableReplayEpoch name := by
  rw [beginEpochRow, readTableReplayEpoch]
  split <;> simp_all

namespace Consistent

lemma startBatch (h : lake.Consistent progressTable name) (count : Nat) {replayEpoch : String}
    (htask : lake.TaskFits progressTable name (.pending replayEpoch kind operations segments)) :
    (lake.startBatch name count replayEpoch kind operations segments).Consistent
      progressTable name := by
  obtain ⟨rfl, hincreasing, hsegments⟩ := htask
  simp only [Lake.startBatch]
  generalize (if kind = .truncates then operations.length else count) = count
  split
  · exact h
  · rename_i hne
    have hforget : (lake.cacheForget name).Sound progressTable name :=
      .of_cache_eq_none (Function.update_self ..) h.increasing h.covered
    refine hforget.setTask (.attempting ..) ⟨⟨rfl, Function.update_self .., hne,
      hincreasing.take, hincreasing.drop, hsegments⟩, fun hknown => ?_⟩
    rcases hget : lake.cacheGet name (lake.readTableReplayEpoch name) with _ | known
    · simp [hget] at hknown
    · exact h.cache known hget

lemma copyBatch (h : lake.Consistent progressTable name) (htask : lake.tasks name = .idle)
    (batchId : String) (attempt : Attempt) :
    (lake.copyBatch name batchId attempt).Consistent progressTable name := by
  simp only [Lake.copyBatch]
  split
  · exact h
  · have happlied : (lake.commitCopy name (lake.readTableReplayEpoch name) batchId).applied name =
        lake.applied name := by
      simp [applied, commitCopy, insertAppliedBatchMarker, setContents]
    have htasks : (lake.commitCopy name (lake.readTableReplayEpoch name) batchId).tasks name =
        .idle := htask
    exact ⟨⟨happlied ▸ h.increasing, happlied ▸ h.covered, h.cache⟩, htasks ▸ trivial⟩

lemma beginReset (h : lake.Consistent progressTable name) (newReplayEpoch : String) :
    (lake.beginReset name newReplayEpoch).Consistent progressTable name := by
  have hforget : (lake.cacheForget name).Sound progressTable name :=
    .of_cache_eq_none (Function.update_self ..) h.increasing h.covered
  refine (hforget.setEpoch ?_).setTask (.resetting _) (Function.update_self ..)
  exact replayEpoch_beginEpochRow newReplayEpoch

lemma completeReset (h : lake.Consistent progressTable name) {pendingReplayEpoch : String}
    (htask : lake.TaskFits progressTable name (.reset pendingReplayEpoch)) :
    (lake.completeReset name pendingReplayEpoch).Consistent progressTable name := by
  rw [Lake.completeReset]
  split
  · exact (Sound.of_contents_eq_nil (lake.setEpoch name _) htask.1 htask.2).setTask .idle trivial
  · exact h.setTask _ trivial

/-- What a step on the table keeps, if calls carry operations in the order of their keys. -/
lemma step (h : lake.Consistent progressTable name) {next : TableStep}
    (hnext : ∀ segments, next = .startCall segments → ∀ s ∈ segments, Increasing s.operations) :
    (lake.step progressTable name next).Consistent progressTable name := by
  have htask := h.task
  cases next with
  | giveUp => exact h.setTask _ trivial
  | _ =>
    simp only [Lake.step]
    split
    on_goal 2 => exact h
    rename_i htasks
    rw [htasks] at htask
    first
      | exact h.setTask _ (hnext _ rfl)
      | exact h.readCursor htask
      | exact h.startBatch _ htask
      | exact h.attemptBatch _ htask.1 htask.2
      | exact h.setTask _ trivial
      | exact h.copyBatch htasks _ _
      | exact h.beginReset _
      | exact h.completeReset htask
      | exact (Sound.of_contents_eq_nil (lake.setContents name []) htask
          (Function.update_self ..)).setTask (.reset _) ⟨htask, Function.update_self ..⟩

lemma congr (h : lake.Consistent progressTable name) (hagree : Agree name lake lake') :
    lake'.Consistent progressTable name := by
  have hepoch := hagree.readTableReplayEpoch_eq
  have hcache : lake'.cache name = lake.cache name := congrArg OwnState.cache hagree.own
  have hfrontier : lake'.frontier progressTable name = lake.frontier progressTable name := by
    rw [frontier, hepoch, hagree.readTableStreamingProgress_eq, frontier]
  have happlied : lake'.applied name = lake.applied name := by
    rw [applied, hagree.contents_eq, applied]
  have hfits : lake'.TaskFits progressTable name = lake.TaskFits progressTable name := by
    funext task
    cases task <;> simp only [TaskFits, hepoch, hcache, hfrontier, hagree.contents_eq]
  refine ⟨⟨happlied ▸ h.increasing, ?_, ?_⟩, ?_⟩
  · rw [happlied, hfrontier]
    exact h.covered
  · rw [hepoch, hagree.cacheGet_eq, hfrontier]
    exact h.cache
  · rw [hfits, hagree.tasks_eq]
    exact h.task

end Consistent

/-- A run in which the calls of the table carry operations in the order of their keys, and no other
table has its text. -/
def Admissible (name : DuckLakeTableName) : Move → Prop
  | .restart => True
  | .table other next =>
    if other = name then
      ∀ segments, next = .startCall segments → ∀ s ∈ segments, Increasing s.operations
    else other.id ≠ name.id

lemma Consistent.move (h : lake.Consistent progressTable name) {move : Move}
    (hmove : Admissible name move) :
    (lake.move progressTable move).Consistent progressTable name := by
  cases move with
  | restart => exact ⟨⟨h.increasing, h.covered, by simp [cacheGet, Lake.move, restart]⟩, trivial⟩
  | table other next =>
    rw [Admissible] at hmove
    split at hmove
    · rename_i heq
      subst heq
      exact h.step hmove
    · rename_i hne
      have hframe : Frame other lake (lake.step progressTable other next) :=
        .step progressTable next
      exact h.congr ⟨hframe.rows _ hmove.symm, hframe.own _ (Ne.symm hne)⟩

lemma Consistent.run (progressTable : String) {moves : List Move}
    (h : ∀ move ∈ moves, Admissible name move) :
    (empty.run progressTable moves).Consistent progressTable name :=
  List.foldlRecOn moves _ (motive := fun lake : Lake => lake.Consistent progressTable name)
    ⟨.of_contents_eq_nil empty rfl rfl, trivial⟩ fun _ hlake move hmove => hlake.move (h move hmove)

end Lake

/-- In every run, the operations of the stream that a table holds are in the order of their keys, so
that none is applied twice, and none lies beyond the frontier under the replay epoch. -/
theorem streaming_applies_once (progressTable : String) (name : DuckLakeTableName)
    (moves : List Move) (h : ∀ move ∈ moves, Lake.Admissible name move) :
    ((Lake.empty.run progressTable moves).applied name).Pairwise
        (fun a b => a.sequenceKey.Before b.sequenceKey) ∧
      ∀ op ∈ (Lake.empty.run progressTable moves).applied name, ∃ key,
        (Lake.empty.run progressTable moves).readTableStreamingProgress name progressTable
          ((Lake.empty.run progressTable moves).readTableReplayEpoch name) = some key ∧
        ¬key.Before op.sequenceKey := by
  have hrun := Lake.Consistent.run progressTable h
  refine ⟨hrun.increasing.imp before_iff_rank_lt.2, fun op hop => ?_⟩
  obtain ⟨bound, hbound, hle⟩ := WithBot.coe_le_iff.1 (hrun.covered op hop)
  obtain ⟨key, hkey, rfl⟩ := Option.map_eq_some_iff.1 hbound
  exact ⟨key, hkey, fun hbefore => (before_iff_rank_lt.1 hbefore).not_ge hle⟩

/-- An insert whose landing is not reported, then a restart, then the same call again. -/
theorem streaming_applies_once_after_restart :
    let name : DuckLakeTableName := ⟨"public", "users"⟩
    let insert : TrackedOperation := ⟨⟨10, 0⟩, .mutation (.insert ⟨[]⟩)⟩
    let call : List Move := [TableStep.startCall [⟨.mutations, [insert]⟩], .readCursor,
      .startBatch 1, .attempt .ambiguous].map (Move.table name)
    let lake := Lake.empty.run sharedStreamingProgressTable (call ++ .restart :: call)
    lake.applied name = [insert] ∧ ∃ key,
      lake.readTableStreamingProgress name sharedStreamingProgressTable
        (lake.readTableReplayEpoch name) = some key ∧ ¬key.Before insert.sequenceKey := by
  refine ⟨by decide +kernel, (streaming_applies_once _ _ _ ?_).2 _ (by decide +kernel)⟩
  simp [Lake.Admissible, Lake.Increasing]

end Etl.DuckLake
