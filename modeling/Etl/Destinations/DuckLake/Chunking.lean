import Etl.Destinations.DuckLake.ReplayState
import Etl.Lib.Machine

/-!
# Batches of mutations

The mutations of a table are written in atomic batches, split by caps. A batch with partial updates
first reads the stored rows; the mutations from the first identity a read has not covered go back to
the queue. Sizes, predicates and outcomes are parameters. `prepareAndApply_covers`: the loop ends,
writes every mutation once and in order, and never needs an identity that was not covered.
-/

namespace Etl.DuckLake

/-- `DuckLakeStreamingBatchConfig::new` refuses zero. -/
structure DuckLakeStreamingBatchConfig where
  maxRows : Nat
  maxBytes : Nat
  maxRows_pos : 0 < maxRows
  maxBytes_pos : 0 < maxBytes

def maxPartialUpdateKeysPerBatch : Nat := 1024

def usizeMax : Nat := 2 ^ 64 - 1

structure TrackedTableMutation where
  sequenceKey : EventSequenceKey
  mutation : TableMutation
deriving DecidableEq

structure MutationTable where
  hasCanonicalIdentity : Bool
  mutationSizeHint : TableMutation → Nat
  deletePredicateFromRow : OldTableRow → Except EtlError String

def needsPartialUpdateRecovery : TableMutation → Bool
  | .update _ (.partialRow _ _ missingColumnIndexes) => !missingColumnIndexes.isEmpty
  | _ => false

/-! ## Splitting by caps -/

section Split

variable (table : MutationTable) (config : DuckLakeStreamingBatchConfig)

def chunkBytes (chunk : List TrackedTableMutation) : Nat :=
  (chunk.map fun tracked => table.mutationSizeHint tracked.mutation).foldl
    (Machine.saturatingAdd usizeMax) 0

def chunkRecoveryKeys (chunk : List TrackedTableMutation) : Nat :=
  chunk.countP fun tracked => needsPartialUpdateRecovery tracked.mutation

structure PendingChunk where
  mutations : List TrackedTableMutation
  bytes : Nat
  recoveryKeys : Nat

namespace PendingChunk

def empty : PendingChunk := ⟨[], 0, 0⟩

def add (pending : PendingChunk) (tracked : TrackedTableMutation) : PendingChunk where
  mutations := pending.mutations ++ [tracked]
  bytes := Machine.saturatingAdd usizeMax pending.bytes (table.mutationSizeHint tracked.mutation)
  recoveryKeys := Machine.saturatingAdd usizeMax pending.recoveryKeys
    (if needsPartialUpdateRecovery tracked.mutation then 1 else 0)

def overflows (pending : PendingChunk) (tracked : TrackedTableMutation) : Bool :=
  !pending.mutations.isEmpty &&
    (config.maxBytes < (pending.add table tracked).bytes ||
      maxPartialUpdateKeysPerBatch < (pending.add table tracked).recoveryKeys)

end PendingChunk

def splitFrom (pending : PendingChunk) :
    List TrackedTableMutation → List (List TrackedTableMutation)
  | [] => if pending.mutations.isEmpty then [] else [pending.mutations]
  | tracked :: rest =>
    let overflow := pending.overflows table config tracked
    let next := (if overflow then .empty else pending).add table tracked
    (if overflow then [pending.mutations] else []) ++
      if config.maxRows ≤ next.mutations.length then next.mutations :: splitFrom .empty rest
      else splitFrom next rest

def splitTrackedMutations (trackedMutations : List TrackedTableMutation) :
    List (List TrackedTableMutation) :=
  splitFrom table config .empty trackedMutations

end Split

/-! ## Planning a recovery read -/

structure PartialUpdateRecoveryKey where
  predicate : String
  mutationIndex : Nat
deriving DecidableEq

structure PartialUpdateRecoveryRequest where
  keys : List PartialUpdateRecoveryKey
  columns : Finset Nat
  maxRecoveredBytes : Nat
deriving DecidableEq

def PartialUpdateRecoveryRequest.isEmpty (request : PartialUpdateRecoveryRequest) : Bool :=
  request.keys.isEmpty || request.columns = ∅

structure RecoveryPlan where
  keys : List PartialUpdateRecoveryKey
  columns : Finset Nat
  deleted : Finset String
deriving DecidableEq

section Plan

variable (table : MutationTable)

def RecoveryPlan.visit (plan : RecoveryPlan) (entry : TableMutation × Nat) :
    Except EtlError RecoveryPlan :=
  match entry.1 with
  | .insert _ => .ok plan
  | .delete row => do
    let predicate ← table.deletePredicateFromRow row
    return { plan with deleted := insert predicate plan.deleted }
  | .replace row => do
    let predicate ← table.deletePredicateFromRow (.full row)
    return { plan with deleted := insert predicate plan.deleted }
  | .update deleteRow newRow => do
    let predicate ← table.deletePredicateFromRow deleteRow
    let isNewIdentity : Bool := predicate ∉ plan.deleted
    let plan := { plan with deleted := insert predicate plan.deleted }
    match newRow with
    | .full _ => return plan
    | .partialRow _ _ missingColumnIndexes =>
      if !isNewIdentity || missingColumnIndexes.isEmpty then return plan
      else return { plan with
        columns := plan.columns ∪ missingColumnIndexes.toFinset
        keys := plan.keys ++ [⟨predicate, entry.2⟩] }

def planPartialUpdateRecovery (mutations : List TableMutation) (maxRecoveredBytes : Nat) :
    Except EtlError PartialUpdateRecoveryRequest := do
  let plan ← mutations.zipIdx.foldlM (RecoveryPlan.visit table) ⟨[], ∅, ∅⟩
  return ⟨plan.keys, plan.columns, maxRecoveredBytes⟩

end Plan

/-! ## Reading stored rows -/

/-- How many identities it asks for at most, at least one, and the bytes it found. -/
structure RecoveryStatement where
  chunkSize : Nat
  recoveredBytes : Nat
  chunkSize_pos : 0 < chunkSize

/-- The loop of `recover_partial_update_rows_with_retry`, with what the retries of each round end
with. -/
def recoverFrom (request : PartialUpdateRecoveryRequest)
    (statements : Nat → Except EtlError RecoveryStatement)
    (round coveredKeys recoveredBytes : Nat) : Except EtlError Nat :=
  if coveredKeys < request.keys.length then
    match statements round with
    | .error e => .error e
    | .ok statement =>
      let covered := min request.keys.length (coveredKeys + statement.chunkSize)
      let bytes := Machine.saturatingAdd usizeMax recoveredBytes statement.recoveredBytes
      if request.maxRecoveredBytes ≤ bytes then .ok covered
      else recoverFrom request statements (round + 1) covered bytes
  else .ok coveredKeys
termination_by request.keys.length - coveredKeys
decreasing_by
  have := statement.chunkSize_pos
  omega

def recoverPartialUpdateRows (request : PartialUpdateRecoveryRequest)
    (statements : Nat → Except EtlError RecoveryStatement) : Except EtlError Nat :=
  recoverFrom request statements 0 0 0

def recoveryByteBudget (table : MutationTable) (config : DuckLakeStreamingBatchConfig)
    (chunk : List TrackedTableMutation) : Nat :=
  max (config.maxBytes - chunkBytes table chunk) 1

def coveredMutationCount (chunkLen : Nat) (request : PartialUpdateRecoveryRequest)
    (coveredKeys : Nat) : Nat :=
  match request.keys[coveredKeys]? with
  | some key => min key.mutationIndex chunkLen
  | none => chunkLen

/-! ## The loop -/

structure Round where
  statements : Nat → Except EtlError RecoveryStatement
  written : Except EtlError Unit

structure AppliedChunk where
  mutations : List TrackedTableMutation
  covered : List PartialUpdateRecoveryKey

structure CallOutcome where
  applied : List AppliedChunk
  result : Except EtlError Unit

section Loop

variable (table : MutationTable) (config : DuckLakeStreamingBatchConfig)

def recoverChunk (chunk : List TrackedTableMutation) (round : Round) :
    Except EtlError (List PartialUpdateRecoveryKey × Nat) :=
  if table.hasCanonicalIdentity then do
    let request ← planPartialUpdateRecovery table (chunk.map (·.mutation))
      (recoveryByteBudget table config chunk)
    if request.isEmpty then return ([], chunk.length)
    let coveredKeys ← recoverPartialUpdateRows request round.statements
    return (request.keys.take coveredKeys, coveredMutationCount chunk.length request coveredKeys)
  else .ok ([], chunk.length)

/-- The loop of `prepare_and_apply_mutation_table_batches`; `none` if it has not ended. -/
def applyPending (rounds : Nat → Round) :
    (fuel round : Nat) → List (List TrackedTableMutation) → Option CallOutcome
  | _, _, [] => some ⟨[], .ok ()⟩
  | 0, _, _ :: _ => none
  | fuel + 1, round, chunk :: pending =>
    match recoverChunk table config chunk (rounds round) with
    | .error e => some ⟨[], .error e⟩
    | .ok (covered, coveredMutations) =>
      let pending :=
        if coveredMutations < chunk.length then chunk.drop coveredMutations :: pending else pending
      let chunk := chunk.take coveredMutations
      if chunk.isEmpty then applyPending rounds fuel (round + 1) pending
      else
        match (rounds round).written with
        | .error e => some ⟨[], .error e⟩
        | .ok () => (applyPending rounds fuel (round + 1) pending).map fun outcome =>
            { outcome with applied := ⟨chunk, covered⟩ :: outcome.applied }

def prepareAndApplyMutationTableBatches (rounds : Nat → Round) (fuel : Nat)
    (trackedMutations : List TrackedTableMutation) : Option CallOutcome :=
  applyPending table config rounds fuel 0 (splitTrackedMutations table config trackedMutations)

end Loop

/-! ## Chunks keep to the caps -/

section Split

variable {table : MutationTable} {config : DuckLakeStreamingBatchConfig}
  {chunk : List TrackedTableMutation}

structure Capped (table : MutationTable) (config : DuckLakeStreamingBatchConfig)
    (chunk : List TrackedTableMutation) : Prop where
  rows : chunk.length ≤ config.maxRows
  recoveryKeys : chunkRecoveryKeys chunk ≤ maxPartialUpdateKeysPerBatch
  bytes : 1 < chunk.length → chunkBytes table chunk ≤ config.maxBytes

lemma chunkBytes_eq_min (chunk : List TrackedTableMutation) :
    chunkBytes table chunk =
      min (chunk.map fun tracked => table.mutationSizeHint tracked.mutation).sum usizeMax := by
  rw [chunkBytes, Machine.foldl_saturatingAdd (Nat.zero_le _), Nat.zero_add]

lemma chunkBytes_append_singleton (chunk : List TrackedTableMutation)
    (tracked : TrackedTableMutation) :
    chunkBytes table (chunk ++ [tracked]) = Machine.saturatingAdd usizeMax (chunkBytes table chunk)
      (table.mutationSizeHint tracked.mutation) := by
  simp [chunkBytes]

lemma chunkRecoveryKeys_append_singleton (chunk : List TrackedTableMutation)
    (tracked : TrackedTableMutation) :
    chunkRecoveryKeys (chunk ++ [tracked]) = chunkRecoveryKeys chunk +
      if needsPartialUpdateRecovery tracked.mutation then 1 else 0 := by
  simp [chunkRecoveryKeys, List.countP_append, List.countP_singleton]

lemma Capped.sublist (h : Capped table config chunk) {part : List TrackedTableMutation}
    (hpart : part.Sublist chunk) : Capped table config part where
  rows := hpart.length_le.trans h.rows
  recoveryKeys := (hpart.countP_le).trans h.recoveryKeys
  bytes hlength := by
    have hbytes := h.bytes (hlength.trans_le hpart.length_le)
    have hsum := (hpart.map fun tracked => table.mutationSizeHint tracked.mutation).sum_le_sum
      fun _ _ => Nat.zero_le _
    rw [chunkBytes_eq_min] at hbytes ⊢
    omega

lemma capped_nil : Capped table config [] where
  rows := Nat.zero_le _
  recoveryKeys := Nat.zero_le _
  bytes h := absurd h (by simp)

def PendingChunk.of (table : MutationTable) (chunk : List TrackedTableMutation) : PendingChunk :=
  ⟨chunk, chunkBytes table chunk, chunkRecoveryKeys chunk⟩

lemma PendingChunk.add_of (h : Capped table config chunk) (tracked : TrackedTableMutation) :
    (PendingChunk.of table chunk).add table tracked = .of table (chunk ++ [tracked]) := by
  have hcap : chunkRecoveryKeys chunk ≤ 1024 := h.recoveryKeys
  have hkeys : Machine.saturatingAdd usizeMax (chunkRecoveryKeys chunk)
      (if needsPartialUpdateRecovery tracked.mutation then 1 else 0) =
        chunkRecoveryKeys (chunk ++ [tracked]) := by
    rw [chunkRecoveryKeys_append_singleton, Machine.saturatingAdd, usizeMax]
    split_ifs <;> omega
  rw [PendingChunk.of, PendingChunk.of, PendingChunk.add, hkeys, chunkBytes_append_singleton]

lemma capped_singleton (tracked : TrackedTableMutation) : Capped table config [tracked] where
  rows := config.maxRows_pos
  recoveryKeys := by
    have hcount : chunkRecoveryKeys [tracked] ≤ 1 := List.countP_le_length
    exact hcount.trans (by decide)
  bytes h := absurd h (by simp)

lemma Capped.append_singleton (h : Capped table config chunk)
    (hroom : chunk.length < config.maxRows) {tracked : TrackedTableMutation}
    (hfits : (PendingChunk.of table chunk).overflows table config tracked = false) :
    Capped table config (chunk ++ [tracked]) := by
  cases chunk with
  | nil => exact capped_singleton tracked
  | cons first chunk =>
    rw [PendingChunk.overflows, PendingChunk.add_of h] at hfits
    simp only [PendingChunk.of, List.isEmpty_cons, Bool.not_false, Bool.true_and,
      Bool.or_eq_false_iff] at hfits
    exact ⟨by simpa using hroom, not_lt.1 (of_decide_eq_false hfits.2),
      fun _ => not_lt.1 (of_decide_eq_false hfits.1)⟩

def splitNext (table : MutationTable) (config : DuckLakeStreamingBatchConfig)
    (next rest : List TrackedTableMutation) : List (List TrackedTableMutation) :=
  if config.maxRows ≤ next.length then next :: splitFrom table config (.of table []) rest
  else splitFrom table config (.of table next) rest

lemma splitFrom_cons (h : Capped table config chunk) (tracked : TrackedTableMutation)
    (rest : List TrackedTableMutation) :
    splitFrom table config (.of table chunk) (tracked :: rest) =
      if (PendingChunk.of table chunk).overflows table config tracked then
        chunk :: splitNext table config [tracked] rest
      else splitNext table config (chunk ++ [tracked]) rest := by
  have hfirst : PendingChunk.empty.add table tracked = .of table [tracked] :=
    PendingChunk.add_of (@capped_nil table config) tracked
  rw [splitFrom]
  cases (PendingChunk.of table chunk).overflows table config tracked with
  | true =>
    simp only [if_true, hfirst]
    rfl
  | false =>
    simp only [Bool.false_eq_true, if_false, PendingChunk.add_of h]
    rfl

lemma splitFrom_spec (rest : List TrackedTableMutation) (h : Capped table config chunk)
    (hroom : chunk.length < config.maxRows) :
    (splitFrom table config (.of table chunk) rest).flatten = chunk ++ rest ∧
      ∀ part ∈ splitFrom table config (.of table chunk) rest,
        part ≠ [] ∧ Capped table config part := by
  induction rest generalizing chunk with
  | nil =>
    cases chunk with
    | nil => simp [splitFrom, PendingChunk.of]
    | cons tracked chunk => simpa [splitFrom, PendingChunk.of] using h
  | cons tracked rest ih =>
    -- pending mutations are closed as a chunk or stay pending
    have hnext : ∀ next : List TrackedTableMutation, next ≠ [] → Capped table config next →
        (splitNext table config next rest).flatten = next ++ rest ∧
          ∀ part ∈ splitNext table config next rest, part ≠ [] ∧ Capped table config part := by
      intro next hne hcapped
      unfold splitNext
      split_ifs with hfull
      · obtain ⟨hflatten, hall⟩ := ih capped_nil config.maxRows_pos
        exact ⟨congrArg (next ++ ·) hflatten, List.forall_mem_cons.2 ⟨⟨hne, hcapped⟩, hall⟩⟩
      · exact ih hcapped (by omega)
    rw [splitFrom_cons h]
    split_ifs with hoverflow
    · obtain ⟨hflatten, hall⟩ := hnext [tracked] (by simp) (capped_singleton tracked)
      have hne : chunk ≠ [] := by
        rintro rfl
        simp [PendingChunk.overflows, PendingChunk.of] at hoverflow
      exact ⟨congrArg (chunk ++ ·) hflatten, List.forall_mem_cons.2 ⟨⟨hne, h⟩, hall⟩⟩
    · have hcapped := h.append_singleton hroom (Bool.eq_false_iff.2 hoverflow)
      obtain ⟨hflatten, hall⟩ := hnext (chunk ++ [tracked]) (by simp) hcapped
      exact ⟨hflatten.trans (by simp), hall⟩

lemma splitTrackedMutations_spec (mutations : List TrackedTableMutation) :
    (splitTrackedMutations table config mutations).flatten = mutations ∧
      ∀ chunk ∈ splitTrackedMutations table config mutations,
        chunk ≠ [] ∧ Capped table config chunk :=
  splitFrom_spec mutations capped_nil config.maxRows_pos

end Split

/-! ## Requests are in the order of the mutations -/

section Plan

variable {table : MutationTable} {plan plan' : RecoveryPlan}

lemma RecoveryPlan.visit_eq_ok {entry : TableMutation × Nat}
    (h : plan.visit table entry = .ok plan') :
    plan.columns ⊆ plan'.columns ∧ (plan'.keys = plan.keys ∨
      ∃ predicate, plan'.keys = plan.keys ++ [⟨predicate, entry.2⟩] ∧
        needsPartialUpdateRecovery entry.1 = true ∧ plan'.columns.Nonempty) := by
  obtain ⟨mutation, index⟩ := entry
  cases mutation with
  | insert row =>
    cases h
    exact ⟨subset_rfl, .inl rfl⟩
  | delete row =>
    obtain ⟨predicate, -, h⟩ := Except.exists_of_bind_eq_ok h
    cases h
    exact ⟨subset_rfl, .inl rfl⟩
  | replace row =>
    obtain ⟨predicate, -, h⟩ := Except.exists_of_bind_eq_ok h
    cases h
    exact ⟨subset_rfl, .inl rfl⟩
  | update deleteRow newRow =>
    obtain ⟨predicate, -, h⟩ := Except.exists_of_bind_eq_ok h
    cases newRow with
    | full row =>
      cases h
      exact ⟨subset_rfl, .inl rfl⟩
    | partialRow totalColumns row missingColumnIndexes =>
      dsimp only at h
      split_ifs at h with hskip
      · cases h
        exact ⟨subset_rfl, .inl rfl⟩
      · cases h
        have hmissing : missingColumnIndexes ≠ [] := by simp_all
        refine ⟨Finset.subset_union_left, .inr ⟨predicate, rfl, ?_, ?_⟩⟩
        · simpa [needsPartialUpdateRecovery] using hmissing
        · exact (List.toFinset_nonempty_iff _).2 hmissing |>.mono Finset.subset_union_right

structure AddedKeys (mutations : List TableMutation) (first : Nat) (plan plan' : RecoveryPlan)
    (added : List PartialUpdateRecoveryKey) : Prop where
  keys : plan'.keys = plan.keys ++ added
  columns : plan.columns ⊆ plan'.columns
  ascending : added.Pairwise fun a b => a.mutationIndex < b.mutationIndex
  range : ∀ key ∈ added, first ≤ key.mutationIndex ∧ key.mutationIndex < first + mutations.length
  length_le : added.length ≤ mutations.countP needsPartialUpdateRecovery
  nonempty : added ≠ [] → plan'.columns.Nonempty

variable {mutations : List TableMutation}

lemma exists_addedKeys {first : Nat}
    (h : (mutations.zipIdx first).foldlM (RecoveryPlan.visit table) plan = .ok plan') :
    ∃ added, AddedKeys mutations first plan plan' added := by
  induction mutations generalizing first plan with
  | nil =>
    cases h
    exact ⟨[], by simp, subset_rfl, .nil, by simp, by simp, by simp⟩
  | cons mutation mutations ih =>
    rw [List.zipIdx_cons, List.foldlM_cons] at h
    obtain ⟨middle, hvisit, hrest⟩ := Except.exists_of_bind_eq_ok h
    obtain ⟨added, hadded⟩ := ih hrest
    obtain ⟨hcolumns, hsame | ⟨predicate, hkeys, hneeds, hnonempty⟩⟩ :=
      RecoveryPlan.visit_eq_ok hvisit
    · refine ⟨added, by rw [hadded.keys, hsame], hcolumns.trans hadded.columns, hadded.ascending,
        fun key hkey => ?_, ?_, hadded.nonempty⟩
      · have hrange := hadded.range key hkey
        simp only [List.length_cons]
        omega
      · exact hadded.length_le.trans (List.countP_cons ▸ Nat.le_add_right _ _)
    · refine ⟨⟨predicate, first⟩ :: added, by rw [hadded.keys, hkeys]; simp,
        hcolumns.trans hadded.columns, List.pairwise_cons.2 ⟨fun key hkey => ?_, hadded.ascending⟩,
        List.forall_mem_cons.2 ⟨by simp, fun key hkey => ?_⟩, ?_, fun _ => ?_⟩
      · exact (hadded.range key hkey).1
      · have hrange := hadded.range key hkey
        simp only [List.length_cons]
        omega
      · rw [List.countP_cons, if_pos hneeds, List.length_cons]
        exact Nat.succ_le_succ hadded.length_le
      · exact hnonempty.mono hadded.columns

lemma planPartialUpdateRecovery_eq_ok {maxBytes : Nat} {request : PartialUpdateRecoveryRequest}
    (h : planPartialUpdateRecovery table mutations maxBytes = .ok request) :
    ∃ plan, mutations.zipIdx.foldlM (RecoveryPlan.visit table) ⟨[], ∅, ∅⟩ = .ok plan ∧
      request = ⟨plan.keys, plan.columns, maxBytes⟩ ∧
      AddedKeys mutations 0 ⟨[], ∅, ∅⟩ plan plan.keys := by
  obtain ⟨plan, hplan, h⟩ := Except.exists_of_bind_eq_ok h
  obtain ⟨added, hadded⟩ := exists_addedKeys hplan
  have hkeys : plan.keys = added := hadded.keys
  refine ⟨plan, hplan, (Except.ok.inj h).symm, ?_⟩
  rwa [hkeys]

lemma planPartialUpdateRecovery_take {maxBytes : Nat} {request : PartialUpdateRecoveryRequest}
    (h : planPartialUpdateRecovery table mutations maxBytes = .ok request) (count maxBytes' : Nat) :
    ∃ kept left, planPartialUpdateRecovery table (mutations.take count) maxBytes' = .ok kept ∧
      request.keys = kept.keys ++ left ∧ (∀ key ∈ kept.keys, key.mutationIndex < count) := by
  obtain ⟨plan, hplan, rfl, -⟩ := planPartialUpdateRecovery_eq_ok h
  rw [← List.take_append_drop count mutations, List.zipIdx_append, List.foldlM_append] at hplan
  obtain ⟨middle, hfirst, hrest⟩ := Except.exists_of_bind_eq_ok hplan
  have hkept : planPartialUpdateRecovery table (mutations.take count) maxBytes' =
      .ok ⟨middle.keys, middle.columns, maxBytes'⟩ := by
    rw [planPartialUpdateRecovery, hfirst]
    rfl
  obtain ⟨plan', hplan', hkept', hadded⟩ := planPartialUpdateRecovery_eq_ok hkept
  obtain ⟨left, hleft⟩ := exists_addedKeys hrest
  refine ⟨_, left, hkept, hleft.keys, fun key hkey => ?_⟩
  rw [hkept'] at hkey
  have hrange := (hadded.range key hkey).2
  simp only [List.length_take] at hrange
  omega

end Plan

/-! ## A read covers some keys -/

section Read

variable {request : PartialUpdateRecoveryRequest}
  {statements : Nat → Except EtlError RecoveryStatement}

lemma recoverFrom_eq_ok {round coveredKeys recoveredBytes covered : Nat}
    (h : recoverFrom request statements round coveredKeys recoveredBytes = .ok covered) :
    coveredKeys ≤ covered ∧ (coveredKeys < request.keys.length → coveredKeys < covered) := by
  fun_induction recoverFrom request statements round coveredKeys recoveredBytes with
  | case1 => cases h
  | case2 round coveredKeys recoveredBytes hless statement hstatement covered' bytes hfull =>
    have hcovered := Except.ok.inj h
    have hpos := statement.chunkSize_pos
    simp only [covered'] at hcovered
    omega
  | case3 round coveredKeys recoveredBytes hless statement hstatement covered' bytes hroom ih =>
    have hrest := (ih h).1
    have hpos := statement.chunkSize_pos
    simp only [covered'] at hrest
    omega
  | case4 round coveredKeys recoveredBytes hall =>
    cases h
    omega

lemma recoverFrom_ok (hstatements : ∀ round, ∃ statement, statements round = .ok statement)
    (round coveredKeys recoveredBytes : Nat) :
    ∃ covered, recoverFrom request statements round coveredKeys recoveredBytes = .ok covered := by
  fun_induction recoverFrom request statements round coveredKeys recoveredBytes with
  | case1 round _ _ _ e herror =>
    obtain ⟨statement, hstatement⟩ := hstatements round
    rw [herror] at hstatement
    cases hstatement
  | case2 => exact ⟨_, rfl⟩
  | case3 _ _ _ _ _ _ _ _ _ ih => exact ih
  | case4 => exact ⟨_, rfl⟩

end Read

/-! ## The loop -/

section Loop

variable {table : MutationTable} {config : DuckLakeStreamingBatchConfig}
  {chunk : List TrackedTableMutation}

def Covers (table : MutationTable) (covered : List PartialUpdateRecoveryKey)
    (mutations : List TrackedTableMutation) : Prop :=
  table.hasCanonicalIdentity → ∀ maxBytes, ∃ request,
    planPartialUpdateRecovery table (mutations.map (·.mutation)) maxBytes = .ok request ∧
      ∀ key ∈ request.keys, key ∈ covered

/-- At least one mutation stays, and those that stay need covered keys only. -/
lemma coveredMutationCount_spec {maxBytes coveredKeys : Nat}
    {request : PartialUpdateRecoveryRequest} (hne : chunk ≠ [])
    (hplan : planPartialUpdateRecovery table (chunk.map (·.mutation)) maxBytes = .ok request)
    (hcovered : request.keys ≠ [] → 0 < coveredKeys) :
    0 < coveredMutationCount chunk.length request coveredKeys ∧
      Covers table (request.keys.take coveredKeys)
        (chunk.take (coveredMutationCount chunk.length request coveredKeys)) := by
  have hlength : 0 < chunk.length := List.length_pos_iff.2 hne
  obtain ⟨plan, -, rfl, hadded⟩ := planPartialUpdateRecovery_eq_ok hplan
  simp only [Covers, List.map_take]
  cases hkey : plan.keys[coveredKeys]? with
  | none =>
    have hall : plan.keys.length ≤ coveredKeys := List.getElem?_eq_none_iff.1 hkey
    simp only [coveredMutationCount, hkey, List.take_of_length_le hall]
    refine ⟨hlength, fun _ maxBytes' => ?_⟩
    obtain ⟨kept, left, hkept, hkeys, -⟩ :=
      planPartialUpdateRecovery_take hplan chunk.length maxBytes'
    refine ⟨kept, hkept, fun key hkey => ?_⟩
    dsimp only at hkeys
    exact hkeys ▸ List.mem_append_left left hkey
  | some key =>
    obtain ⟨hless, hget⟩ := List.getElem?_eq_some_iff.1 hkey
    have hrange := (hadded.range key (List.mem_of_getElem? hkey)).2
    have hcount : coveredMutationCount chunk.length ⟨plan.keys, plan.columns, maxBytes⟩
        coveredKeys = key.mutationIndex := by
      simp only [coveredMutationCount, hkey]
      simp only [List.length_map] at hrange
      omega
    rw [hcount]
    constructor
    · -- the first key belongs to an earlier mutation
      have hpos := hcovered (List.ne_nil_of_length_pos (Nat.zero_lt_of_lt hless))
      have hascending := List.pairwise_iff_getElem.1 hadded.ascending 0 coveredKeys (by omega) hless
        hpos
      rw [hget] at hascending
      omega
    · intro _ maxBytes'
      obtain ⟨kept, left, hkept, hkeys, hbefore⟩ :=
        planPartialUpdateRecovery_take hplan key.mutationIndex maxBytes'
      dsimp only at hkeys
      have hfits : kept.keys.length ≤ coveredKeys := by
        by_contra hlong
        have hmem : key ∈ kept.keys := by
          rw [hkeys, List.getElem?_append_left (by omega)] at hkey
          exact List.mem_of_getElem? hkey
        exact absurd (hbefore key hmem) (lt_irrefl _)
      refine ⟨kept, hkept, fun other hother => ?_⟩
      rw [hkeys, List.take_append, List.take_of_length_le hfits]
      exact List.mem_append_left _ hother

lemma recoverChunk_eq_ok {round : Round} {covered : List PartialUpdateRecoveryKey} {count : Nat}
    (hne : chunk ≠ []) (h : recoverChunk table config chunk round = .ok (covered, count)) :
    0 < count ∧ Covers table covered (chunk.take count) := by
  unfold recoverChunk at h
  split_ifs at h with hcanonical
  · obtain ⟨request, hplan, h⟩ := Except.exists_of_bind_eq_ok h
    split_ifs at h with hempty
    · -- a request without columns has no keys
      cases h
      have hkeys : request.keys = [] := by
        obtain ⟨plan, -, rfl, hadded⟩ := planPartialUpdateRecovery_eq_ok hplan
        by_contra hkeys
        have hcolumns := (hadded.nonempty hkeys).ne_empty
        simp_all [PartialUpdateRecoveryRequest.isEmpty]
      have hspec := @coveredMutationCount_spec _ _ _ 0 _ hne hplan fun hkeys' => absurd hkeys hkeys'
      simpa [coveredMutationCount, hkeys] using hspec
    · obtain ⟨coveredKeys, hread, h⟩ := Except.exists_of_bind_eq_ok h
      cases h
      refine coveredMutationCount_spec hne hplan fun hkeys => ?_
      exact (recoverFrom_eq_ok hread).2 (List.length_pos_iff.2 hkeys)
  · cases h
    exact ⟨List.length_pos_iff.2 hne, fun hyes => absurd hyes hcanonical⟩

structure WritesInOrder (table : MutationTable) (config : DuckLakeStreamingBatchConfig)
    (mutations : List TrackedTableMutation) (outcome : CallOutcome) : Prop where
  nonempty : ∀ chunk ∈ outcome.applied, chunk.mutations ≠ []
  capped : ∀ chunk ∈ outcome.applied, Capped table config chunk.mutations
  covers : ∀ chunk ∈ outcome.applied, Covers table chunk.covered chunk.mutations
  inOrder : outcome.applied.flatMap (·.mutations) <+: mutations
  complete : outcome.result = .ok () → outcome.applied.flatMap (·.mutations) = mutations

lemma WritesInOrder.nothing : WritesInOrder table config [] ⟨[], .ok ()⟩ where
  nonempty := by simp
  capped := by simp
  covers := by simp
  inOrder := List.nil_prefix
  complete _ := rfl

lemma WritesInOrder.error {mutations : List TrackedTableMutation} (e : EtlError) :
    WritesInOrder table config mutations ⟨[], .error e⟩ where
  nonempty := by simp
  capped := by simp
  covers := by simp
  inOrder := List.nil_prefix
  complete h := nomatch h

lemma WritesInOrder.cons {mutations : List TrackedTableMutation} {outcome : CallOutcome}
    (h : WritesInOrder table config mutations outcome) (hne : chunk ≠ [])
    (hcapped : Capped table config chunk) {covered : List PartialUpdateRecoveryKey}
    (hcovers : Covers table covered chunk) :
    WritesInOrder table config (chunk ++ mutations)
      { outcome with applied := ⟨chunk, covered⟩ :: outcome.applied } where
  nonempty := List.forall_mem_cons.2 ⟨hne, h.nonempty⟩
  capped := List.forall_mem_cons.2 ⟨hcapped, h.capped⟩
  covers := List.forall_mem_cons.2 ⟨hcovers, h.covers⟩
  inOrder := by simpa using h.inOrder
  complete hok := by simpa using h.complete hok

def requeue (chunk : List TrackedTableMutation) (count : Nat)
    (pending : List (List TrackedTableMutation)) : List (List TrackedTableMutation) :=
  if count < chunk.length then chunk.drop count :: pending else pending

lemma flatten_requeue (chunk : List TrackedTableMutation) (count : Nat)
    (pending : List (List TrackedTableMutation)) :
    chunk.take count ++ (requeue chunk count pending).flatten = chunk ++ pending.flatten := by
  unfold requeue
  split_ifs with hless
  · rw [List.flatten_cons, ← List.append_assoc, List.take_append_drop]
  · rw [List.take_of_length_le (not_lt.1 hless)]

variable {pending : List (List TrackedTableMutation)}

lemma forall_mem_requeue (hcapped : Capped table config chunk)
    (hpending : ∀ chunk ∈ pending, chunk ≠ [] ∧ Capped table config chunk) (count : Nat) :
    ∀ part ∈ requeue chunk count pending, part ≠ [] ∧ Capped table config part := by
  unfold requeue
  split_ifs with hless
  · refine List.forall_mem_cons.2 ⟨⟨?_, hcapped.sublist (List.drop_sublist count chunk)⟩, hpending⟩
    exact List.ne_nil_of_length_pos (by simpa using hless)
  · exact hpending

variable {rounds : Nat → Round} {fuel : Nat}

lemma applyPending_cons {round count : Nat} {covered : List PartialUpdateRecoveryKey}
    (hread : recoverChunk table config chunk (rounds round) = .ok (covered, count))
    (hkept : chunk.take count ≠ []) :
    applyPending table config rounds (fuel + 1) round (chunk :: pending) =
      match (rounds round).written with
      | .error e => some ⟨[], .error e⟩
      | .ok () =>
        (applyPending table config rounds fuel (round + 1) (requeue chunk count pending)).map
          fun outcome =>
            { outcome with applied := ⟨chunk.take count, covered⟩ :: outcome.applied } := by
  rw [applyPending, hread]
  simp only [List.isEmpty_iff, hkept, if_false]
  rfl

lemma applyPending_spec {rounds : Nat → Round} {fuel round : Nat}
    {pending : List (List TrackedTableMutation)}
    (hpending : ∀ chunk ∈ pending, chunk ≠ [] ∧ Capped table config chunk)
    (hfuel : pending.flatten.length ≤ fuel) :
    ∃ outcome, applyPending table config rounds fuel round pending = some outcome ∧
      WritesInOrder table config pending.flatten outcome := by
  induction fuel generalizing round pending with
  | zero =>
    cases pending with
    | nil => exact ⟨⟨[], .ok ()⟩, by simp [applyPending], .nothing⟩
    | cons chunk pending =>
      have hpos := List.length_pos_iff.2 (hpending chunk List.mem_cons_self).1
      rw [List.flatten_cons, List.length_append] at hfuel
      omega
  | succ fuel ih =>
    cases pending with
    | nil => exact ⟨⟨[], .ok ()⟩, by simp [applyPending], .nothing⟩
    | cons chunk pending =>
      obtain ⟨⟨hne, hcapped⟩, hrest⟩ := List.forall_mem_cons.1 hpending
      cases hread : recoverChunk table config chunk (rounds round) with
      | error e => exact ⟨⟨[], .error e⟩, by rw [applyPending, hread], .error e⟩
      | ok result =>
        obtain ⟨covered, count⟩ := result
        obtain ⟨hcount, hcovers⟩ := recoverChunk_eq_ok hne hread
        have hkept : chunk.take count ≠ [] := by simp [hne]; omega
        rw [applyPending_cons hread hkept]
        cases (rounds round).written with
        | error e => exact ⟨⟨[], .error e⟩, rfl, .error e⟩
        | ok _ =>
          have hflatten := flatten_requeue chunk count pending
          -- a mutation was written, so fewer are pending
          have hless : (requeue chunk count pending).flatten.length ≤ fuel := by
            have hlength := congrArg List.length hflatten
            have hpos := List.length_pos_iff.2 hkept
            rw [List.flatten_cons] at hfuel
            simp only [List.length_append] at hlength hfuel
            omega
          obtain ⟨outcome, hrun, hwrites⟩ :=
            @ih (round + 1) _ (forall_mem_requeue hcapped hrest count) hless
          refine ⟨_, by rw [hrun]; rfl, ?_⟩
          rw [List.flatten_cons, ← hflatten]
          exact hwrites.cons hkept (hcapped.sublist (List.take_sublist count chunk)) hcovers

lemma applyPending_mono {fuel' round : Nat} {outcome : CallOutcome}
    (h : applyPending table config rounds fuel round pending = some outcome) (hle : fuel ≤ fuel') :
    applyPending table config rounds fuel' round pending = some outcome := by
  induction fuel generalizing fuel' round pending outcome with
  | zero =>
    cases pending with
    | nil => simpa [applyPending] using h
    | cons chunk pending => simp [applyPending] at h
  | succ fuel ih =>
    obtain ⟨fuel', rfl⟩ : ∃ n, fuel' = n + 1 := ⟨fuel' - 1, by omega⟩
    cases pending with
    | nil => simpa [applyPending] using h
    | cons chunk pending =>
      cases hread : recoverChunk table config chunk (rounds round) with
      | error e =>
        rw [applyPending, hread] at h ⊢
        exact h
      | ok result =>
        obtain ⟨covered, count⟩ := result
        by_cases hkept : chunk.take count = []
        · rw [applyPending, hread] at h ⊢
          simp only [hkept, List.isEmpty_nil, if_true] at h ⊢
          exact ih h (by omega)
        · rw [applyPending_cons hread hkept] at h ⊢
          cases hwritten : (rounds round).written with
          | error e => simpa only [hwritten] using h
          | ok _ =>
            simp only [hwritten, Option.map_eq_some_iff] at h ⊢
            obtain ⟨rest, hrest, houtcome⟩ := h
            exact ⟨rest, ih hrest (by omega), houtcome⟩

/-! ## Calls without failures -/

lemma RecoveryPlan.exists_visit_eq_ok
    (hpredicates : ∀ row, ∃ predicate, table.deletePredicateFromRow row = .ok predicate)
    (plan : RecoveryPlan) (entry : TableMutation × Nat) :
    ∃ plan', plan.visit table entry = .ok plan' := by
  obtain ⟨mutation, index⟩ := entry
  cases mutation with
  | insert row => exact ⟨_, rfl⟩
  | delete row =>
    obtain ⟨predicate, hpredicate⟩ := hpredicates row
    simp [visit, hpredicate, bind, Except.bind, pure, Except.pure]
  | replace row =>
    obtain ⟨predicate, hpredicate⟩ := hpredicates (.full row)
    simp [visit, hpredicate, bind, Except.bind, pure, Except.pure]
  | update deleteRow newRow =>
    obtain ⟨predicate, hpredicate⟩ := hpredicates deleteRow
    cases newRow with
    | full row => simp [visit, hpredicate, bind, Except.bind, pure, Except.pure]
    | partialRow totalColumns row missingColumnIndexes =>
      simp only [visit, hpredicate, bind, Except.bind, pure, Except.pure]
      split_ifs <;> exact ⟨_, rfl⟩

lemma exists_recoverChunk_eq_ok {round : Round}
    (hstatements : ∀ i, ∃ statement, round.statements i = .ok statement)
    (hpredicates : ∀ row, ∃ predicate, table.deletePredicateFromRow row = .ok predicate)
    (chunk : List TrackedTableMutation) :
    ∃ result, recoverChunk table config chunk round = .ok result := by
  have hplan : ∀ (entries : List (TableMutation × Nat)) (plan : RecoveryPlan),
      ∃ plan', entries.foldlM (RecoveryPlan.visit table) plan = .ok plan' := by
    intro entries
    induction entries with
    | nil => exact fun plan => ⟨plan, rfl⟩
    | cons entry entries ih =>
      intro plan
      obtain ⟨middle, hmiddle⟩ := plan.exists_visit_eq_ok hpredicates entry
      obtain ⟨plan', hplan'⟩ := ih middle
      exact ⟨plan', by rw [List.foldlM_cons, hmiddle]; exact hplan'⟩
  unfold recoverChunk
  split_ifs with hcanonical
  · obtain ⟨plan, hplan⟩ := hplan (chunk.map (·.mutation)).zipIdx ⟨[], ∅, ∅⟩
    obtain ⟨coveredKeys, hread⟩ := @recoverFrom_ok
      ⟨plan.keys, plan.columns, recoveryByteBudget table config chunk⟩ _ hstatements 0 0 0
    simp only [planPartialUpdateRecovery, hplan, recoverPartialUpdateRows, bind, Except.bind, pure,
      Except.pure, hread]
    split_ifs <;> exact ⟨_, rfl⟩
  · exact ⟨_, rfl⟩

lemma applyPending_result_ok {round : Nat} {outcome : CallOutcome}
    (hrounds : ∀ i, (rounds i).written = .ok () ∧
      ∀ j, ∃ statement, (rounds i).statements j = .ok statement)
    (hpredicates : ∀ row, ∃ predicate, table.deletePredicateFromRow row = .ok predicate)
    (h : applyPending table config rounds fuel round pending = some outcome) :
    outcome.result = .ok () := by
  induction fuel generalizing round pending outcome with
  | zero =>
    cases pending with
    | nil =>
      rw [applyPending, Option.some.injEq] at h
      rw [← h]
    | cons chunk pending => simp [applyPending] at h
  | succ fuel ih =>
    cases pending with
    | nil =>
      rw [applyPending, Option.some.injEq] at h
      rw [← h]
    | cons chunk pending =>
      obtain ⟨hwritten, hstatements⟩ := hrounds round
      obtain ⟨⟨covered, count⟩, hread⟩ :=
        @exists_recoverChunk_eq_ok table config (rounds round) hstatements hpredicates chunk
      by_cases hkept : chunk.take count = []
      · rw [applyPending, hread] at h
        simp only [hkept, List.isEmpty_nil, if_true] at h
        exact ih h
      · rw [applyPending_cons hread hkept] at h
        simp only [hwritten, Option.map_eq_some_iff] at h
        obtain ⟨rest, hrest, rfl⟩ := h
        have hok := ih hrest
        exact hok

/-- A call ends after at most as many rounds as it has mutations. The batches it applies are not
empty, they are the mutations in their order, all of them if the call succeeds, and a batch of more
than one mutation keeps to the caps on rows, bytes and recovery keys. Every key a plan of its
mutations asks for was covered by the read of the batch. A call in which no step fails succeeds. -/
theorem prepareAndApply_covers (table : MutationTable) (config : DuckLakeStreamingBatchConfig)
    (rounds : Nat → Round) (mutations : List TrackedTableMutation) :
    ∃ outcome,
      (∀ fuel, mutations.length ≤ fuel →
        prepareAndApplyMutationTableBatches table config rounds fuel mutations = some outcome) ∧
      (∀ chunk ∈ outcome.applied, chunk.mutations ≠ [] ∧
        Covers table chunk.covered chunk.mutations ∧
        (1 < chunk.mutations.length → chunk.mutations.length ≤ config.maxRows ∧
          chunkBytes table chunk.mutations ≤ config.maxBytes ∧
          chunkRecoveryKeys chunk.mutations ≤ maxPartialUpdateKeysPerBatch)) ∧
      outcome.applied.flatMap (·.mutations) <+: mutations ∧
      (outcome.result = .ok () → outcome.applied.flatMap (·.mutations) = mutations) ∧
      ((∀ i, (rounds i).written = .ok () ∧
          ∀ j, ∃ statement, (rounds i).statements j = .ok statement) →
        (∀ row, ∃ predicate, table.deletePredicateFromRow row = .ok predicate) →
        outcome.result = .ok ()) := by
  obtain ⟨hflatten, hchunks⟩ := @splitTrackedMutations_spec table config mutations
  obtain ⟨outcome, hrun, hwrites⟩ := @applyPending_spec table config rounds mutations.length 0 _
    hchunks (by rw [hflatten])
  rw [hflatten] at hwrites
  refine ⟨outcome, fun fuel hfuel => applyPending_mono hrun hfuel, fun chunk hchunk => ?_,
    hwrites.inOrder, hwrites.complete, fun hrounds hpredicates => ?_⟩
  · have hcapped := hwrites.capped chunk hchunk
    exact ⟨hwrites.nonempty chunk hchunk, hwrites.covers chunk hchunk, fun hlength =>
      ⟨hcapped.rows, hcapped.bytes hlength, hcapped.recoveryKeys⟩⟩
  · exact applyPending_result_ok hrounds hpredicates hrun

end Loop

end Etl.DuckLake
