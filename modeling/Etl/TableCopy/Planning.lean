import Mathlib
import Etl.Error
import Etl.Postgres.Schema

/-!
# Planning a table copy

Every physical table gets a number of ranges of tuple ids by its share of rows or blocks. Arithmetic
is checked. `planTableCopyPartitions_spec`: nothing panics, and every tuple lies in exactly one
range.
-/

namespace Etl

/-! ## Checked arithmetic -/

def u16 (n : Nat) : Option UInt16 := if n < 2 ^ 16 then some (UInt16.ofNat n) else none

def u64 (n : Nat) : Option Nat := if n < 2 ^ 64 then some n else none

def u128 (n : Nat) : Option Nat := if n < 2 ^ 128 then some n else none

def checkedSub (a b : Nat) : Option Nat := if b ≤ a then some (a - b) else none

def checkedDiv (a b : Nat) : Option Nat := if b = 0 then none else some (a / b)

variable {n : Nat}

lemma u16_of_lt (h : n < 2 ^ 16) : u16 n = some (UInt16.ofNat n) := if_pos h

lemma u64_of_lt (h : n < 2 ^ 64) : u64 n = some n := if_pos h

lemma u128_of_lt (h : n < 2 ^ 128) : u128 n = some n := if_pos h

lemma checkedSub_of_le {a b : Nat} (h : b ≤ a) : checkedSub a b = some (a - b) := if_pos h

lemma checkedDiv_of_pos {a b : Nat} (h : 0 < b) : checkedDiv a b = some (a / b) :=
  if_neg h.ne'

/-! ## Ranges of tuple ids -/

structure Tid where
  block : Nat
  offset : Nat
deriving DecidableEq

def Tid.isBefore (a b : Tid) : Bool :=
  a.block < b.block || a.block = b.block && a.offset < b.offset

def Tid.startOf (block : Nat) : Tid := ⟨block, 1⟩

inductive CtidPartition where
  | openStart (endTid : Tid)
  | closed (startTid endTid : Tid)
  | openEnd (startTid : Tid)
deriving DecidableEq

/-- The condition `build_ctid_copy_query` puts on `ctid`. -/
def CtidPartition.selects (partition : CtidPartition) (ctid : Tid) : Bool :=
  match partition with
  | .openStart endTid => ctid.isBefore endTid
  | .closed startTid endTid => !ctid.isBefore startTid && ctid.isBefore endTid
  | .openEnd startTid => !ctid.isBefore startTid

structure PlannedCtidPartition where
  ctidPartition : CtidPartition
  plannedBlocks : Nat
deriving DecidableEq

def ctidPartitionBlockRange (partitionIndex tableBlocks effectivePartitions : Nat) :
    Option (Nat × Nat) := do
  let startProduct ← u64 (partitionIndex * tableBlocks)
  let nextIndex ← u64 (partitionIndex + 1)
  let endProduct ← u64 (nextIndex * tableBlocks)
  let startBlock ← checkedDiv startProduct effectivePartitions
  let endBlockExclusive ← checkedDiv endProduct effectivePartitions
  return (startBlock, endBlockExclusive)

def planCtidPartition (tableBlocks effectivePartitions i : Nat) : Option PlannedCtidPartition := do
  let (startBlock, endBlockExclusive) ← ctidPartitionBlockRange i tableBlocks effectivePartitions
  let plannedBlocks ← checkedSub endBlockExclusive startBlock
  let lastPartition ← checkedSub effectivePartitions 1
  let ctidPartition :=
    if effectivePartitions = 1 then .openEnd (.startOf 0)
    else if i = 0 then .openStart (.startOf endBlockExclusive)
    else if i = lastPartition then .openEnd (.startOf startBlock)
    else .closed (.startOf startBlock) (.startOf endBlockExclusive)
  return ⟨ctidPartition, plannedBlocks⟩

def planCtidPartitionsForTableBlocks (tableBlocks : UInt64) (numPartitions : UInt16) :
    Option (Except EtlError (List PlannedCtidPartition)) :=
  if numPartitions = 0 then
    some (.error ⟨.configError, "Number of ctid partitions must be greater than zero"⟩)
  else if tableBlocks = 0 then some (.ok [])
  else
    let effectivePartitions := min numPartitions.toNat tableBlocks.toNat
    ((List.range effectivePartitions).mapM
      (planCtidPartition tableBlocks.toNat effectivePartitions)).map .ok

/-! ## Shares of the tables -/

structure TableCopyPlanningEstimate where
  tableBlocks : UInt64
  estimatedRows : UInt64
deriving DecidableEq

namespace TableCopyPlanningEstimate

def isEmpty (estimate : TableCopyPlanningEstimate) : Bool := estimate.tableBlocks = 0

def partitionWeight (estimate : TableCopyPlanningEstimate) (useEstimatedRows : Bool) : UInt64 :=
  if useEstimatedRows then estimate.estimatedRows else estimate.tableBlocks

end TableCopyPlanningEstimate

def ctidPartitionsPerCopyWorker : Nat := 4

def ctidCopyRowsPerPartition : Nat := 250000

def maxCtidCopyPartitions : Nat := 1024

def divCeilU128 (numerator denominator : Nat) : Option Nat := do
  let quotient ← checkedDiv numerator denominator
  let remainder := numerator % denominator
  u128 (quotient + if 0 < remainder then 1 else 0)

def ctidRowTarget (totalEstimatedRows : Option Nat) : Option UInt16 :=
  match totalEstimatedRows.filter (0 < ·) with
  | none => some 1
  | some estimatedRows => do
    let rowTarget ← divCeilU128 estimatedRows ctidCopyRowsPerPartition
    u16 (max (min rowTarget (2 ^ 16 - 1)) 1)

def targetCtidPartitionCount (maxCopyConnections : UInt16) (totalEstimatedRows : Option Nat) :
    Option UInt16 :=
  if maxCopyConnections = 1 then some 1
  else do
    let workerTarget :=
      max (min (maxCopyConnections.toNat * ctidPartitionsPerCopyWorker) (2 ^ 16 - 1)) 1
    let rowTarget ← ctidRowTarget totalEstimatedRows
    u16 (min (max (max workerTarget rowTarget.toNat) 1) maxCtidCopyPartitions)

def partitionsForTableWeight (partitionWeight : UInt64) (totalWeight : Nat) (blockCount : UInt64)
    (targetPartitions : UInt16) : Option UInt16 := do
  let share ← u128 (partitionWeight.toNat * targetPartitions.toNat)
  let weightedPartitions ← divCeilU128 share totalWeight
  u16 (max (min (min weightedPartitions blockCount.toNat) (2 ^ 16 - 1)) 1)

structure TableCopyPartition where
  sourceTableId : TableId
  filterTableId : TableId
  ctidPartition : CtidPartition
  plannedBlocks : Nat
deriving DecidableEq

def sumWeights (weights : List UInt64) : Option Nat :=
  weights.foldlM (fun sum weight => u128 (sum + weight.toNat)) 0

def sumEstimatedRows (useEstimatedRows : Bool)
    (tableEstimates : List (TableId × TableCopyPlanningEstimate)) : Option (Option Nat) :=
  if useEstimatedRows then (sumWeights (tableEstimates.map (·.2.partitionWeight true))).map some
  else some none

def planTable (tableId : TableId) (useEstimatedRows : Bool) (totalWeight : Nat)
    (targetPartitions : UInt16) (source : TableId × TableCopyPlanningEstimate) :
    Option (Except EtlError (List TableCopyPartition)) := do
  let count ← partitionsForTableWeight (source.2.partitionWeight useEstimatedRows) totalWeight
    source.2.tableBlocks targetPartitions
  let planned ← planCtidPartitionsForTableBlocks source.2.tableBlocks count
  return planned.map (·.map fun p => ⟨source.1, tableId, p.ctidPartition, p.plannedBlocks⟩)

def planTables (plan : TableId × TableCopyPlanningEstimate →
      Option (Except EtlError (List TableCopyPartition))) :
    List (TableId × TableCopyPlanningEstimate) → Option (Except EtlError (List TableCopyPartition))
  | [] => some (.ok [])
  | source :: rest => do
    match ← plan source with
    | .error e => return .error e
    | .ok partitions =>
      return (← planTables plan rest).map (partitions ++ ·)

def planTableCopyPartitions (tableId : TableId)
    (sourceTables : List (TableId × TableCopyPlanningEstimate)) (maxCopyConnections : UInt16) :
    Option (Except EtlError (List TableCopyPartition)) := do
  let tableEstimates := sourceTables.filter fun source => !source.2.isEmpty
  if tableEstimates.isEmpty then return .ok []
  let useEstimatedRows := tableEstimates.all fun source => 0 < source.2.estimatedRows
  let totalEstimatedRows ← sumEstimatedRows useEstimatedRows tableEstimates
  let targetPartitions ← targetCtidPartitionCount maxCopyConnections totalEstimatedRows
  let totalWeight ← sumWeights (tableEstimates.map (·.2.partitionWeight useEstimatedRows))
  let planned ← planTables (planTable tableId useEstimatedRows totalWeight targetPartitions)
    tableEstimates
  -- larger ranges first
  return planned.map fun copyPartitions =>
    copyPartitions.insertionSort fun a b => b.plannedBlocks ≤ a.plannedBlocks

/-! ## Every tuple lies in one range -/

section Ranges

lemma countP_range_eq_one {k : Nat → Nat} (hk : Monotone k) {n : Nat} (hn : 0 < n) (b : Nat)
    {p : Nat → Bool}
    (hp : ∀ i < n, p i ↔ (i = 0 ∨ k i ≤ b) ∧ (i + 1 = n ∨ b < k (i + 1))) :
    (List.range n).countP p = 1 := by
  have hexists : ∃ i < n, (i = 0 ∨ k i ≤ b) ∧ (i + 1 = n ∨ b < k (i + 1)) := by
    clear hp
    induction n, hn using Nat.le_induction with
    | base => exact ⟨0, by omega, .inl rfl, .inl rfl⟩
    | succ n hn ih =>
      obtain ⟨i, hi, hlow, hhigh⟩ := ih
      by_cases hb : b < k (i + 1)
      · exact ⟨i, by omega, hlow, .inr hb⟩
      · obtain rfl : i + 1 = n := hhigh.resolve_right hb
        exact ⟨i + 1, by omega, .inr (by omega), .inl rfl⟩
  obtain ⟨i, hi, hlow, hhigh⟩ := hexists
  have hunique : ∀ j < n, p j ↔ j = i := by
    intro j hj
    rw [hp j hj]
    constructor
    · rintro ⟨hlow', hhigh'⟩
      -- two ranges that both contain the number would overlap
      rcases lt_trichotomy j i with hlt | heq | hlt
      · have := hk (show j + 1 ≤ i by omega)
        omega
      · exact heq
      · have := hk (show i + 1 ≤ j by omega)
        omega
    · rintro rfl
      exact ⟨hlow, hhigh⟩
  have hcongr : (List.range n).countP p = (List.range n).countP (· == i) :=
    List.countP_congr fun j hj => by
      rw [hunique j (List.mem_range.1 hj), beq_iff_eq]
  rw [hcongr]
  exact List.count_eq_one_of_mem List.nodup_range (List.mem_range.2 hi)

variable {blocks n i : Nat} {ctid : Tid}

lemma monotone_boundary (blocks n : Nat) : Monotone fun i => i * blocks / n := fun _ _ h =>
  Nat.div_le_div_right (Nat.mul_le_mul_right blocks h)

def proportionalRange (blocks n i : Nat) : PlannedCtidPartition :=
  ⟨if n = 1 then .openEnd (.startOf 0)
    else if i = 0 then .openStart (.startOf ((i + 1) * blocks / n))
    else if i = n - 1 then .openEnd (.startOf (i * blocks / n))
    else .closed (.startOf (i * blocks / n)) (.startOf ((i + 1) * blocks / n)),
    (i + 1) * blocks / n - i * blocks / n⟩

lemma planCtidPartition_eq (hblocks : blocks < 2 ^ 32) (hn : n < 2 ^ 16) (hi : i < n) :
    planCtidPartition blocks n i = some (proportionalRange blocks n i) := by
  have hproduct : ∀ j ≤ n, j * blocks < 2 ^ 64 := fun j hj => by
    have := Nat.mul_le_mul (show j ≤ 2 ^ 16 by omega) hblocks.le
    omega
  have hmono : i * blocks / n ≤ (i + 1) * blocks / n := monotone_boundary blocks n (Nat.le_succ i)
  have hstart := u64_of_lt (hproduct i hi.le)
  have hnext := u64_of_lt (show i + 1 < 2 ^ 64 by omega)
  have hend := u64_of_lt (hproduct (i + 1) hi)
  simp [planCtidPartition, ctidPartitionBlockRange, hstart, hnext, hend, checkedSub_of_le hmono,
    checkedDiv_of_pos (show 0 < n by omega),
    checkedSub_of_le (show 1 ≤ n by omega), proportionalRange]

lemma isBefore_startOf (hoffset : 1 ≤ ctid.offset) (block : Nat) :
    ctid.isBefore (.startOf block) ↔ ctid.block < block := by
  simp only [Tid.isBefore, Bool.or_eq_true, Bool.and_eq_true, decide_eq_true_eq]
  simp only [Tid.startOf]
  omega

lemma selects_proportionalRange (hoffset : 1 ≤ ctid.offset) (hi : i < n) :
    (proportionalRange blocks n i).ctidPartition.selects ctid ↔
      (i = 0 ∨ i * blocks / n ≤ ctid.block) ∧
        (i + 1 = n ∨ ctid.block < (i + 1) * blocks / n) := by
  have hbefore := isBefore_startOf hoffset
  simp only [proportionalRange]
  split_ifs with hone hfirst hlast
  · simp [CtidPartition.selects, ← Bool.not_eq_true, hbefore]
    omega
  · simp only [CtidPartition.selects, hbefore]
    omega
  · simp only [CtidPartition.selects, Bool.not_eq_true', ← Bool.not_eq_true, hbefore]
    omega
  · simp only [CtidPartition.selects, Bool.and_eq_true, Bool.not_eq_true', ← Bool.not_eq_true,
      hbefore]
    omega

lemma exists_selects_proportionalRange (hn : n ≤ blocks) (hi : i < n) :
    ∃ ctid : Tid, 1 ≤ ctid.offset ∧
      (proportionalRange blocks n i).ctidPartition.selects ctid := by
  have hstrict : i * blocks / n < (i + 1) * blocks / n := by
    have hnext : i * blocks / n + 1 = (i * blocks + n) / n := (Nat.add_div_right _ (by omega)).symm
    have hle : (i * blocks + n) / n ≤ (i + 1) * blocks / n :=
      Nat.div_le_div_right (by rw [Nat.succ_mul]; omega)
    omega
  refine ⟨⟨i * blocks / n, 1⟩, le_rfl, (selects_proportionalRange le_rfl hi).2 ⟨.inr le_rfl, ?_⟩⟩
  exact .inr hstrict

/-- No more ranges than blocks, none empty, and every tuple lies in one, also beyond the blocks that
were counted. -/
lemma planCtidPartitionsForTableBlocks_spec {tableBlocks : UInt64} {numPartitions : UInt16}
    (hblocks : tableBlocks.toNat < 2 ^ 32) (hsome : tableBlocks ≠ 0) (hnum : numPartitions ≠ 0) :
    ∃ planned, planCtidPartitionsForTableBlocks tableBlocks numPartitions = some (.ok planned) ∧
      planned.length = min numPartitions.toNat tableBlocks.toNat ∧
      (∀ p ∈ planned, ∃ ctid : Tid, 1 ≤ ctid.offset ∧ p.ctidPartition.selects ctid) ∧
      ∀ ctid : Tid, 1 ≤ ctid.offset →
        planned.countP (fun p => p.ctidPartition.selects ctid) = 1 := by
  set blocks := tableBlocks.toNat
  set n := min numPartitions.toNat blocks
  have hblocksPos : 0 < blocks := Nat.pos_of_ne_zero fun h => hsome (UInt64.toNat_inj.1 h)
  have hnumPos : 0 < numPartitions.toNat :=
    Nat.pos_of_ne_zero fun h => hnum (UInt16.toNat_inj.1 h)
  have hn16 : n < 2 ^ 16 := lt_of_le_of_lt (min_le_left _ _) numPartitions.toNat_lt
  have hnPos : 0 < n := lt_min hnumPos hblocksPos
  have hall : (List.range n).mapM (planCtidPartition blocks n) =
      some ((List.range n).map (proportionalRange blocks n)) :=
    Option.mapM_eq_some_map fun i hi => planCtidPartition_eq hblocks hn16 (List.mem_range.1 hi)
  refine ⟨(List.range n).map (proportionalRange blocks n), ?_, by simp, fun p hp => ?_,
    fun ctid hoffset => ?_⟩
  · simp only [planCtidPartitionsForTableBlocks, hnum, hsome, if_false]
    exact congrArg (Option.map Except.ok) hall
  · obtain ⟨i, hi, rfl⟩ := List.mem_map.1 hp
    exact exists_selects_proportionalRange (min_le_right _ _) (List.mem_range.1 hi)
  · rw [List.countP_map]
    exact countP_range_eq_one (monotone_boundary blocks n) hnPos ctid.block fun i hi =>
      selects_proportionalRange hoffset hi

end Ranges

/-! ## The shares fit -/

section Shares

lemma sumWeights_eq {weights : List UInt64} (hlength : weights.length ≤ 2 ^ 32) :
    sumWeights weights = some (weights.map (·.toNat)).sum := by
  have hfold : ∀ (weights : List UInt64) (sum : Nat), sum + weights.length * 2 ^ 64 < 2 ^ 128 →
      weights.foldlM (fun sum weight => u128 (sum + weight.toNat)) sum =
        some (sum + (weights.map (·.toNat)).sum) := by
    intro weights
    induction weights with
    | nil => intro sum _; rfl
    | cons weight weights ih =>
      intro sum hsum
      have hweight := weight.toNat_lt
      rw [List.length_cons] at hsum
      rw [List.foldlM_cons, u128_of_lt (by omega)]
      refine (ih _ (by omega)).trans ?_
      simp [Nat.add_assoc]
  rw [sumWeights, hfold weights 0 (by omega), Nat.zero_add]

lemma sum_toNat_lt {weights : List UInt64} (hlength : weights.length ≤ 2 ^ 32) :
    (weights.map (·.toNat)).sum < 2 ^ 127 := by
  have hle := List.sum_le_card_nsmul (weights.map (·.toNat)) (2 ^ 64) fun n hn => by
    obtain ⟨weight, -, rfl⟩ := List.mem_map.1 hn
    exact weight.toNat_lt.le
  simp only [List.length_map, smul_eq_mul] at hle
  omega

lemma exists_divCeilU128_eq {numerator denominator : Nat} (hnumerator : numerator < 2 ^ 127)
    (hdenominator : 0 < denominator) :
    ∃ quotient, divCeilU128 numerator denominator = some quotient := by
  have hquotient : numerator / denominator ≤ numerator := Nat.div_le_self ..
  rw [divCeilU128, checkedDiv_of_pos hdenominator]
  exact ⟨_, u128_of_lt (by split <;> omega)⟩

lemma exists_u16_eq {n : Nat} (hlow : 0 < n) (hhigh : n < 2 ^ 16) :
    ∃ count : UInt16, u16 n = some count ∧ count ≠ 0 := by
  refine ⟨UInt16.ofNat n, u16_of_lt hhigh, fun hzero => ?_⟩
  have hnat := congrArg UInt16.toNat hzero
  rw [UInt16.toNat_ofNat_of_lt' hhigh] at hnat
  exact hlow.ne' hnat

lemma exists_ctidRowTarget_eq {total : Option Nat} (htotal : ∀ n ∈ total, n < 2 ^ 127) :
    ∃ target, ctidRowTarget total = some target := by
  unfold ctidRowTarget
  split
  · exact ⟨1, rfl⟩
  · rename_i rows hrows
    have hmem : rows ∈ total := (Option.filter_eq_some_iff.1 hrows).1
    obtain ⟨quotient, hquotient⟩ := exists_divCeilU128_eq (htotal rows hmem)
      (show 0 < ctidCopyRowsPerPartition by decide)
    refine ⟨UInt16.ofNat (max (min quotient (2 ^ 16 - 1)) 1), ?_⟩
    simp only [hquotient, Option.bind_eq_bind, Option.bind_some]
    exact u16_of_lt (by omega)

lemma exists_targetCtidPartitionCount_eq (maxCopyConnections : UInt16) {total : Option Nat}
    (htotal : ∀ n ∈ total, n < 2 ^ 127) :
    ∃ target, targetCtidPartitionCount maxCopyConnections total = some target := by
  unfold targetCtidPartitionCount
  split
  · exact ⟨1, rfl⟩
  · obtain ⟨rowTarget, hrowTarget⟩ := exists_ctidRowTarget_eq htotal
    simp only [hrowTarget, Option.bind_eq_bind, Option.bind_some]
    exact ⟨_, u16_of_lt (lt_of_le_of_lt (min_le_right _ _) (by decide))⟩

lemma partitionsForTableWeight_spec (weight : UInt64) {totalWeight : Nat}
    (htotal : 0 < totalWeight) (blockCount : UInt64) (target : UInt16) :
    ∃ count, partitionsForTableWeight weight totalWeight blockCount target = some count ∧
      count ≠ 0 := by
  have hproduct : weight.toNat * target.toNat < 2 ^ 127 := by
    have := Nat.mul_le_mul weight.toNat_lt.le target.toNat_lt.le
    omega
  obtain ⟨quotient, hquotient⟩ := exists_divCeilU128_eq hproduct htotal
  rw [partitionsForTableWeight, u128_of_lt (by omega), Option.bind_eq_bind, Option.bind_some,
    hquotient, Option.bind_some]
  exact exists_u16_eq (by omega) (by omega)

variable {tableId : TableId} {useEstimatedRows : Bool} {totalWeight : Nat} {target : UInt16}

structure CoversTable (tableId : TableId) (source : TableId × TableCopyPlanningEstimate)
    (partitions : List TableCopyPartition) : Prop where
  ids : ∀ p ∈ partitions, p.sourceTableId = source.1 ∧ p.filterTableId = tableId
  nonempty : 1 ≤ partitions.length
  bounded : partitions.length ≤ source.2.tableBlocks.toNat
  inhabited : ∀ p ∈ partitions, ∃ ctid : Tid, 1 ≤ ctid.offset ∧ p.ctidPartition.selects ctid
  once : ∀ ctid : Tid, 1 ≤ ctid.offset →
    partitions.countP (fun p => p.ctidPartition.selects ctid) = 1

lemma CoversTable.of_perm {source : TableId × TableCopyPlanningEstimate}
    {partitions partitions' : List TableCopyPartition} (h : CoversTable tableId source partitions)
    (hperm : partitions.Perm partitions') : CoversTable tableId source partitions' where
  ids p hp := h.ids p (hperm.mem_iff.2 hp)
  nonempty := hperm.length_eq ▸ h.nonempty
  bounded := hperm.length_eq ▸ h.bounded
  inhabited p hp := h.inhabited p (hperm.mem_iff.2 hp)
  once ctid hoffset := (hperm.countP_eq _).symm.trans (h.once ctid hoffset)

lemma exists_planTable_eq (htotal : 0 < totalWeight) (target : UInt16)
    {source : TableId × TableCopyPlanningEstimate} (hempty : source.2.isEmpty = false)
    (hblocks : source.2.tableBlocks.toNat < 2 ^ 32) :
    ∃ partitions, planTable tableId useEstimatedRows totalWeight target source =
      some (.ok partitions) ∧ CoversTable tableId source partitions := by
  obtain ⟨count, hcount, hne⟩ := partitionsForTableWeight_spec
    (source.2.partitionWeight useEstimatedRows) htotal source.2.tableBlocks target
  have hsome : source.2.tableBlocks ≠ 0 := by
    simpa [TableCopyPlanningEstimate.isEmpty] using hempty
  obtain ⟨planned, hplanned, hlength, hinhabited, honce⟩ :=
    planCtidPartitionsForTableBlocks_spec hblocks hsome hne
  have hcountPos : 0 < count.toNat := Nat.pos_of_ne_zero fun h => hne (UInt16.toNat_inj.1 h)
  have hblocksPos : 0 < source.2.tableBlocks.toNat :=
    Nat.pos_of_ne_zero fun h => hsome (UInt64.toNat_inj.1 h)
  refine ⟨_, by rw [planTable, hcount]; exact congrArg (Option.bind · _) hplanned, ?_⟩
  constructor
  case ids =>
    intro p hp
    obtain ⟨q, -, rfl⟩ := List.mem_map.1 hp
    exact ⟨rfl, rfl⟩
  case nonempty =>
    rw [List.length_map]
    omega
  case bounded =>
    rw [List.length_map]
    omega
  case inhabited =>
    intro p hp
    obtain ⟨q, hq, rfl⟩ := List.mem_map.1 hp
    exact hinhabited q hq
  case once =>
    intro ctid hoffset
    rw [List.countP_map]
    exact honce ctid hoffset

lemma planTables_eq {plan : TableId × TableCopyPlanningEstimate →
      Option (Except EtlError (List TableCopyPartition))}
    {partsOf : TableId × TableCopyPlanningEstimate → List TableCopyPartition}
    {sources : List (TableId × TableCopyPlanningEstimate)}
    (h : ∀ source ∈ sources, plan source = some (.ok (partsOf source))) :
    planTables plan sources = some (.ok (sources.flatMap partsOf)) := by
  induction sources with
  | nil => rfl
  | cons source sources ih =>
    rw [planTables, h source List.mem_cons_self, ih fun s hs => h s (List.mem_cons_of_mem _ hs)]
    rfl

end Shares

variable {sources : List (TableId × TableCopyPlanningEstimate)}

lemma filter_flatMap_eq {partsOf : TableId × TableCopyPlanningEstimate → List TableCopyPartition}
    (hids : (sources.map (·.1)).Nodup)
    (hparts : ∀ source ∈ sources, ∀ p ∈ partsOf source, p.sourceTableId = source.1)
    {source : TableId × TableCopyPlanningEstimate} (hsource : source ∈ sources) :
    (sources.flatMap partsOf).filter (fun p => p.sourceTableId = source.1) = partsOf source := by
  induction sources with
  | nil => cases hsource
  | cons other sources ih =>
    obtain ⟨hother, hrest⟩ := List.nodup_cons.1 hids
    have hrestParts : ∀ s ∈ sources, ∀ p ∈ partsOf s, p.sourceTableId = s.1 := fun s hs =>
      hparts s (List.mem_cons_of_mem _ hs)
    rw [List.flatMap_cons, List.filter_append]
    rcases List.mem_cons.1 hsource with rfl | hmem
    · have hself : (partsOf source).filter (fun p => p.sourceTableId = source.1) = partsOf source :=
        List.filter_eq_self.2 fun p hp => by simpa using hparts source List.mem_cons_self p hp
      have hnone : (sources.flatMap partsOf).filter (fun p => p.sourceTableId = source.1) = [] := by
        refine List.filter_eq_nil_iff.2 fun p hp heq => ?_
        obtain ⟨s, hs, hp⟩ := List.mem_flatMap.1 hp
        have hid := (hrestParts s hs p hp).symm.trans (of_decide_eq_true heq)
        exact hother (List.mem_map.2 ⟨s, hs, hid⟩)
      rw [hself, hnone, List.append_nil]
    · have hnone : (partsOf other).filter (fun p => p.sourceTableId = source.1) = [] := by
        refine List.filter_eq_nil_iff.2 fun p hp heq => ?_
        have hid := (hparts other List.mem_cons_self p hp).symm.trans (of_decide_eq_true heq)
        exact hother (List.mem_map.2 ⟨source, hmem, hid.symm⟩)
      rw [hnone, List.nil_append, ih hrest hrestParts hmem]

lemma length_le_of_nodup_ids {tables : List (TableId × TableCopyPlanningEstimate)}
    (hids : (tables.map (·.1)).Nodup) : tables.length ≤ 2 ^ 32 := by
  have hinjective : Function.Injective TableId.val := fun a b h => by
    cases a
    cases b
    exact congrArg TableId.mk h
  have hcard := (hids.map hinjective).length_le_card
  rwa [List.length_map, List.length_map, Fintype.card_fin] at hcard

lemma sum_partitionWeight_pos {tables : List (TableId × TableCopyPlanningEstimate)}
    (hnil : tables ≠ []) (hempty : ∀ source ∈ tables, source.2.isEmpty = false)
    {useEstimatedRows : Bool}
    (hrows : useEstimatedRows → ∀ source ∈ tables, 0 < source.2.estimatedRows) :
    0 < ((tables.map (·.2.partitionWeight useEstimatedRows)).map (·.toNat)).sum := by
  obtain ⟨source, rest, rfl⟩ := List.exists_cons_of_ne_nil hnil
  have hweight : 0 < (source.2.partitionWeight useEstimatedRows).toNat := by
    rcases useEstimatedRows with _ | _
    · have hne : source.2.tableBlocks ≠ 0 := by
        simpa [TableCopyPlanningEstimate.isEmpty] using hempty source List.mem_cons_self
      exact Nat.pos_of_ne_zero fun h => hne (UInt64.toNat_inj.1 h)
    · exact UInt64.lt_iff_toNat_lt.1 (hrows rfl source List.mem_cons_self)
  simp only [List.map_cons, List.sum_cons]
  omega

structure CoversTables (tableId : TableId) (sources : List (TableId × TableCopyPlanningEstimate))
    (plan : List TableCopyPartition) : Prop where
  ofSource : ∀ p ∈ plan, ∃ source ∈ sources, source.2.isEmpty = false ∧ p.sourceTableId = source.1
  covers : ∀ source ∈ sources, source.2.isEmpty = false →
    CoversTable tableId source (plan.filter fun p => p.sourceTableId = source.1)

lemma CoversTables.nodup {tableId : TableId} {plan : List TableCopyPartition}
    (h : CoversTables tableId sources plan) : plan.Nodup := by
  refine List.nodup_iff_count_le_one.2 fun p => ?_
  by_cases hp : p ∈ plan
  · obtain ⟨source, hsource, hempty, hid⟩ := h.ofSource p hp
    have hcovers := h.covers source hsource hempty
    have hmem : p ∈ plan.filter fun p => p.sourceTableId = source.1 :=
      List.mem_filter.2 ⟨hp, by simpa using hid⟩
    obtain ⟨ctid, hoffset, hselects⟩ := hcovers.inhabited p hmem
    -- a second copy of the range would select the same tuple again
    calc plan.count p = (plan.filter fun p => p.sourceTableId = source.1).count p :=
          (List.count_filter (by simpa using hid)).symm
      _ ≤ (plan.filter fun p => p.sourceTableId = source.1).countP
            fun q => q.ctidPartition.selects ctid :=
          List.countP_mono_left fun q _ hq => by rw [eq_of_beq hq]; exact hselects
      _ = 1 := hcovers.once ctid hoffset
  · rw [List.count_eq_zero_of_not_mem hp]
    exact Nat.zero_le 1

lemma planTableCopyPartitions_spec (tableId : TableId) (hids : (sources.map (·.1)).Nodup)
    (hblocks : ∀ source ∈ sources, source.2.tableBlocks.toNat < 2 ^ 32)
    (maxCopyConnections : UInt16) :
    ∃ plan, planTableCopyPartitions tableId sources maxCopyConnections = some (.ok plan) ∧
      CoversTables tableId sources plan := by
  set tables := sources.filter fun source => !source.2.isEmpty with htables
  have hmemTables : ∀ {source}, source ∈ tables ↔ source ∈ sources ∧ source.2.isEmpty = false := by
    intro source
    simp [htables]
  have htableIds : (tables.map (·.1)).Nodup := hids.sublist (List.filter_sublist.map _)
  have hempty : ∀ source ∈ tables, source.2.isEmpty = false := fun source hsource =>
    (hmemTables.1 hsource).2
  have hlength := length_le_of_nodup_ids htableIds
  by_cases hnil : tables = []
  · refine ⟨[], ?_, by simp, fun source hsource hsome => ?_⟩
    · rw [planTableCopyPartitions, ← htables, hnil]
      rfl
    · have hmem := hmemTables.2 ⟨hsource, hsome⟩
      rw [hnil] at hmem
      cases hmem
  set useEstimatedRows := tables.all fun source => decide (0 < source.2.estimatedRows) with huse
  have hrows : useEstimatedRows → ∀ source ∈ tables, 0 < source.2.estimatedRows := fun h source hs =>
    of_decide_eq_true (List.all_eq_true.1 (huse ▸ h) source hs)
  have hsum : ∀ use, sumWeights (tables.map (·.2.partitionWeight use)) =
      some ((tables.map (·.2.partitionWeight use)).map (·.toNat)).sum := fun use =>
    sumWeights_eq (by rwa [List.length_map])
  have hsumLt : ∀ use, ((tables.map (·.2.partitionWeight use)).map (·.toNat)).sum < 2 ^ 127 :=
    fun use => sum_toNat_lt (by rwa [List.length_map])
  obtain ⟨target, htarget⟩ : ∃ target, targetCtidPartitionCount maxCopyConnections
      (if useEstimatedRows then
        some ((tables.map (·.2.partitionWeight true)).map (·.toNat)).sum else none) = some target := by
    refine exists_targetCtidPartitionCount_eq _ fun n hn => ?_
    split at hn
    · cases hn
      exact hsumLt true
    · cases hn
  set totalWeight := ((tables.map (·.2.partitionWeight useEstimatedRows)).map (·.toNat)).sum
  have hpositive : 0 < totalWeight := sum_partitionWeight_pos hnil hempty hrows
  have hplanned : ∀ source ∈ tables, ∃ partitions,
      planTable tableId useEstimatedRows totalWeight target source = some (.ok partitions) ∧
        CoversTable tableId source partitions := fun source hsource =>
    exists_planTable_eq hpositive target (hempty source hsource)
      (hblocks source (hmemTables.1 hsource).1)
  choose! partsOf hparts hcovers using hplanned
  set plan := (tables.flatMap partsOf).insertionSort fun a b => b.plannedBlocks ≤ a.plannedBlocks
  have hperm : plan.Perm (tables.flatMap partsOf) := List.perm_insertionSort ..
  refine ⟨plan, ?_, ?_, ?_⟩
  · have htables' : planTables (planTable tableId useEstimatedRows totalWeight target) tables =
        some (.ok (tables.flatMap partsOf)) := planTables_eq hparts
    have hrowSum : sumEstimatedRows useEstimatedRows tables =
        some (if useEstimatedRows then
          some ((tables.map (·.2.partitionWeight true)).map (·.toNat)).sum else none) := by
      rw [sumEstimatedRows]
      split
      · rw [hsum]
        rfl
      · rfl
    have hisEmpty : tables.isEmpty = false := by simpa using hnil
    simp only [planTableCopyPartitions, ← htables, ← huse, hisEmpty, Bool.false_eq_true, if_false,
      hrowSum, hsum, htarget, Option.bind_eq_bind, Option.bind_some]
    exact congrArg (Option.bind · _) htables'
  · intro p hp
    obtain ⟨source, hsource, hp⟩ := List.mem_flatMap.1 (hperm.mem_iff.1 hp)
    exact ⟨source, (hmemTables.1 hsource).1, hempty source hsource,
      ((hcovers source hsource).ids p hp).1⟩
  · intro source hsource hsome
    have hmem := hmemTables.2 ⟨hsource, hsome⟩
    have hfilter := (hperm.filter fun p => decide (p.sourceTableId = source.1)).trans (.of_eq
      (filter_flatMap_eq htableIds (fun s hs p hp => ((hcovers s hs).ids p hp).1) hmem))
    exact (hcovers source hmem).of_perm hfilter.symm

end Etl
