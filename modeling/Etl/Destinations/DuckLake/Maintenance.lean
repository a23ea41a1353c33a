import Mathlib

/-!
# Pauses for external maintenance

A watcher takes the checkpoint gate for a maintenance run that asks for a pause, reports that the
foreground is quiet and gives the gate back. `CheckpointGate` is about the gate and its waiting
calls, `Watcher` about the report and the connection pools.
-/

namespace Etl.DuckLake

/-! ## The gate -/

/-- Where a call of `acquire_external_maintenance_pause` waits. -/
inductive PauseAwait where
  | copySessionGate
  | checkpointGate
deriving DecidableEq

structure CheckpointGate where
  copySessions : Nat
  copySessionsFenced : Bool
  mutations : Nat
  paused : Bool
  checkpointWaiters : Nat
  calls : List PauseAwait
  /-- History: the calls dropped at the checkpoint gate. -/
  abandoned : Nat
deriving DecidableEq

inductive GateStep where
  | acquireMutationGuard
  | releaseMutationGuard
  /-- A lease that gives up its guard takes it back as a mutation does. -/
  | yieldToWaitingMaintenance
  | openCopySession
  | closeCopySession
  | acquireExternalMaintenancePause
  | resume (call : Nat)
  | cancel (call : Nat)
  | releasePause

namespace CheckpointGate

def open_ : CheckpointGate := ⟨0, false, 0, false, 0, [], 0⟩

def step (gate : CheckpointGate) : GateStep → Option CheckpointGate
  | .acquireMutationGuard =>
    if gate.paused then none else some { gate with mutations := gate.mutations + 1 }
  | .releaseMutationGuard =>
    if gate.mutations = 0 then none else some { gate with mutations := gate.mutations - 1 }
  | .yieldToWaitingMaintenance =>
    if gate.mutations = 0 then none
    else if gate.checkpointWaiters = 0 then some gate
    else some { gate with mutations := gate.mutations - 1 }
  | .openCopySession =>
    if gate.copySessionsFenced then none
    else some { gate with copySessions := gate.copySessions + 1 }
  | .closeCopySession =>
    if gate.copySessions = 0 then none
    else some { gate with copySessions := gate.copySessions - 1 }
  | .acquireExternalMaintenancePause =>
    some { gate with calls := gate.calls ++ [.copySessionGate] }
  | .resume call =>
    match gate.calls[call]? with
    | none => none
    | some .copySessionGate =>
      if gate.copySessionsFenced ∨ gate.copySessions ≠ 0 then none
      else some { gate with
        copySessionsFenced := true
        checkpointWaiters := gate.checkpointWaiters + 1
        calls := gate.calls.set call .checkpointGate }
    | some .checkpointGate =>
      if gate.paused ∨ gate.mutations ≠ 0 then none
      else some { gate with
        paused := true
        checkpointWaiters := gate.checkpointWaiters - 1
        calls := gate.calls.eraseIdx call }
  | .cancel call =>
    match gate.calls[call]? with
    | none => none
    | some .copySessionGate => some { gate with calls := gate.calls.eraseIdx call }
    | some .checkpointGate =>
      some { gate with
        copySessionsFenced := false
        calls := gate.calls.eraseIdx call
        abandoned := gate.abandoned + 1 }
  | .releasePause =>
    if gate.paused then some { gate with paused := false, copySessionsFenced := false } else none

inductive Reachable : CheckpointGate → Prop where
  | start : Reachable open_
  | step {gate gate' : CheckpointGate} (h : Reachable gate) (x : GateStep)
      (hstep : gate.step x = some gate') : Reachable gate'

def queued (gate : CheckpointGate) : Nat := gate.calls.count .checkpointGate

lemma count_of_getElem? {calls : List PauseAwait} {call : Nat} {x : PauseAwait}
    (h : calls[call]? = some x) (y : PauseAwait) :
    calls.count y = (calls.eraseIdx call).count y + (if x = y then 1 else 0) ∧
      (calls.set call .checkpointGate).count y =
        (calls.eraseIdx call).count y + (if PauseAwait.checkpointGate = y then 1 else 0) := by
  obtain ⟨hlt, rfl⟩ := List.getElem?_eq_some_iff.1 h
  have herase := (List.getElem_cons_eraseIdx_perm hlt).count_eq y
  have hset := (List.set_perm_cons_eraseIdx hlt PauseAwait.checkpointGate).count_eq y
  simp only [List.count_cons, beq_iff_eq] at herase hset
  exact ⟨herase.symm, hset⟩

lemma Reachable.checkpointWaiters_eq {gate : CheckpointGate} (h : gate.Reachable) :
    gate.checkpointWaiters = gate.queued + gate.abandoned := by
  induction h with
  | start => rfl
  | @step gate gate' _ x hstep ih =>
    cases x <;> simp only [CheckpointGate.step] at hstep
    case resume call =>
      split at hstep
      · cases hstep
      · rename_i hcall
        have hcount := count_of_getElem? hcall .checkpointGate
        grind [queued]
      · rename_i hcall
        have hcount := count_of_getElem? hcall .checkpointGate
        grind [queued]
    case cancel call =>
      split at hstep
      · cases hstep
      · rename_i hcall
        have hcount := count_of_getElem? hcall .checkpointGate
        grind [queued]
      · rename_i hcall
        have hcount := count_of_getElem? hcall .checkpointGate
        grind [queued]
    all_goals grind [queued]

end CheckpointGate

/-- The counter of waiting calls is exact if and only if no call was dropped while it was queued for
the checkpoint gate, as the timeout of `reconcile_pause` may do. As long as none was, a lease gives
up its guard only for a call that waits. -/
theorem checkpointWaiters_exact_iff {gate : CheckpointGate} (h : gate.Reachable) :
    (gate.checkpointWaiters = gate.queued ↔ gate.abandoned = 0) ∧
      (gate.abandoned = 0 → ∀ gate', gate.step .yieldToWaitingMaintenance = some gate' →
        gate'.mutations ≠ gate.mutations → .checkpointGate ∈ gate.calls) := by
  have hwaiters := h.checkpointWaiters_eq
  refine ⟨by omega, fun hnone gate' hstep hgives => ?_⟩
  simp only [CheckpointGate.step] at hstep
  refine List.count_pos_iff.1 (?_ : 0 < gate.queued)
  grind

theorem checkpointWaiters_exact_iff_waiting :
    (⟨0, true, 1, false, 1, [.checkpointGate], 0⟩ : CheckpointGate).checkpointWaiters = 1 :=
  ((checkpointWaiters_exact_iff (((CheckpointGate.Reachable.start.step .acquireMutationGuard
    rfl).step .acquireExternalMaintenancePause rfl).step (.resume 0) rfl)).1).2 rfl

/-- A call is dropped at the gate that a mutation holds. Nobody waits any more, but the counter
stays at one, and the mutation gives up its guard. -/
theorem checkpointWaiters_leak : ∃ gate gate' : CheckpointGate, gate.Reachable ∧
    gate.calls = [] ∧ gate.checkpointWaiters = 1 ∧
      gate.step .yieldToWaitingMaintenance = some gate' ∧ gate'.mutations < gate.mutations :=
  ⟨⟨0, false, 1, false, 1, [], 1⟩, _, (((CheckpointGate.Reachable.start.step .acquireMutationGuard
    rfl).step .acquireExternalMaintenancePause rfl).step (.resume 0) rfl).step (.cancel 0) rfl,
    rfl, rfl, rfl, by decide⟩

structure MaintenanceOperations where
  inlineFlush : Bool
  mergeAdjacentFiles : Bool
  rewriteDataFiles : Bool
  expireSnapshots : Bool
  cleanupOldFiles : Bool
deriving DecidableEq

def MaintenanceOperations.none : MaintenanceOperations := ⟨false, false, false, false, false⟩

/-- Points in time are counted in nanoseconds. -/
structure OperationRun where
  runId : Option String
  completedAt : Int

structure OperationHistory where
  inlineFlush : Option OperationRun
  mergeAdjacentFiles : Option OperationRun
  rewriteDataFiles : Option OperationRun
  expireSnapshots : Option OperationRun
  cleanupOldFiles : Option OperationRun

structure MaintenancePause where
  runId : String
  requestedAt : Option Int
  expiresAt : Int

structure MaintenanceState where
  exists_ : Bool
  activeRun : Option (String × MaintenanceOperations)
  pauseRequest : Option MaintenancePause
  operationRequest : Option MaintenanceOperations
  lastSuccessfulOperations : OperationHistory
  maxDurationSeconds : Nat

inductive ReplicatorStatus where
  | cleared
  | running
  | pausing (runId : String)
  | quiesced (runId : String)

structure HeldPause where
  runId : String
  expiresAt : Int
  operations : MaintenanceOperations
  quiescedAt : Int
  quiescedReported : Bool
  poolRefreshRequired : Bool

/-- `latest` is the last point in time that can be represented. -/
def boundedActivePauseRequest (latest : Int) (state : MaintenanceState) (now : Int) :
    Option MaintenancePause := do
  let pause ← state.pauseRequest
  let requestedAt ← pause.requestedAt
  if now < requestedAt then none
  else if 2 ^ 63 - 1 < state.maxDurationSeconds * 1000 then none
  else
    let maxExpiresAt := requestedAt + state.maxDurationSeconds * 10 ^ 9
    if latest < maxExpiresAt then none
    else
      let pause := { pause with expiresAt := min pause.expiresAt maxExpiresAt }
      if now < pause.expiresAt then some pause else none

def activePauseOperations (state : MaintenanceState) (pause : MaintenancePause) :
    MaintenanceOperations :=
  match state.activeRun.filter fun run => run.1 = pause.runId ∧ run.2 ≠ .none with
  | some run => run.2
  | none => state.operationRequest.getD .none

def successfulMaintenanceRun (state : MaintenanceState) (held : HeldPause) : Bool :=
  let completedForHeldRun := fun run : Option OperationRun => run.any fun run =>
    match run.runId with
    | some runId => runId = held.runId
    | none => held.quiescedAt ≤ run.completedAt
  let successful := state.lastSuccessfulOperations
  held.operations.inlineFlush && completedForHeldRun successful.inlineFlush ||
    held.operations.mergeAdjacentFiles && completedForHeldRun successful.mergeAdjacentFiles ||
    held.operations.rewriteDataFiles && completedForHeldRun successful.rewriteDataFiles ||
    held.operations.expireSnapshots && completedForHeldRun successful.expireSnapshots ||
    held.operations.cleanupOldFiles && completedForHeldRun successful.cleanupOldFiles

structure Watcher where
  held : Option HeldPause
  /-- The call that waits for the gate, and the refresh it has taken over. -/
  acquiring : Option (MaintenancePause × MaintenanceOperations × Bool)
  /-- Status writes made before anything else. -/
  reports : List ReplicatorStatus
  /-- Status writes that failed or timed out, and may take effect at any time. -/
  inFlight : List ReplicatorStatus
  state : MaintenanceState
  stored : ReplicatorStatus
  now : Int
  mutations : Nat
  copySessions : Nat
  /-- History: a success was observed, and the pools not recreated since. -/
  due : Bool

inductive WatcherStep where
  | observe (state : MaintenanceState) (refreshed : Bool)
  | loadFails (refreshed : Bool)
  | reported (confirmed : Bool)
  | arrives (write : Nat)
  | granted
  | timedOut
  /-- The controller writes the state, and time passes. -/
  | control (state : MaintenanceState) (now : Int)
  | restart
  | acquireMutationGuard
  | releaseMutationGuard
  | openCopySession
  | closeCopySession

namespace Watcher

/-- Pools are recreated if required; if that fails, the pause is kept. -/
def release (s : Watcher) (refreshed : Bool) (status : ReplicatorStatus) : Watcher :=
  match s.held with
  | none => s
  | some held =>
    if held.poolRefreshRequired && !refreshed then s
    else
      { s with
        held := none
        reports := [status]
        due := s.due && !held.poolRefreshRequired }

def markSuccess (s : Watcher) (state : MaintenanceState) : Watcher :=
  match s.held with
  | none => s
  | some held =>
    if successfulMaintenanceRun state held then
      { s with held := some { held with poolRefreshRequired := true }, due := true }
    else s

def reconcilePause (latest : Int) (s : Watcher) (state : MaintenanceState) (refreshed : Bool) :
    Watcher :=
  let s := s.markSuccess state
  match boundedActivePauseRequest latest state s.now with
  | none => s.release refreshed .running
  | some pause =>
    let operations := activePauseOperations state pause
    match s.held with
    | none =>
      { s with acquiring := some (pause, operations, false), reports := [.pausing pause.runId] }
    | some held =>
      if held.runId = pause.runId then
        { s with
          held := some (if operations = .none then held else { held with operations := operations })
          reports := if held.quiescedReported then [] else [.quiesced held.runId] }
      else
        { s with
          held := none
          acquiring := some (pause, operations, held.poolRefreshRequired)
          reports := [.running, .pausing pause.runId] }

def reported (s : Watcher) (confirmed : Bool) : Watcher :=
  match s.reports with
  | [] => s
  | status :: reports =>
    if !confirmed then { s with reports := reports, inFlight := status :: s.inFlight }
    else
      let confirm := fun held : HeldPause =>
        { held with quiescedReported := held.quiescedReported || status matches .quiesced _ }
      { s with reports := reports, stored := status, held := s.held.map confirm }

def granted (s : Watcher) : Watcher :=
  match s.acquiring with
  | none => s
  | some (pause, operations, poolRefreshRequired) =>
    if s.mutations ≠ 0 ∨ s.copySessions ≠ 0 then s
    else if pause.expiresAt ≤ s.now then { s with acquiring := none, reports := [.running] }
    else
      { s with
        acquiring := none
        held := some ⟨pause.runId, pause.expiresAt, operations, s.now, false, poolRefreshRequired⟩
        reports := [.quiesced pause.runId] }

def restart (s : Watcher) : Watcher :=
  { s with held := none, acquiring := none, reports := [], mutations := 0, copySessions := 0,
           due := false }

def step (latest : Int) (s : Watcher) : WatcherStep → Watcher
  | .observe state refreshed =>
    if s.acquiring.isSome ∨ s.reports ≠ [] then s
    else if !state.exists_ then s.release refreshed .cleared
    else s.reconcilePause latest state refreshed
  | .loadFails refreshed =>
    match s.held with
    | none => s
    | some held =>
      if s.reports ≠ [] ∨ s.now < held.expiresAt then s
      else
        { s with held := some { held with poolRefreshRequired := true } }.release refreshed .running
  | .reported confirmed => s.reported confirmed
  | .arrives write =>
    match s.inFlight[write]? with
    | none => s
    | some status => { s with stored := status, inFlight := s.inFlight.eraseIdx write }
  | .granted => if s.reports ≠ [] then s else s.granted
  | .timedOut =>
    if s.reports = [] ∧ s.acquiring.any (·.1.expiresAt ≤ s.now) then
      { s with acquiring := none, reports := [.running] }
    else s
  | .control state now => { s with state := state, now := now }
  | .restart => s.restart
  | .acquireMutationGuard =>
    if s.held.isSome then s else { s with mutations := s.mutations + 1 }
  | .releaseMutationGuard => { s with mutations := s.mutations - 1 }
  | .openCopySession =>
    if s.held.isSome then s else { s with copySessions := s.copySessions + 1 }
  | .closeCopySession => { s with copySessions := s.copySessions - 1 }

def run (latest : Int) (s : Watcher) (steps : List WatcherStep) : Watcher :=
  steps.foldl (Watcher.step latest) s

/-- The run observes another request while a refresh is due. -/
def Replaces (latest : Int) (s : Watcher) : WatcherStep → Prop
  | .observe state _ =>
    s.acquiring = none ∧ s.reports = [] ∧ state.exists_ ∧ (s.markSuccess state).due ∧
      ∃ held pause, s.held = some held ∧
        boundedActivePauseRequest latest state s.now = some pause ∧ held.runId ≠ pause.runId
  | _ => False

/-- A refresh that is due is required of the held pause. -/
structure Guarded (s : Watcher) : Prop where
  alone : s.acquiring.isSome → s.held = none
  refresh : s.due → ∃ held, s.held = some held ∧ held.poolRefreshRequired

def Quiet (s : Watcher) : Prop :=
  s.mutations = 0 ∧ s.copySessions = 0

/-- The status tells the controller that a run may start, and its request is active. -/
def Admits (latest : Int) (s : Watcher) : Prop :=
  ∃ runId, s.stored = .quiesced runId ∧
    (boundedActivePauseRequest latest s.state s.now).map (·.runId) = some runId

variable {latest : Int} {s : Watcher} {next : WatcherStep}

lemma quiet_release (h : s.held.isSome → s.Quiet) (refreshed : Bool) (status : ReplicatorStatus) :
    (s.release refreshed status).held.isSome → (s.release refreshed status).Quiet := by
  unfold release
  grind [Quiet]

lemma quiet_step (h : s.held.isSome → s.Quiet) :
    (s.step latest next).held.isSome → (s.step latest next).Quiet := by
  cases next with
  | observe state refreshed =>
    have hmark : (s.markSuccess state).held.isSome → (s.markSuccess state).Quiet := by
      grind [markSuccess, Quiet]
    have hrelease := quiet_release hmark refreshed .running
    have hmissing := quiet_release h refreshed .cleared
    grind [Watcher.step, reconcilePause, Quiet]
  | loadFails refreshed =>
    rcases hheld : s.held with _ | held
    · simp [Watcher.step, hheld]
    · have hrelease := quiet_release (s := { s with
        held := some { held with poolRefreshRequired := true } }) (by grind [Quiet]) refreshed
          .running
      grind [Watcher.step, Quiet]
  | reported confirmed => grind [Watcher.step, reported, Quiet]
  | granted => grind [Watcher.step, granted, Quiet]
  | _ => grind [Watcher.step, restart, Quiet]

lemma quiet_run (latest : Int) (s : Watcher) (steps : List WatcherStep) :
    (run latest s.restart steps).held.isSome → (run latest s.restart steps).Quiet :=
  List.foldlRecOn steps _ (motive := fun s : Watcher => s.held.isSome → s.Quiet)
    (by simp [restart]) fun _ h _ _ => quiet_step h

lemma acquireMutationGuard_of_not_held (h : ¬s.held.isSome) :
    s.step latest .acquireMutationGuard = { s with mutations := s.mutations + 1 } :=
  if_neg h

/-- A request that is active at the time one. -/
def sampleState (runId : String) (flushed : Option OperationRun) : MaintenanceState :=
  ⟨true, none, some ⟨runId, some 0, 5⟩, some ⟨true, false, false, false, false⟩,
    ⟨flushed, none, none, none, none⟩, 1⟩

def sampleSteps : List WatcherStep :=
  [.observe (sampleState "a" none) true, .reported true, .granted, .reported true]

def sampleWatcher : Watcher :=
  ⟨none, none, [], [], sampleState "a" none, .running, 1, 0, 0, false⟩

lemma Guarded.release (h : s.Guarded) (refreshed : Bool) (status : ReplicatorStatus) :
    (s.release refreshed status).Guarded := by
  constructor <;> grind [Watcher.release, Guarded]

lemma Guarded.step (h : s.Guarded) (hstep : ¬s.Replaces latest next) :
    (s.step latest next).Guarded := by
  cases next with
  | observe state refreshed =>
    have hmark : (s.markSuccess state).Guarded := by constructor <;> grind [markSuccess, Guarded]
    have hnow : (s.markSuccess state).now = s.now := by grind [markSuccess]
    have hheld : ∀ held, (s.markSuccess state).held = some held →
        ∃ before, s.held = some before ∧ before.runId = held.runId := by grind [markSuccess]
    simp only [Replaces] at hstep
    rw [Watcher.step]
    split
    · exact h
    split
    · exact h.release refreshed .cleared
    rw [reconcilePause]
    split
    · exact hmark.release refreshed .running
    split
    · constructor <;> grind [Guarded]
    split
    · constructor <;> grind [Guarded]
    · constructor <;> grind [Option.isSome_eq_false_iff, Option.isNone_iff_eq_none]
  | loadFails refreshed =>
    rcases hheld : s.held with _ | held
    · simpa [Watcher.step, hheld] using h
    · have hflag : { s with held := some { held with poolRefreshRequired := true } }.Guarded := by
        constructor <;> grind [Guarded]
      have hrelease := hflag.release refreshed .running
      grind [Watcher.step]
  | reported confirmed => constructor <;> grind [Watcher.step, reported, Guarded]
  | granted => constructor <;> grind [Watcher.step, granted, Guarded]
  | _ => constructor <;> grind [Watcher.step, restart, Guarded]

lemma Replaces.step (h : s.Replaces latest next) :
    (s.step latest next).due ∧ ¬(s.step latest next).held.isSome := by
  cases next with
  | observe state refreshed =>
    obtain ⟨hacquiring, hreports, hexists, hdue, held, pause, hheld, hpause, hne⟩ := h
    grind [Watcher.step, reconcilePause, markSuccess]
  | _ => exact h.elim

end Watcher

end Etl.DuckLake
