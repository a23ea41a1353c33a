import Etl.Runtime.Lifecycle

/-!
# The apply worker

An attempt finds its start position and runs the apply loop; errors that may pass are retried a
bounded number of times.
-/

namespace Etl

open ApplyLoop

inductive Label where
  | launch
  | connect
  | iterate
  | finish (result : ApplyLoopResult)
  | stopped
deriving DecidableEq

inductive RetryDirective where
  | timed
  | manual
  | noRetry
deriving DecidableEq

/-- Only the retry directive decides anything; advice for operators is left out. -/
def buildErrorHandlingPolicy (e : EtlError) : RetryDirective :=
  match e.kind with
  | .sourceConnectionFailed | .destinationConnectionFailed | .destinationAtomicBatchRetryable
  | .destinationTimeout | .sourceDatabaseShutdown | .sourceDatabaseInRecovery => .timed
  | _ => .manual

def teardown : Task Unit :=
  Prog.atom
    (fun _ l w =>
      if (w.cleanup l.workerType).isEmpty then
        some ((), { l with live := false, phase := .engaged }, w)
      else none)
    .done

def callout : Task Unit := perform fun l w => ((), l, w)

namespace ApplyWorker

def getSlot : Task (Option PgLsn) :=
  request fun l w =>
    match w.slots .apply with
    | some slot =>
      (.ok (some slot.confirmed), { l with phase := .sighted, startLsn := slot.confirmed }, w)
    | none => (.ok none, { l with phase := .slotless }, w)

def getSlotState : Task Bool :=
  request fun l w =>
    match w.slots .apply with
    | some slot =>
      if slot.invalidated then (.ok true, { l with phase := .invalid }, w)
      else (.ok false, { l with phase := .probed }, w)
    | none => (.error ⟨.replicationSlotNotFound, "Replication slot not found"⟩, l, w)

def deleteReplicationCheckpoint : Task Unit :=
  perform fun l w =>
    ((), { l with phase := .cleared }, { w with store := w.store.deleteReplicationCheckpoint .apply })

def resetTableStatesForResync : Task Unit :=
  perform fun l w => ((), { l with phase := .cleared }, { w with store := w.store.resetForResync })

def deleteSlotIfExists : Task Unit :=
  perform fun l w => ((), l, w.deleteSlot .apply)

/-- A new slot starts after every handover. -/
def createSlot : Task PgLsn :=
  Prog.call fun i l w =>
    match i.fault with
    | some e => some (.error e, l, w)
    | none =>
      match w.slots .apply with
      | some _ =>
        some (.error ⟨.replicationSlotAlreadyExists, "Replication slot already exists"⟩, l, w)
      | none =>
        if w.horizon ≤ i.lsn then
          some (.ok i.lsn, { l with phase := .resolved, startLsn := i.lsn },
            w.createSlot .apply i.lsn)
        else none

def resolveStartLsn (slotStartLsn : PgLsn) : Task PgLsn :=
  perform fun l w =>
    let startLsn := match w.store.replicationCheckpoints .apply with
      | some checkpoint => max checkpoint slotStartLsn
      | none => slotStartLsn
    (startLsn, { l with phase := .resolved, startLsn := startLsn }, w)

def handleInvalidatedSlot (config : Config) : Task PgLsn :=
  match config.invalidatedSlotBehavior with
  | .error => .fail ⟨.replicationSlotInvalidated, "Replication slot has been invalidated"⟩
  | .recreate => do
    resetTableStatesForResync
    deleteSlotIfExists
    createSlot

def ensureSlotFailover (config : Config) : Task Unit :=
  if config.failover then callout else pure ()

def getStartLsn (config : Config) : Task PgLsn := do
  match ← getSlot with
  | none =>
    callout
    deleteReplicationCheckpoint
    createSlot
  | some slotStartLsn =>
    if ← getSlotState then handleInvalidatedSlot config
    else
      ensureSlotFailover config
      resolveStartLsn slotStartLsn

def startApplyLoop (config : Config) (startLsn : PgLsn) : Task Unit :=
  perform fun l w =>
    ((), l.startLoop config.wal startLsn (fun _ => none) 0, w.reconnect startLsn)

def runApplyWorker (config : Config) : Task Label := do
  callout
  let startLsn ← getStartLsn config
  startApplyLoop config startLsn
  pure .iterate

def awaitRetry : Task Label :=
  Prog.atom (fun _ l w => some (if w.shutdown then .stopped else .connect, l, w)) .done

def handleApplyWorkerError (config : Config) (e : EtlError) : Task Label := do
  teardown
  let attempts ← readLoop (·.retryAttempts)
  if buildErrorHandlingPolicy e = .timed ∧ attempts < config.tableErrorRetryMaxAttempts then
    modifyLoop fun l => { l with retryAttempts := attempts + 1 }
    awaitRetry
  else pure .stopped

def launch : Task Label :=
  Prog.atom (fun _ l w => some (.connect, { l with phase := .engaged }, w)) .done

end ApplyWorker

def runLoop (config : Config) : Task Label := do
  match ← runIteration config with
  | some result => pure (.finish result)
  | none => pure .iterate

/-! ## What the worker does -/

/-- The worker runs no loop and has come to the given phase. -/
structure Prepares (phase : Phase) (l : ApplyLoop) : Prop where
  live : l.live = false
  phase : l.phase = phase

def Continues : Label → ApplyLoop → Prop
  | .launch, l => l.live = false ∧ (l.workerType = .apply → l.stopping = false)
  | .connect, l => Prepares .engaged l ∧ (l.workerType = .apply → l.stopping = false)
  | .iterate, l => l.Rest ∧ l.phase = .engaged
  | .finish result, l => Finishes (some result) l ∧ l.phase = .engaged
  | .stopped, l => l.live = false

section Worker

variable {wal : Option Wal} {worker : WorkerType} {l : ApplyLoop}

lemma Prepares.mayFail {phase : Phase} (h : Prepares phase l) (hne : phase ≠ .idle) :
    l.MayFail :=
  ⟨h.phase ▸ hne, by simp [h.live]⟩

lemma ApplyLoop.Rest.mayFail (h : l.Rest) (hphase : l.phase = .engaged) : l.MayFail :=
  ⟨by simp [hphase], fun _ => h.waiting⟩

lemma works_teardown (hfail : l.MayFail) :
    Works wal worker teardown (fun _ => Prepares .engaged) l := by
  refine Prog.sat_atom ?_
  intro i w b l' w' hI hf
  split at hf
  · rename_i hempty
    cases hf
    exact ⟨.leave l w hfail (by simpa using hempty), rfl, rfl⟩
  · cases hf

lemma works_callout (hfail : l.MayFail) :
    Works wal worker callout (fun _ => Eq l) l :=
  works_perform hfail fun w _ => ⟨.loop (.idle l w), rfl⟩

lemma works_runLoop {config : Config} (hl : Continues .iterate l) :
    Works wal worker (runLoop config) Continues l := by
  refine ((meets_runIteration config hl.1).works hl.2).bind ?_
  rintro (_ | result) l' ⟨hl', hphase⟩
  · exact ⟨hl'.1, hphase⟩
  · exact ⟨hl', hphase⟩

end Worker

namespace ApplyWorker

variable {wal : Option Wal} {l : ApplyLoop}

lemma works_getSlot (hl : Prepares .engaged l)
    (hgoing : l.workerType = .apply → l.stopping = false) :
    Works wal .apply getSlot (fun r l' => match r with
      | some lsn => Prepares .sighted l' ∧ l'.startLsn = lsn
      | none => Prepares .slotless l') l := by
  refine works_request (hl.mayFail (by simp)) fun w hI => ?_
  rcases hslot : w.slots .apply with _ | slot <;> simp only
  · refine ⟨.slotMissing l w hI.workerType hl.live (hgoing hI.workerType) hslot, ?_, nofun⟩
    rintro r ⟨⟩
    exact ⟨hl.live, rfl⟩
  · refine ⟨.slotFound l w slot hI.workerType hl.live (hgoing hI.workerType) hslot, ?_, nofun⟩
    rintro r ⟨⟩
    exact ⟨⟨hl.live, rfl⟩, rfl⟩

lemma works_getSlotState (hl : Prepares .sighted l) :
    Works wal .apply getSlotState (fun invalidated l' => l'.startLsn = l.startLsn ∧
      Prepares (if invalidated then .invalid else .probed) l') l := by
  refine works_request (hl.mayFail (by simp)) fun w hI => ?_
  rcases hslot : w.slots .apply with _ | slot <;> simp only
  · exact ⟨.loop (.idle l w), nofun, fun _ _ => hl.mayFail (by simp)⟩
  · split
    · rename_i hinvalid
      refine ⟨.slotInvalid l w slot hI.workerType hl.live hl.phase hslot hinvalid, ?_, nofun⟩
      rintro r ⟨⟩
      exact ⟨rfl, hl.live, rfl⟩
    · rename_i hvalid
      refine ⟨.slotValid l w slot hI.workerType hl.live hl.phase hslot (by simpa using hvalid), ?_,
        nofun⟩
      rintro r ⟨⟩
      exact ⟨rfl, hl.live, rfl⟩

lemma works_createSlot (hl : Prepares .cleared l) :
    Works wal .apply createSlot (fun lsn l' => Prepares .resolved l' ∧ l'.startLsn = lsn) l := by
  refine Prog.sat_call ?_ ?_
  · intro i w b l' w' hI hf
    split at hf
    · cases hf
    · split at hf
      · cases hf
      · rename_i hslot
        split at hf
        · rename_i hbeyond
          cases hf
          exact ⟨.createSlot l w i.lsn hI.workerType hl.live hl.phase hslot hbeyond, ⟨hl.live, rfl⟩,
            rfl⟩
        · cases hf
  · intro i w e l' w' hI hf
    have hsame : l' = l ∧ w' = w := by
      split at hf
      · cases hf
        exact ⟨rfl, rfl⟩
      · split at hf
        · cases hf
          exact ⟨rfl, rfl⟩
        · split at hf <;> cases hf
    obtain ⟨rfl, rfl⟩ := hsame
    exact ⟨.loop (.idle _ _), hl.mayFail (by simp)⟩

lemma works_handleInvalidatedSlot {config : Config} (hl : Prepares .invalid l) :
    Works wal .apply (handleInvalidatedSlot config)
      (fun lsn l' => Prepares .resolved l' ∧ l'.startLsn = lsn) l := by
  have hfail := hl.mayFail (by simp)
  unfold handleInvalidatedSlot
  split
  · exact hfail
  · refine Prog.Sat.bind (R := fun _ => Prepares .cleared) (works_perform hfail fun w hI =>
      ⟨.resetForResync l w hI.workerType hl.live hl.phase, hl.live, rfl⟩) ?_
    intro _ l₁ hl₁
    refine Prog.Sat.bind (R := fun _ => Eq l₁) (works_perform (hl₁.mayFail (by simp)) fun w hI =>
      ⟨.dropInvalidSlot l₁ w hI.workerType hl₁.live hl₁.phase, rfl⟩) ?_
    rintro - _ rfl
    exact works_createSlot hl₁

lemma works_getStartLsn {config : Config} (hl : Prepares .engaged l)
    (hgoing : l.workerType = .apply → l.stopping = false) :
    Works wal .apply (getStartLsn config)
      (fun lsn l' => Prepares .resolved l' ∧ l'.startLsn = lsn) l := by
  refine (works_getSlot hl hgoing).bind ?_
  rintro (_ | lsn) l₁ hl₁
  · have hfail := hl₁.mayFail (by simp)
    refine (works_callout hfail).bind ?_
    rintro - _ rfl
    refine Prog.Sat.bind (R := fun _ => Prepares .cleared) (works_perform hfail fun w hI =>
      ⟨.dropCheckpoint l₁ w hI.workerType hl₁.live hl₁.phase, hl₁.live, rfl⟩) ?_
    intro _ l₂ hl₂
    exact works_createSlot hl₂
  · obtain ⟨hl₁, rfl⟩ := hl₁
    refine (works_getSlotState hl₁).bind ?_
    rintro invalidated l₂ ⟨hstart, hl₂⟩
    cases invalidated with
    | true => exact works_handleInvalidatedSlot hl₂
    | false =>
      have hfail := hl₂.mayFail (by simp)
      refine Prog.Sat.bind (R := fun _ => Eq l₂)
        (Prog.sat_ite (fun _ => works_callout hfail) fun _ => rfl) ?_
      rintro - _ rfl
      refine works_perform hfail fun w hI => ⟨?_, ⟨hl₂.live, rfl⟩, rfl⟩
      rw [← hstart]
      exact .resolve l₂ w hI.workerType hl₂.live hl₂.phase

lemma works_runApplyWorker {config : Config} (hl : Continues .connect l) :
    Works config.wal .apply (runApplyWorker config) Continues l := by
  refine (works_callout (hl.1.mayFail (by simp))).bind ?_
  rintro - _ rfl
  refine (works_getStartLsn hl.1 hl.2).bind ?_
  rintro lsn l₁ ⟨hl₁, rfl⟩
  refine Prog.Sat.bind (R := fun _ l' => Continues .iterate l')
    (works_perform (hl₁.mayFail (by simp)) fun w hI =>
      ⟨.startApply l₁ w hI.workerType hl₁.live hl₁.phase, rest_startLoop .., rfl⟩) fun _ _ h => h

lemma works_handleApplyWorkerError {config : Config} {e : EtlError} (hfail : l.MayFail) :
    Works wal .apply (handleApplyWorkerError config e) Continues l := by
  refine (works_teardown hfail).bind ?_
  intro _ l₁ hl₁
  refine (works_readLoop (Q := fun _ => Eq l₁) rfl).bind ?_
  rintro attempts _ rfl
  refine Prog.sat_ite (fun _ => ?_) fun _ => hl₁.live
  refine Prog.Sat.bind (R := fun _ => Prepares .engaged)
    (works_modifyLoop (fun w _ => .retry l₁ w _) ⟨hl₁.live, hl₁.phase⟩) ?_
  intro _ l₂ hl₂
  refine Prog.sat_atom ?_
  intro i w label l' w' hI hf
  cases hf
  refine ⟨.loop (.idle _ _), ?_⟩
  split
  · exact hl₂.live
  · rename_i hopen
    refine ⟨hl₂, fun _ => ?_⟩
    exact Bool.eq_false_iff.2 fun hstop => hopen (hI.stopping rfl hstop)

end ApplyWorker

def applyScript (config : Config) : Script EtlError Input ApplyLoop World Label where
  body
    | .launch => ApplyWorker.launch
    | .connect => ApplyWorker.runApplyWorker config
    | .iterate => runLoop config
    | .finish _ => do
      teardown
      pure .stopped
    | .stopped => Prog.atom (β := Label) (fun _ _ _ => none) .done
  onError e := ApplyWorker.handleApplyWorkerError config e

lemma applyScript_guarantees (config : Config) :
    (applyScript config).Guarantees (Coordinated .apply) (WorkerStep config.wal) Continues
      (fun _ => MayFail) where
  body label l hl := by
    cases label with
    | launch =>
      refine Prog.sat_atom ?_
      intro i w b l' w' hI hf
      cases hf
      exact ⟨.launch l w hI.workerType hl.1, ⟨hl.1, rfl⟩, hl.2⟩
    | connect => exact ApplyWorker.works_runApplyWorker hl
    | iterate => exact works_runLoop hl
    | finish result =>
      refine (works_teardown (hl.1.1.mayFail hl.2)).bind ?_
      intro _ l' hl'
      exact hl'.live
    | stopped =>
      intro i w b l' w' hI hf
      cases hf
  onError e l hl := ApplyWorker.works_handleApplyWorkerError hl

end Etl
