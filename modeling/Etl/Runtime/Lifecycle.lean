import Etl.Replication.Loop

/-!
# The steps of a worker

`WorkerStep` adds to the steps of the loop what the code around it can do.
-/

namespace Etl

namespace World

variable (w : World)

def deleteSlot (worker : WorkerType) : World :=
  { w with slots := Function.update w.slots worker none }

/-- What an earlier slot owed is settled by whatever replaces it. -/
def createSlot (worker : WorkerType) (consistentPoint : PgLsn) : World :=
  { w with
    slots := Function.update w.slots worker (some ⟨consistentPoint, consistentPoint, false⟩)
    owed := Function.update w.owed worker []
    forgotten := Function.update w.forgotten worker (w.owed worker ++ w.forgotten worker) }

def recordCopy (tableId : TableId) (lsn : PgLsn) : World :=
  { w with
    applied := Function.update w.applied tableId []
    copyPoint := Function.update w.copyPoint tableId lsn
    synced := Function.update w.synced tableId []
    copySchema := Function.update w.copySchema tableId none
    handover := Function.update w.handover tableId none
    promoted := Function.update w.promoted tableId false }

def storeCopySchema (tableId : TableId) (tableSchema : TableSchema) : World :=
  { w with
    store := w.store.storeTableSchema tableSchema
    copySchema := Function.update w.copySchema tableId (some tableSchema) }

/-- The apply worker receives again what its connection starts before. -/
def reconnect (startLsn : PgLsn) : World :=
  { w with passed := fun tableId => (w.passed tableId).filter (· < startLsn) }

def rollback (tableId : TableId) (previous : TableState) (store : Store) : World :=
  { w.setPoolState tableId previous with store := store }

end World

namespace ApplyLoop

def startLoop (l : ApplyLoop) (wal : Option Wal) (startLsn : PgLsn)
    (decoders : TableId → Option TableDecodingState) (target : PgLsn) : ApplyLoop :=
  { unstarted l.workerType with
    phase := .engaged
    state := .new startLsn
    tableDecodingStates := decoders
    retryAttempts := l.retryAttempts
    live := true
    session := wal.map fun wal => Session.begin wal startLsn
    startLsn := startLsn
    copySchema := l.copySchema
    target := target }

def initialDecoders (tableId : TableId) (schema : ReplicatedTableSchema) :
    TableId → Option TableDecodingState :=
  Function.update (fun _ => none) tableId (some (.withSchema schema))

lemma rest_startLoop (l : ApplyLoop) (wal : Option Wal) (startLsn : PgLsn)
    (decoders : TableId → Option TableDecodingState) (target : PgLsn) :
    (l.startLoop wal startLsn decoders target).Rest where
  handling := rfl
  tx := rfl
  waiting := rfl
  ordinal := nofun
  live := rfl
  stopping := nofun
  accounted := ⟨fun _ h => absurd rfl h, nofun, nofun⟩
  completion _ _ := ⟨fun _ => ⟨nofun, nofun⟩, nofun, nofun⟩
  incomplete := nofun
  terminal := nofun

structure MayFail (l : ApplyLoop) : Prop where
  running : l.phase ≠ .idle
  waiting : l.live = true → l.waiting = none

end ApplyLoop

inductive WorkerStep (wal : Option Wal) : ApplyLoop → World → ApplyLoop → World → Prop
  | loop {l l' : ApplyLoop} {w w' : World} (step : LoopStep l w l' w') : WorkerStep wal l w l' w'
  | leave (l : ApplyLoop) (w : World) (running : l.MayFail)
      (drained : w.cleanup l.workerType = []) :
      WorkerStep wal l w { l with live := false, phase := .engaged } w
  | retry (l : ApplyLoop) (w : World) (attempts : Nat) :
      WorkerStep wal l w { l with retryAttempts := attempts } w
  -- the apply worker
  | launch (l : ApplyLoop) (w : World) (worker : l.workerType = .apply) (live : l.live = false) :
      WorkerStep wal l w { l with phase := .engaged } w
  | slotMissing (l : ApplyLoop) (w : World) (worker : l.workerType = .apply)
      (live : l.live = false) (going : l.stopping = false) (missing : w.slots .apply = none) :
      WorkerStep wal l w { l with phase := .slotless } w
  | slotFound (l : ApplyLoop) (w : World) (slot : Slot) (worker : l.workerType = .apply)
      (live : l.live = false) (going : l.stopping = false) (found : w.slots .apply = some slot) :
      WorkerStep wal l w { l with phase := .sighted, startLsn := slot.confirmed } w
  | slotValid (l : ApplyLoop) (w : World) (slot : Slot) (worker : l.workerType = .apply)
      (live : l.live = false) (phase : l.phase = .sighted) (found : w.slots .apply = some slot)
      (valid : slot.invalidated = false) :
      WorkerStep wal l w { l with phase := .probed } w
  | slotInvalid (l : ApplyLoop) (w : World) (slot : Slot) (worker : l.workerType = .apply)
      (live : l.live = false) (phase : l.phase = .sighted) (found : w.slots .apply = some slot)
      (invalid : slot.invalidated = true) :
      WorkerStep wal l w { l with phase := .invalid } w
  | dropCheckpoint (l : ApplyLoop) (w : World) (worker : l.workerType = .apply)
      (live : l.live = false) (phase : l.phase = .slotless) :
      WorkerStep wal l w { l with phase := .cleared }
        { w with store := w.store.deleteReplicationCheckpoint .apply }
  | resetForResync (l : ApplyLoop) (w : World) (worker : l.workerType = .apply)
      (live : l.live = false) (phase : l.phase = .invalid) :
      WorkerStep wal l w { l with phase := .cleared } { w with store := w.store.resetForResync }
  | dropInvalidSlot (l : ApplyLoop) (w : World) (worker : l.workerType = .apply)
      (live : l.live = false) (phase : l.phase = .cleared) :
      WorkerStep wal l w l (w.deleteSlot .apply)
  | createSlot (l : ApplyLoop) (w : World) (consistentPoint : PgLsn)
      (worker : l.workerType = .apply) (live : l.live = false) (phase : l.phase = .cleared)
      (free : w.slots .apply = none) (beyond : w.horizon ≤ consistentPoint) :
      WorkerStep wal l w { l with phase := .resolved, startLsn := consistentPoint }
        (w.createSlot .apply consistentPoint)
  | resolve (l : ApplyLoop) (w : World) (worker : l.workerType = .apply) (live : l.live = false)
      (phase : l.phase = .probed) :
      WorkerStep wal l w
        { l with
          phase := .resolved
          startLsn := match w.store.replicationCheckpoints .apply with
            | some checkpoint => max checkpoint l.startLsn
            | none => l.startLsn } w
  | startApply (l : ApplyLoop) (w : World) (worker : l.workerType = .apply)
      (live : l.live = false) (phase : l.phase = .resolved) :
      WorkerStep wal l w (l.startLoop wal l.startLsn (fun _ => none) 0) (w.reconnect l.startLsn)
  -- the copy of a table
  | engage (l : ApplyLoop) (w : World) (tableId : TableId)
      (worker : l.workerType = .tableSync tableId) (live : l.live = false)
      (active : w.isActive tableId = true) :
      WorkerStep wal l w { l with phase := .engaged } w
  | enter (l : ApplyLoop) (w : World) (tableId : TableId)
      (worker : l.workerType = .tableSync tableId) (live : l.live = false)
      (phase : l.phase = .engaged)
      (state : w.poolState tableId = some .init ∨ w.poolState tableId = some .dataSync ∨
        w.poolState tableId = some .finishedCopy) :
      WorkerStep wal l w { l with phase := .starting } w
  | dropSyncSlot (l : ApplyLoop) (w : World) (tableId : TableId)
      (worker : l.workerType = .tableSync tableId) (live : l.live = false) :
      WorkerStep wal l w l (w.deleteSlot (.tableSync tableId))
  | dropSyncCheckpoint (l : ApplyLoop) (w : World) (tableId : TableId)
      (worker : l.workerType = .tableSync tableId) (live : l.live = false) :
      WorkerStep wal l w l
        { w with store := w.store.deleteReplicationCheckpoint (.tableSync tableId) }
  | prepareForCopy (l : ApplyLoop) (w : World) (tableId : TableId)
      (worker : l.workerType = .tableSync tableId) (live : l.live = false)
      (phase : l.phase = .starting) :
      WorkerStep wal l w { l with phase := .prepared }
        { w with store := w.store.prepareForCopy tableId }
  | beginCopy (l : ApplyLoop) (w : World) (tableId : TableId)
      (worker : l.workerType = .tableSync tableId) (live : l.live = false)
      (phase : l.phase = .prepared) :
      WorkerStep wal l w { l with phase := .copying } (w.setAndStore tableId .dataSync)
  | createSyncSlot (l : ApplyLoop) (w : World) (tableId : TableId) (consistentPoint : PgLsn)
      (worker : l.workerType = .tableSync tableId) (live : l.live = false)
      (phase : l.phase = .copying) (free : w.slots (.tableSync tableId) = none) :
      WorkerStep wal l w { l with phase := .slotted, startLsn := consistentPoint, copySchema := none }
        ((w.createSlot (.tableSync tableId) consistentPoint).recordCopy tableId consistentPoint)
  | storeCopySchema (l : ApplyLoop) (w : World) (tableId : TableId) (tableSchema : TableSchema)
      (worker : l.workerType = .tableSync tableId) (live : l.live = false)
      (phase : l.phase = .slotted) (id : tableSchema.id = tableId)
      (initial : tableSchema.snapshotId = .initial) :
      WorkerStep wal l w { l with copySchema := some tableSchema }
        (w.storeCopySchema tableId tableSchema)
  | finishCopy (l : ApplyLoop) (w : World) (tableId : TableId)
      (worker : l.workerType = .tableSync tableId) (live : l.live = false)
      (phase : l.phase = .slotted) (schema : l.copySchema.isSome) :
      WorkerStep wal l w { l with phase := .copied } (w.setAndStore tableId .finishedCopy)
  | syncWait (l : ApplyLoop) (w : World) (tableId : TableId)
      (worker : l.workerType = .tableSync tableId) (live : l.live = false)
      (phase : l.phase = .copied) :
      WorkerStep wal l w { l with phase := .waiting }
        (w.setAndStore tableId (.syncWait l.startLsn))
  | follow (l : ApplyLoop) (w : World) (tableId : TableId) (schema : ReplicatedTableSchema)
      (target : PgLsn) (worker : l.workerType = .tableSync tableId) (live : l.live = false)
      (phase : l.phase = .waiting) (state : w.poolState tableId = some (.catchup target))
      (copied : l.copySchema = some schema.tableSchema) (fits : schema.Fits) :
      WorkerStep wal l w
        (l.startLoop wal l.startLsn (ApplyLoop.initialDecoders tableId schema) target) w
  -- the end of an attempt
  | storeError (l : ApplyLoop) (w : World) (tableId : TableId) (e : EtlError)
      (policy : TableRetryPolicy) (worker : l.workerType = .tableSync tableId)
      (live : l.live = false) (phase : l.phase = .engaged) :
      WorkerStep wal l w { l with phase := .failed } (w.setAndStore tableId (.errored e policy))
  | rollback (l : ApplyLoop) (w : World) (tableId : TableId) (previous : TableState)
      (store : Store) (worker : l.workerType = .tableSync tableId) (live : l.live = false)
      (phase : l.phase = .failed)
      (rolled : w.store.rollbackTableState tableId = .ok (previous, store)) :
      WorkerStep wal l w { l with phase := .engaged } (w.rollback tableId previous store)
  | countAttempts (l : ApplyLoop) (w : World) (tableId : TableId) (attempts : Nat)
      (worker : l.workerType = .tableSync tableId) :
      WorkerStep wal l w l (w.setRetryAttempts tableId attempts)
  | finish (l : ApplyLoop) (w : World) (tableId : TableId)
      (worker : l.workerType = .tableSync tableId) (live : l.live = false) :
      WorkerStep wal l w { l with phase := .idle } (w.finishWorker tableId)

def ApplyLoop.Aside (l l' : ApplyLoop) : Prop :=
  ∃ live phase attempts startLsn copySchema,
    (live = true → l.live = true ∧ startLsn = l.startLsn) ∧
    l' = { l with
      live := live
      phase := phase
      retryAttempts := attempts
      startLsn := startLsn
      copySchema := copySchema }

lemma WorkerStep.loop_cases {wal : Option Wal} {l l' : ApplyLoop} {w w' : World}
    (h : WorkerStep wal l w l' w') :
    LoopStep l w l' w' ∨
      (∃ decoders target, l' = l.startLoop wal l.startLsn decoders target) ∨ l.Aside l' := by
  cases h with
  | loop h => exact .inl h
  | startApply => exact .inr (.inl ⟨_, _, rfl⟩)
  | follow => exact .inr (.inl ⟨_, _, rfl⟩)
  | leave => exact .inr (.inr ⟨false, _, _, _, _, nofun, rfl⟩)
  | retry => exact .inr (.inr ⟨l.live, _, _, _, _, fun h => ⟨h, rfl⟩, rfl⟩)
  | countAttempts => exact .inr (.inr ⟨l.live, _, _, _, _, fun h => ⟨h, rfl⟩, rfl⟩)
  | _ =>
    rename_i hlive _
    exact .inr (.inr ⟨l.live, _, _, _, _, fun h => by simp_all, rfl⟩)

/-- Only steps of a worker, and failures only where it may fail. -/
abbrev Works (wal : Option Wal) (worker : WorkerType) {α : Type} (p : Task α)
    (Q : α → ApplyLoop → Prop) (l : ApplyLoop) : Prop :=
  Prog.Sat (Coordinated worker) (WorkerStep wal) (fun _ => ApplyLoop.MayFail) p Q l

lemma LoopStep.phase_eq {l l' : ApplyLoop} {w w' : World} (h : LoopStep l w l' w') :
    l'.phase = l.phase := by
  cases h <;> rfl

section Works

variable {wal : Option Wal} {worker : WorkerType} {l : ApplyLoop} {α β : Type}

lemma Meets.works {p : Task α} {Q : α → ApplyLoop → Prop} (h : Meets worker p Q l)
    (hphase : l.phase = .engaged) :
    Works wal worker p (fun a l' => Q a l' ∧ l'.phase = .engaged) l := by
  have hkeep := h.preserve (R := fun l => l.phase = .engaged)
    (fun _ _ _ _ hstep hl => hstep.phase_eq.trans hl) hphase
  refine (hkeep.mono (fun _ _ h => h) ?_).weaken (fun _ _ h => h) fun _ _ _ _ => .loop
  intro e l' hl'
  exact ⟨by simp [hl'.2], fun _ => hl'.1⟩

lemma works_request {f : ApplyLoop → World → Except EtlError β × ApplyLoop × World}
    {Q : β → ApplyLoop → Prop} (hfail : l.MayFail)
    (h : ∀ w, Coordinated worker l w → WorkerStep wal l w (f l w).2.1 (f l w).2.2 ∧
      (∀ b, (f l w).1 = .ok b → Q b (f l w).2.1) ∧
      ∀ e, (f l w).1 = .error e → (f l w).2.1.MayFail) :
    Works wal worker (request f) Q l :=
  sat_request (fun w => .loop (.idle l w)) (fun _ => hfail) h

def perform (f : ApplyLoop → World → β × ApplyLoop × World) : Task β :=
  request fun l w => (.ok (f l w).1, (f l w).2)

lemma works_perform {f : ApplyLoop → World → β × ApplyLoop × World} {Q : β → ApplyLoop → Prop}
    (hfail : l.MayFail)
    (h : ∀ w, Coordinated worker l w → WorkerStep wal l w (f l w).2.1 (f l w).2.2 ∧
      Q (f l w).1 (f l w).2.1) :
    Works wal worker (perform f) Q l := by
  refine works_request hfail fun w hI => ⟨(h w hI).1, ?_, nofun⟩
  rintro b ⟨⟩
  exact (h w hI).2

lemma works_modifyLoop {f : ApplyLoop → ApplyLoop} {Q : Unit → ApplyLoop → Prop}
    (h : ∀ w, Coordinated worker l w → WorkerStep wal l w (f l) w) (hQ : Q () (f l)) :
    Works wal worker (modifyLoop f) Q l := by
  intro i w b l' w' hI hf
  cases hf
  exact ⟨h w hI, hQ⟩

lemma works_readLoop {f : ApplyLoop → β} {Q : β → ApplyLoop → Prop} (hQ : Q (f l) l) :
    Works wal worker (readLoop f) Q l := by
  intro i w b l' w' hI hf
  cases hf
  exact ⟨.loop (.idle l w), hQ⟩

lemma works_inspect {f : World → β} {Q : β → ApplyLoop → Prop}
    (hQ : ∀ w, Coordinated worker l w → Q (f w) l) : Works wal worker (inspect f) Q l := by
  intro i w b l' w' hI hf
  cases hf
  exact ⟨.loop (.idle l w), hQ w hI⟩

end Works

end Etl
