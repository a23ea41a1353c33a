import Etl.Replication.Rest

/-!
# Writing batches and reporting positions

Status updates, the dispatch of a batch and the decision when to do it.
-/

namespace Etl

/-! ## Atoms -/

def modifyLoop (f : ApplyLoop → ApplyLoop) : Task Unit := Prog.act fun l => ((), f l)

def readLoop {β : Type} (f : ApplyLoop → β) : Task β := Prog.act fun l => (f l, l)

def request {β : Type} (f : ApplyLoop → World → Except EtlError β × ApplyLoop × World) : Task β :=
  Prog.call fun i l w =>
    match i.fault with
    | some e => some (.error e, l, w)
    | none => some (f l w)

/-- What a worker may assume at each of its atoms. The apply worker gives up a wait only because of
a shutdown. While a table-sync loop runs, the state of its table is its catchup target until it
hands over; before, it is as the worker left it, unless the apply worker answered its wait. -/
structure Coordinated (worker : WorkerType) (l : ApplyLoop) (w : World) : Prop where
  workerType : l.workerType = worker
  started : l.live = true → l.phase = .engaged
  stopping : worker = .apply → l.stopping = true → w.shutdown = true
  active : ∀ tableId, worker = .tableSync tableId → l.phase ≠ .idle → w.isActive tableId = true
  slotless : worker = .apply → l.phase = .slotless → w.slots .apply = none
  invalid : worker = .apply → l.phase = .invalid →
    ∀ slot, w.slots .apply = some slot → slot.invalidated = true
  starting : ∀ tableId, worker = .tableSync tableId → l.phase = .starting ∨ l.phase = .prepared →
    w.poolState tableId = some .init ∨ w.poolState tableId = some .dataSync ∨
      w.poolState tableId = some .finishedCopy
  copying : ∀ tableId, worker = .tableSync tableId → l.phase = .copying ∨ l.phase = .slotted →
    w.poolState tableId = some .dataSync
  copied : ∀ tableId, worker = .tableSync tableId → l.phase = .copied →
    w.poolState tableId = some .finishedCopy
  awaiting : ∀ tableId, worker = .tableSync tableId → l.phase = .waiting →
    w.poolState tableId = some (.syncWait l.startLsn) ∨
      ∃ lsn, w.poolState tableId = some (.catchup lsn)
  failed : ∀ tableId, worker = .tableSync tableId → l.phase = .failed →
    ∃ e policy, w.poolState tableId = some (.errored e policy)
  catchup : ∀ tableId, worker = .tableSync tableId → l.live = true → l.done = false →
    w.poolState tableId = some (.catchup l.target)
  handedOver : ∀ tableId, worker = .tableSync tableId → l.live = true → l.done = true →
    w.poolState tableId = some .ready ∨
      ∃ lsn payload, w.poolState tableId = some (.syncDone lsn payload)

/-- Only steps of the apply loop, and no failure while it waits for a table-sync worker. -/
abbrev Meets (worker : WorkerType) {α : Type} (p : Task α) (Q : α → ApplyLoop → Prop)
    (l : ApplyLoop) : Prop :=
  Prog.Sat (Coordinated worker) LoopStep (fun _ l' => l'.waiting = none) p Q l

section Atoms

variable {worker : WorkerType} {l : ApplyLoop} {E : EtlError → ApplyLoop → Prop} {β : Type}

lemma meets_modifyLoop {f : ApplyLoop → ApplyLoop} {Q : Unit → ApplyLoop → Prop}
    (hstep : ∀ w, Coordinated worker l w → LoopStep l w (f l) w)
    (hQ : l.workerType = worker → Q () (f l)) :
    Prog.Sat (Coordinated worker) LoopStep E (modifyLoop f) Q l := by
  intro i w b l' w' hI hf
  cases hf
  exact ⟨hstep w hI, hQ hI.workerType⟩

lemma meets_touch {f : ApplyLoopState → ApplyLoopState} (hrest : l.Rest)
    (hf : f l.state = l.state.touch (f l.state).inert)
    (htended : l.state.Tended → (f l.state).Tended) :
    Meets worker (modifyLoop fun l => { l with state := f l.state }) (fun _ => ApplyLoop.Rest) l := by
  exact meets_modifyLoop (fun w _ => ApplyLoop.step_touch hf htended w)
    fun _ => (ApplyLoop.SameCore.of_touch hf).rest hrest

lemma meets_readLoop {f : ApplyLoop → β} {Q : β → ApplyLoop → Prop}
    (hQ : l.workerType = worker → Q (f l) l) :
    Prog.Sat (Coordinated worker) LoopStep E (readLoop f) Q l := by
  intro i w b l' w' hI hf
  cases hf
  exact ⟨.idle l w, hQ hI.workerType⟩

def inspect (f : World → β) : Task β := Prog.atom (fun _ l w => some (f w, l, w)) .done

lemma meets_inspect {f : World → β} {Q : β → ApplyLoop → Prop}
    (hQ : ∀ w, Coordinated worker l w → Q (f w) l) :
    Prog.Sat (Coordinated worker) LoopStep E (inspect f) Q l := by
  refine Prog.sat_atom ?_
  intro i w b l' w' hI hf
  cases hf
  exact ⟨.idle l w, hQ w hI⟩

lemma sat_request {G : ApplyLoop → World → ApplyLoop → World → Prop}
    {f : ApplyLoop → World → Except EtlError β × ApplyLoop × World} {Q : β → ApplyLoop → Prop}
    (hidle : ∀ w, G l w l w) (hE : ∀ e, E e l)
    (h : ∀ w, Coordinated worker l w → G l w (f l w).2.1 (f l w).2.2 ∧
      (∀ b, (f l w).1 = .ok b → Q b (f l w).2.1) ∧ ∀ e, (f l w).1 = .error e → E e (f l w).2.1) :
    Prog.Sat (Coordinated worker) G E (request f) Q l := by
  refine Prog.sat_call ?_ ?_
  · intro i w b l' w' hI hf
    rcases hfault : i.fault with _ | e <;> simp only [hfault, Option.some.injEq, Prod.ext_iff] at hf
    · obtain ⟨hr, rfl, rfl⟩ := hf
      exact ⟨(h w hI).1, (h w hI).2.1 b hr⟩
    · exact absurd hf.1 (by simp)
  · intro i w e l' w' hI hf
    rcases hfault : i.fault with _ | e' <;> simp only [hfault, Option.some.injEq, Prod.ext_iff] at hf
    · obtain ⟨hr, rfl, rfl⟩ := hf
      exact ⟨(h w hI).1, (h w hI).2.2 e hr⟩
    · obtain ⟨-, rfl, rfl⟩ := hf
      exact ⟨hidle _, hE e⟩

lemma meets_request {f : ApplyLoop → World → Except EtlError β × ApplyLoop × World}
    {Q : β → ApplyLoop → Prop} (hwaiting : l.waiting = none)
    (hkept : ∀ w e, (f l w).1 = .error e → (f l w).2.1.waiting = none)
    (h : ∀ w, Coordinated worker l w → LoopStep l w (f l w).2.1 (f l w).2.2 ∧
      ∀ b, (f l w).1 = .ok b → Q b (f l w).2.1) :
    Meets worker (request f) Q l :=
  sat_request (LoopStep.idle l) (fun _ => hwaiting) fun w hI => ⟨(h w hI).1, (h w hI).2, hkept w⟩

lemma meets_request_read {f : ApplyLoop → World → Except EtlError β} {Q : β → ApplyLoop → Prop}
    (hwaiting : l.waiting = none)
    (h : ∀ w, Coordinated worker l w → ∀ b, f l w = .ok b → Q b l) :
    Meets worker (request fun l w => (f l w, l, w)) Q l :=
  meets_request hwaiting (fun _ _ _ => hwaiting) fun w hI => ⟨.idle l w, h w hI⟩

end Atoms

/-! ## Status updates -/

/-- A failed send may still have reached the server. -/
def sendStatusUpdate (force : Bool) : Task Unit :=
  Prog.call fun i l w =>
    let writeLsn := l.writeLsn
    let flushLsn := l.flushLsn
    if !force && l.stream.lastFlushLsn = some flushLsn && i.recent then some (.ok (), l, w)
    else
      let w' := w.confirmFlush l.workerType flushLsn i.delivered
      match i.fault with
      | some e => some (.error e, { l with sent := flushLsn :: l.sent }, w')
      | none =>
        some (.ok (),
          { l with
            stream := ⟨some writeLsn, some flushLsn⟩
            sent := flushLsn :: l.sent
            reported := (writeLsn, flushLsn) :: l.reported },
          w')

def sendShutdownFlushStatusUpdate : Task Unit := sendStatusUpdate true

namespace ApplyLoop

lemma sameCore_stream (l : ApplyLoop) (stream : StatusStream) (sent : List PgLsn)
    (reported : List (PgLsn × PgLsn)) :
    SameCore l { l with stream := stream, sent := sent, reported := reported } := by
  constructor <;> rfl

end ApplyLoop

variable {worker : WorkerType} {l : ApplyLoop}

lemma meets_sendStatusUpdate (force : Bool)
    (hlive : l.live = true) (htx : l.tx = l.state.remoteFinalLsn) (hhandling : l.handling = none)
    (hwaiting : l.waiting = none) :
    Meets worker (sendStatusUpdate force) (fun _ l' => ∃ stream sent reported,
      l' = { l with stream := stream, sent := sent, reported := reported }) l := by
  refine Prog.sat_call ?_ ?_
  · intro i w b l' w' _ hf
    simp only at hf
    split at hf
    · cases hf
      exact ⟨.idle _ _, _, _, _, rfl⟩
    · split at hf
      · cases hf
      · cases hf
        exact ⟨.status l w _ i.delivered hlive htx hhandling (.inr rfl) _ (.inr ⟨rfl, rfl⟩),
          _, _, _, rfl⟩
  · intro i w e l' w' _ hf
    simp only at hf
    split at hf
    · cases hf
    · split at hf
      · cases hf
        exact ⟨.status l w l.stream i.delivered hlive htx hhandling (.inl rfl) _ (.inl ⟨rfl, rfl⟩),
          hwaiting⟩
      · cases hf

lemma meets_sendStatusUpdate_state (force : Bool) (hrest : l.Rest) :
    Meets worker (sendStatusUpdate force) (fun _ l' => l'.Rest ∧ l'.state = l.state) l := by
  refine (meets_sendStatusUpdate force hrest.live hrest.tx hrest.handling hrest.waiting).mono ?_
    fun _ _ h => h
  rintro - l' ⟨stream, sent, reported, rfl⟩
  exact ⟨(l.sameCore_stream stream sent reported).rest hrest, rfl⟩

lemma meets_sendStatusUpdate_rest (force : Bool)
    (hrest : l.Rest) : Meets worker (sendStatusUpdate force) (fun _ => ApplyLoop.Rest) l :=
  (meets_sendStatusUpdate_state force hrest).mono (fun _ _ h => h.1) fun _ _ h => h

/-! ## Dispatching a batch -/

def keepAliveDuringWrite : Nat → Task Unit
  | 0 => pure ()
  | ticks + 1 => do
    sendStatusUpdate true
    keepAliveDuringWrite ticks

/-- The batch is taken and the result becomes pending before the destination is called. -/
def dispatchWriteEvents (batch : ApplyLoopState → EventBatch) : Task Unit := do
  let ticks ← Prog.atom
    (fun i l w => some (i.ticks, l.dispatch (l.state.writeMetadata (batch l.state)), w)) .done
  keepAliveDuringWrite ticks
  request fun l w => (.ok (), l, w)
  modifyLoop fun l => { l with state := l.state.resetFlushDeadline }

def flushBatch : Task Unit := do
  let st ← readLoop (·.state)
  if st.hasPendingBatch then
    if st.hasPendingFlushResult then
      modifyLoop fun l => { l with state := l.state.pauseProcessing }
    else dispatchWriteEvents (·.eventBatch)
  else if st.pendingDurabilityInterval && !st.hasPendingFlushResult then
    dispatchWriteEvents fun _ => .empty
  else pure ()

section Dispatch

variable {worker : WorkerType} {l : ApplyLoop}

lemma meets_keepAliveDuringWrite (ticks : Nat) (hrest : l.Rest) :
    Meets worker (keepAliveDuringWrite ticks) (fun _ l' => l'.Rest ∧ l'.state = l.state) l := by
  induction ticks generalizing l with
  | zero => exact ⟨hrest, rfl⟩
  | succ ticks ih =>
    refine (meets_sendStatusUpdate_state true hrest).bind ?_
    rintro - l₁ ⟨hrest₁, hstate₁⟩
    refine (ih hrest₁).mono ?_ fun _ _ h => h
    rintro - l₂ ⟨hrest₂, hstate₂⟩
    exact ⟨hrest₂, hstate₂.trans hstate₁⟩

lemma meets_dispatchWriteEvents {batch : ApplyLoopState → EventBatch}
    (hwhole : (batch l.state).events = l.state.eventBatch.events)
    (hfree : l.state.pendingFlushResult = none) (htx : l.tx = l.state.remoteFinalLsn)
    (hhandling : l.handling = none)
    (hrest : (l.dispatch (l.state.writeMetadata (batch l.state))).Rest) :
    Meets worker (dispatchWriteEvents batch) (fun _ => ApplyLoop.Rest) l := by
  -- the deadline is reset while the write is in flight and the batch is empty
  let InFlight (l' : ApplyLoop) : Prop :=
    l'.Rest ∧ l'.state.eventBatch.events = [] ∧ l'.state.pendingFlushResult ≠ none
  refine Prog.Sat.bind (R := fun _ => InFlight) ?_ ?_
  · refine Prog.sat_atom ?_
    intro i w ticks l' w' _ hf
    cases hf
    exact ⟨.dispatch l w (batch l.state) hwhole hfree htx hhandling, hrest, rfl, nofun⟩
  · rintro ticks l₁ ⟨hrest₁, hbatch₁, hpending₁⟩
    refine (meets_keepAliveDuringWrite ticks hrest₁).bind ?_
    rintro - l₂ ⟨hrest₂, hstate₂⟩
    rw [← hstate₂] at hbatch₁ hpending₁
    refine (meets_request_read (Q := fun _ => InFlight) hrest₂.waiting
      fun w _ _ _ => ⟨hrest₂, hbatch₁, hpending₁⟩).bind ?_
    rintro - l₃ ⟨hrest₃, hbatch₃, hpending₃⟩
    refine meets_touch hrest₃ rfl fun htended => ?_
    refine ApplyLoopState.tended_of_inFlight ?_ hbatch₃ hpending₃
    by_contra hpaused
    have hqueued := (htended.paused (by simpa [ApplyLoopState.resetFlushDeadline] using hpaused)).2
    simp [ApplyLoopState.hasPendingBatch, hbatch₃] at hqueued

lemma meets_flushBatch (hrest : l.Rest) :
    Meets worker flushBatch (fun _ => ApplyLoop.Rest) l := by
  refine (meets_readLoop (Q := fun st l' => l' = l ∧ st = l.state) fun _ => ⟨rfl, rfl⟩).bind ?_
  rintro st l' ⟨rfl, rfl⟩
  refine Prog.sat_ite (fun hbatch => Prog.sat_ite (fun hpending => ?_) fun hfree => ?_)
    fun hbatch => Prog.sat_ite (fun hbarrier => ?_) fun _ => hrest
  · exact meets_touch hrest rfl fun htended =>
      ⟨fun _ => ⟨hpending, hbatch⟩, htended.batch, htended.interval⟩
  · simp only [ApplyLoopState.hasPendingFlushResult, Option.isSome_iff_ne_none, not_not] at hfree
    simp only [ApplyLoopState.hasPendingBatch, Bool.not_eq_true', List.isEmpty_eq_false_iff]
      at hbatch
    exact meets_dispatchWriteEvents rfl hfree hrest.tx hrest.handling
      (hrest.dispatch rfl hfree (.inl hbatch))
  · simp only [ApplyLoopState.hasPendingBatch, Bool.not_eq_true', Bool.not_eq_false,
      List.isEmpty_iff] at hbatch
    simp only [ApplyLoopState.hasPendingFlushResult, Bool.and_eq_true, Bool.not_eq_true',
      Option.isSome_eq_false_iff, Option.isNone_iff_eq_none] at hbarrier
    exact meets_dispatchWriteEvents hbatch.symm hbarrier.2 hrest.tx hrest.handling
      (hrest.dispatch hbatch.symm hbarrier.2 (.inr hbarrier.1))

end Dispatch

end Etl
