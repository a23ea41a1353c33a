import Etl.Replication.Messages

/-!
# The apply loop

One round: coordination while quiescent, then whichever signal comes first. A loop that has been
asked to stop drains the work it has started.
-/

namespace Etl

open ApplyLoop

def handleConnectionUpdate : ConnectionUpdate → Except EtlError Unit
  | .running => .ok ()
  | .ended =>
    .error ⟨.sourceConnectionFailed, "PostgreSQL connection updates ended during the apply loop"⟩
  | .terminated =>
    .error ⟨.sourceConnectionFailed, "PostgreSQL connection terminated during the apply loop"⟩
  | .errored =>
    .error ⟨.sourceConnectionFailed, "PostgreSQL connection errored during the apply loop"⟩

def buildStreamEndedError (isClosed : Bool) : EtlError :=
  if isClosed then
    ⟨.sourceConnectionFailed, "PostgreSQL connection has been closed during the apply loop"⟩
  else ⟨.sourceConnectionFailed, "Replication stream ended unexpectedly during the apply loop"⟩

def handleShutdownSignal : Task Unit := do
  recordExitIntent (some .pause)
  let st ← readLoop (·.state)
  if st.hasUnresolvedBatchWork then
    modifyLoop fun l => { l with state := { l.state with drainingForShutdown := true } }
  else sendShutdownFlushStatusUpdate

def activeBranch (l : ApplyLoop) (w : World) : Branch → Bool
  | .shutdown => w.shutdown
  | .connectionUpdate _ => true
  | .flushResult _ => l.state.hasPendingFlushResult
  | .memoryUpdate _ => true
  | .batchDeadline => l.state.canWaitForDeadline && l.state.flushDeadline
  | .streamMessage (.ok m) => l.state.canProcessMessages && l.accepts m
  | .streamMessage (.error _) => l.state.canProcessMessages
  | .streamEnded _ => l.state.canProcessMessages
  | .keepAliveDeadline => true

def drainingBranch (l : ApplyLoop) (w : World) : Branch → Bool
  | .shutdown => false
  | .streamMessage _ => false
  | .streamEnded _ => false
  | branch => activeBranch l w branch

/-- Wait for the first enabled signal. A message is taken together with its positions. -/
def select (enabled : ApplyLoop → World → Branch → Bool) : Task Branch :=
  Prog.atom
    (fun i l w =>
      if enabled l w i.branch then
        match i.branch with
        | .streamMessage (.ok m) => some (i.branch, l.receive m, w)
        | branch => some (branch, l, w)
      else none)
    .done

def handleBranch (config : Config) : Branch → Task Unit
  | .shutdown => handleShutdownSignal
  | .connectionUpdate update => Prog.ofExcept (handleConnectionUpdate update)
  | .flushResult result => handleFlushResult result
  | .memoryUpdate (some true) => flushBatch
  | .memoryUpdate _ => pure ()
  | .batchDeadline => flushBatch
  | .streamMessage (.ok m) => handleReplicationMessageAndFlush config m
  | .streamMessage (.error e) => .fail e
  | .streamEnded isClosed => .fail (buildStreamEndedError isClosed)
  | .keepAliveDeadline => sendStatusUpdate true

def runActiveIteration (config : Config) : Task (Option ApplyLoopResult) := do
  maybeProcessSyncingTablesWhenQuiescent
  match ← readLoop (·.state.tryFinishActiveIteration) with
  | some result => pure (some result)
  | none =>
    let branch ← select activeBranch
    handleBranch config branch
    readLoop (·.state.tryFinishActiveIteration)

def tryFinishDraining : Task (Option ApplyLoopResult) := do
  let st ← readLoop (·.state)
  if st.hasUnresolvedBatchWork then pure none
  else
    sendShutdownFlushStatusUpdate
    readLoop fun l => some l.state.finishShutdown

def runDrainingShutdownIteration (config : Config) : Task (Option ApplyLoopResult) := do
  match ← tryFinishDraining with
  | some result => pure (some result)
  | none =>
    let branch ← select drainingBranch
    handleBranch config branch
    tryFinishDraining

def runIteration (config : Config) : Task (Option ApplyLoopResult) := do
  let st ← readLoop (·.state)
  if st.drainingForShutdown then runDrainingShutdownIteration config else runActiveIteration config

/-! ## What a round does -/

section Iteration

variable {worker : WorkerType} {l : ApplyLoop}

lemma meets_handleShutdownSignal (hrest : l.Rest) :
    Meets worker handleShutdownSignal (fun _ => Rest) l := by
  refine (meets_recordExitIntent (by simp)).bind ?_
  rintro - l₁ rfl
  have hrest₁ := hrest.pause l.stopping
  refine (meets_readLoop (Q := fun _ => Rest) fun _ => hrest₁).bind ?_
  intro st l₂ hrest₂
  exact Prog.sat_ite (fun _ => meets_touch
      (f := fun st => { st with drainingForShutdown := true }) hrest₂ rfl
      fun h => h.congr rfl rfl rfl rfl rfl)
    fun _ => meets_sendStatusUpdate_rest true hrest₂

def Signalled (branch : Branch) (l : ApplyLoop) : Prop :=
  match branch with
  | .streamMessage (.ok m) => ∃ l₀ : ApplyLoop, l₀.Rest ∧ l₀.state.exitIntent = none ∧ l = l₀.receive m
  | _ => l.Rest

lemma meets_select {enabled : ApplyLoop → World → Branch → Bool}
    (henabled : ∀ l w m, enabled l w (.streamMessage (.ok m)) → l.state.canProcessMessages ∧
      l.accepts m) (hrest : l.Rest) :
    Meets worker (select enabled) Signalled l := by
  refine Prog.sat_atom ?_
  intro i w branch l' w' hI hf
  split at hf
  · rename_i hen
    split at hf
    · rename_i m hbranch
      cases hf
      rw [hbranch] at hen ⊢
      obtain ⟨hcan, haccepts⟩ := henabled l w m hen
      have hintake := (ApplyLoopState.canProcessMessages_iff.1 hcan).1
      exact ⟨.receive l w m hrest.live hintake hrest.toAtRest haccepts
        fun _ hw => hrest.done_eq_false hw hintake, l, hrest, hintake, rfl⟩
    · rename_i hbranch
      cases hf
      refine ⟨.idle l w, ?_⟩
      unfold Signalled
      split
      · exact absurd ‹_› (hbranch _)
      · exact hrest
  · cases hf

lemma meets_handleBranch (config : Config) {branch : Branch} (hl : Signalled branch l) :
    Meets worker (handleBranch config branch) (fun _ => Rest) l := by
  unfold Signalled at hl
  split at hl
  · obtain ⟨l₀, hrest, hintake, rfl⟩ := hl
    exact meets_handleReplicationMessageAndFlush config hrest hintake _
  · unfold handleBranch
    split
    · exact meets_handleShutdownSignal hl
    · exact Prog.sat_ofExcept (fun _ _ => hl) fun _ _ => hl.waiting
    · exact meets_handleFlushResult hl _
    · exact meets_flushBatch hl
    · exact hl
    · exact meets_flushBatch hl
    · rename_i hnot
      exact absurd rfl (hnot _)
    · exact hl.waiting
    · exact hl.waiting
    · exact meets_sendStatusUpdate_rest true hl

def Finishes (result : Option ApplyLoopResult) (l : ApplyLoop) : Prop :=
  l.Rest ∧ (result = some .completed → l.state.exitIntent = some .complete ∧
    l.state.hasUnresolvedBatchWork = false)

lemma exitResult_eq_completed {st : ApplyLoopState} (h : st.exitResult = some .completed) :
    st.exitIntent = some .complete := by
  unfold ApplyLoopState.exitResult at h
  rcases hexit : st.exitIntent with _ | (_ | _) <;> simp [hexit, ExitIntent.toResult] at h ⊢

lemma meets_tryFinishActiveIteration (hrest : l.Rest) :
    Meets worker (readLoop (·.state.tryFinishActiveIteration)) Finishes l := by
  refine meets_readLoop fun _ => ⟨hrest, fun h => ?_⟩
  unfold ApplyLoopState.tryFinishActiveIteration at h
  split at h
  · cases h
  · rename_i hwork
    simp only [Bool.or_eq_true, not_or, Bool.not_eq_true] at hwork
    exact ⟨exitResult_eq_completed h, hwork.2⟩

lemma meets_runActiveIteration (config : Config) (hrest : l.Rest) :
    Meets worker (runActiveIteration config) Finishes l := by
  refine (meets_maybeProcessSyncingTablesWhenQuiescent hrest).bind ?_
  intro _ l₁ hrest₁
  refine (meets_tryFinishActiveIteration hrest₁).bind ?_
  intro result l₂ hl₂
  cases result with
  | some result => exact hl₂
  | none =>
    refine (meets_select ?_ hl₂.1).bind ?_
    · intro l w m h
      simpa [activeBranch] using h
    · intro branch l₃ hl₃
      refine (meets_handleBranch config hl₃).bind ?_
      intro _ l₄ hrest₄
      exact meets_tryFinishActiveIteration hrest₄

lemma meets_tryFinishDraining (hrest : l.Rest) :
    Meets worker tryFinishDraining Finishes l := by
  refine (meets_readLoop (Q := fun st l' => st = l.state ∧ l = l') fun _ => ⟨rfl, rfl⟩).bind ?_
  rintro st l' ⟨rfl, rfl⟩
  refine Prog.sat_ite (fun _ => ⟨hrest, by simp⟩) fun hwork => ?_
  refine (meets_sendStatusUpdate true hrest.live hrest.tx hrest.handling hrest.waiting).bind ?_
  rintro - l₁ ⟨stream, sent, reported, rfl⟩
  refine meets_readLoop fun _ => ⟨(l.sameCore_stream stream sent reported).rest hrest, fun h => ?_⟩
  refine ⟨exitResult_eq_completed ?_, by simpa using hwork⟩
  simp only [ApplyLoopState.finishShutdown, Option.some.injEq] at h
  rcases hexit : l.state.exitResult with _ | result <;> simp_all

lemma meets_runDrainingShutdownIteration (config : Config) (hrest : l.Rest) :
    Meets worker (runDrainingShutdownIteration config) Finishes l := by
  refine (meets_tryFinishDraining hrest).bind ?_
  intro result l₁ hl₁
  cases result with
  | some result => exact hl₁
  | none =>
    refine (meets_select ?_ hl₁.1).bind ?_
    · intro l w m h
      cases h
    · intro branch l₂ hl₂
      refine (meets_handleBranch config hl₂).bind ?_
      intro _ l₃ hrest₃
      exact meets_tryFinishDraining hrest₃

lemma meets_runIteration (config : Config) (hrest : l.Rest) :
    Meets worker (runIteration config) Finishes l := by
  refine (meets_readLoop (Q := fun _ => Rest) fun _ => hrest).bind ?_
  intro st l₁ hrest₁
  exact Prog.sat_ite (fun _ => meets_runDrainingShutdownIteration config hrest₁)
    fun _ => meets_runActiveIteration config hrest₁

end Iteration

end Etl
