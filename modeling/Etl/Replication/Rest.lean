import Etl.Replication.Step

/-!
# What holds between the messages of an apply loop

`Rest` is kept wherever no message is handled. Mainly: while a table-sync loop that asked to
complete has not handed over, a batch or a write is left whose result will do it.
-/

namespace Etl

namespace ApplyLoop

variable (l : ApplyLoop)

def Below : Prop :=
  (∀ lsn, l.state.lastCommitEndLsn = some lsn → lsn < l.target) ∧
  ∀ metadata, l.state.pendingFlushResult = some metadata →
    ∀ lsn, metadata.commitEndLsn = some lsn → lsn < l.target

/-- It carries a commit that reaches the target, or is the barrier once everything up to it has been
received. -/
def LastWrite (metadata : WriteMetadata) : Prop :=
  metadata.durability = .requireDurable ∧ l.state.eventBatch.events = [] ∧
    l.state.lastCommitEndLsn = none ∧
    ((∃ lsn, metadata.commitEndLsn = some lsn ∧ l.target ≤ lsn) ∨
      metadata.eventCount = 0 ∧ l.target ≤ l.state.progress.lastReceivedLsn)

/-- The batch has a commit that reaches the target, and a write in flight has not. -/
structure LastBatch : Prop where
  batch : l.state.eventBatch.events ≠ []
  reached : ∃ lsn, l.state.lastCommitEndLsn = some lsn ∧ l.target ≤ lsn
  earlier : ∀ metadata, l.state.pendingFlushResult = some metadata →
    ∀ lsn, metadata.commitEndLsn = some lsn → lsn < l.target

/-- The last batch is buffered, or the last write in flight. -/
def Terminal : Prop :=
  l.LastBatch ∨ ∃ metadata, l.state.pendingFlushResult = some metadata ∧ l.LastWrite metadata

/-- What a table-sync loop keeps between messages for its completion. -/
structure Completion : Prop where
  below : l.state.exitIntent ≠ some .complete → l.Below
  closed : l.state.exitIntent = some .complete → l.state.remoteFinalLsn = none
  done : l.done = true → l.state.exitIntent = some .complete ∧ l.state.isQuiescent

/-- Outside a transaction, work not yet durable is known by a commit's end. -/
structure Accounted : Prop where
  batch : l.state.remoteFinalLsn = none → l.state.eventBatch.events ≠ [] →
    l.state.lastCommitEndLsn ≠ none
  write : l.state.remoteFinalLsn = none → ∀ metadata, l.state.pendingFlushResult = some metadata →
    0 < metadata.eventCount → metadata.commitEndLsn ≠ none ∨ l.state.lastCommitEndLsn ≠ none
  interval : l.state.remoteFinalLsn = none → l.state.pendingDurabilityInterval = true →
    l.state.lastCommitEndLsn ≠ none ∨
      ∃ metadata, l.state.pendingFlushResult = some metadata ∧ metadata.commitEndLsn ≠ none

structure Resting : Prop extends AtRest l where
  live : l.live = true
  stopping : l.stopping = true → l.state.exitIntent ≠ none
  accounted : l.Accounted
  completion : ∀ tableId, l.workerType = .tableSync tableId → l.Completion
  incomplete : l.workerType = .apply → l.state.exitIntent ≠ some .complete

/-- In addition, a table-sync loop that asked to complete has handed over or has the work that will
do it. -/
structure Rest : Prop extends Resting l where
  terminal : ∀ tableId, l.workerType = .tableSync tableId → l.state.exitIntent = some .complete →
    l.done = true ∨ l.Terminal

variable {l}

lemma Below.congr {l' : ApplyLoop} (h : l.Below)
    (hcommit : l'.state.lastCommitEndLsn = l.state.lastCommitEndLsn)
    (hpending : l'.state.pendingFlushResult = l.state.pendingFlushResult)
    (htarget : l'.target = l.target) : l'.Below := by
  unfold Below at *
  rwa [hcommit, hpending, htarget]

lemma Resting.going (hrest : l.Resting) (hintake : l.state.exitIntent = none) :
    l.stopping = false := by
  by_contra h
  exact hrest.stopping (by simpa using h) hintake

variable {tableId : TableId}

lemma Resting.done_eq_false (hrest : l.Resting)
    (hworker : l.workerType = .tableSync tableId) (hintake : l.state.exitIntent = none) :
    l.done = false := by
  by_contra h
  rw [((hrest.completion tableId hworker).done (by simpa using h)).1] at hintake
  cases hintake

structure SameCore (l l' : ApplyLoop) : Prop where
  workerType : l'.workerType = l.workerType
  handling : l'.handling = l.handling
  tx : l'.tx = l.tx
  txMessages : l'.txMessages = l.txMessages
  txOrdinal : l'.state.txOrdinal = l.state.txOrdinal
  waiting : l'.waiting = l.waiting
  live : l'.live = l.live
  stopping : l'.stopping = l.stopping
  target : l'.target = l.target
  done : l'.done = l.done
  remoteFinal : l'.state.remoteFinalLsn = l.state.remoteFinalLsn
  commitEnd : l'.state.lastCommitEndLsn = l.state.lastCommitEndLsn
  batch : l'.state.eventBatch = l.state.eventBatch
  pending : l'.state.pendingFlushResult = l.state.pendingFlushResult
  exit : l'.state.exitIntent = l.state.exitIntent
  interval : l'.state.pendingDurabilityInterval = l.state.pendingDurabilityInterval
  received : l.state.progress.lastReceivedLsn ≤ l'.state.progress.lastReceivedLsn

namespace SameCore

variable {l' : ApplyLoop}

protected lemma refl (l : ApplyLoop) : SameCore l l := by
  constructor <;> rfl

protected lemma trans {l'' : ApplyLoop} (h : SameCore l l') (h' : SameCore l' l'') :
    SameCore l l'' where
  workerType := h'.workerType.trans h.workerType
  handling := h'.handling.trans h.handling
  tx := h'.tx.trans h.tx
  txMessages := h'.txMessages.trans h.txMessages
  txOrdinal := h'.txOrdinal.trans h.txOrdinal
  waiting := h'.waiting.trans h.waiting
  live := h'.live.trans h.live
  stopping := h'.stopping.trans h.stopping
  target := h'.target.trans h.target
  done := h'.done.trans h.done
  remoteFinal := h'.remoteFinal.trans h.remoteFinal
  commitEnd := h'.commitEnd.trans h.commitEnd
  batch := h'.batch.trans h.batch
  pending := h'.pending.trans h.pending
  exit := h'.exit.trans h.exit
  interval := h'.interval.trans h.interval
  received := h.received.trans h'.received

lemma isQuiescent (h : SameCore l l') : l'.state.isQuiescent = l.state.isQuiescent := by
  simp only [ApplyLoopState.isQuiescent, ApplyLoopState.handlingTransaction,
    ApplyLoopState.hasUnresolvedBatchWork, ApplyLoopState.hasPendingBatch,
    ApplyLoopState.hasPendingFlushResult, h.remoteFinal, h.batch, h.pending, h.commitEnd]

lemma atRest (h : SameCore l l') (hl : l.AtRest) : l'.AtRest where
  handling := h.handling.trans hl.handling
  tx := by rw [h.tx, hl.tx, h.remoteFinal]
  waiting := h.waiting.trans hl.waiting
  ordinal := by
    rw [h.tx, h.txOrdinal, h.txMessages]
    exact hl.ordinal

lemma terminal (h : SameCore l l') (hl : l.Terminal) : l'.Terminal := by
  rcases hl with hlast | ⟨metadata, hpending, hdur, hbatch, hcommit, hlast⟩
  · refine .inl ⟨by rw [h.batch]; exact hlast.batch, ?_, ?_⟩
    · rw [h.commitEnd, h.target]
      exact hlast.reached
    · rw [h.pending, h.target]
      exact hlast.earlier
  · refine .inr ⟨metadata, by rw [h.pending, hpending], hdur, by rwa [h.batch], by rwa [h.commitEnd],
      ?_⟩
    rw [h.target]
    exact hlast.imp_right fun hb => ⟨hb.1, hb.2.trans h.received⟩

lemma completion (h : SameCore l l') (hl : l.Completion) : l'.Completion where
  below hexit := (hl.below (by rwa [← h.exit])).congr h.commitEnd h.pending h.target
  closed hexit := by
    rw [h.remoteFinal]
    exact hl.closed (by rwa [← h.exit])
  done hdone := by
    rw [h.exit, h.isQuiescent]
    exact hl.done (by rwa [← h.done])

lemma accounted (h : SameCore l l') (hl : l.Accounted) : l'.Accounted where
  batch := by
    rw [h.remoteFinal, h.batch, h.commitEnd]
    exact hl.batch
  write := by
    rw [h.remoteFinal, h.pending, h.commitEnd]
    exact hl.write
  interval := by
    rw [h.remoteFinal, h.interval, h.commitEnd, h.pending]
    exact hl.interval

lemma resting (h : SameCore l l') (hl : l.Resting) : l'.Resting where
  toAtRest := h.atRest hl.toAtRest
  live := h.live.trans hl.live
  stopping hstop := by
    rw [h.exit]
    exact hl.stopping (by rwa [← h.stopping])
  accounted := h.accounted hl.accounted
  completion tableId hworker := h.completion (hl.completion tableId (by rwa [← h.workerType]))
  incomplete hworker := by
    rw [h.exit]
    exact hl.incomplete (by rwa [← h.workerType])

lemma rest (h : SameCore l l') (hl : l.Rest) : l'.Rest where
  toResting := h.resting hl.toResting
  terminal tableId hworker hexit := by
    rw [h.done]
    exact (hl.terminal tableId (by rwa [← h.workerType]) (by rwa [← h.exit])).imp_right h.terminal

lemma touch (l : ApplyLoop) (x : Inert) :
    SameCore l { l with state := l.state.touch x } := by
  constructor <;> rfl

lemma of_touch {st : ApplyLoopState} (h : st = l.state.touch st.inert) :
    SameCore l { l with state := st } := by
  rw [h]
  exact touch l _

end SameCore

lemma step_touch {st : ApplyLoopState} (h : st = l.state.touch st.inert)
    (htended : l.state.Tended → st.Tended) (w : World) :
    LoopStep l w { l with state := st } w := by
  rw [h] at htended ⊢
  exact .touch l w _ htended

lemma Accounted.interval_eq_false (h : l.Accounted) (hq : l.state.isQuiescent) :
    l.state.pendingDurabilityInterval = false := by
  obtain ⟨hfinal, -, hpending, hcommit⟩ := ApplyLoopState.isQuiescent_iff.1 hq
  by_contra hinterval
  rcases h.interval hfinal (by simpa using hinterval) with hsome | ⟨metadata, hsome, -⟩
  · exact hsome hcommit
  · rw [hpending] at hsome
    cases hsome

lemma Accounted.not_isQuiescent (h : l.Accounted)
    (hwork : l.state.eventBatch.events ≠ [] ∨ l.state.pendingDurabilityInterval = true) :
    ¬ l.state.isQuiescent := by
  intro hq
  rcases hwork with hbatch | hinterval
  · exact hbatch (ApplyLoopState.isQuiescent_iff.1 hq).2.1
  · rw [h.interval_eq_false hq] at hinterval
    cases hinterval

lemma Rest.dispatch (hrest : l.Rest) {batch : EventBatch}
    (hwhole : batch.events = l.state.eventBatch.events) (hfree : l.state.pendingFlushResult = none)
    (hwork : l.state.eventBatch.events ≠ [] ∨ l.state.pendingDurabilityInterval = true) :
    (l.dispatch (l.state.writeMetadata batch)).Rest where
  handling := hrest.handling
  tx := hrest.tx
  waiting := hrest.waiting
  ordinal := hrest.ordinal
  live := hrest.live
  stopping := hrest.stopping
  accounted :=
    { batch := fun _ hne => absurd rfl hne
      write := by
        rintro hfinal metadata ⟨⟩ hcount
        refine .inl (hrest.accounted.batch hfinal ?_)
        rintro hnil
        simp [ApplyLoopState.writeMetadata, hwhole, hnil] at hcount
      interval := by
        intro hfinal hinterval
        refine .inr ⟨_, rfl, ?_⟩
        rcases hrest.accounted.interval hfinal hinterval with hsome | ⟨metadata, hsome, -⟩
        · exact hsome
        · rw [hfree] at hsome
          cases hsome }
  completion tableId hworker := by
    have hl := hrest.completion tableId hworker
    refine ⟨?_, hl.closed, fun hdone => ?_⟩
    · intro hexit
      refine ⟨by rintro lsn ⟨⟩, ?_⟩
      rintro metadata ⟨⟩ lsn hlsn
      exact (hl.below hexit).1 lsn hlsn
    · exact absurd (hl.done hdone).2 (hrest.accounted.not_isQuiescent hwork)
  incomplete := hrest.incomplete
  terminal tableId hworker hexit := by
    rcases hrest.terminal tableId hworker hexit with hdone | hlast | ⟨metadata, hpending, -⟩
    · exact absurd ((hrest.completion tableId hworker).done hdone).2
        (hrest.accounted.not_isQuiescent hwork)
    · obtain ⟨lsn, hlsn, hle⟩ := hlast.reached
      refine .inr (.inr ⟨_, rfl, ?_, rfl, rfl, .inl ⟨lsn, hlsn, hle⟩⟩)
      simp [ApplyLoopState.writeMetadata, show l.state.exitIntent = some .complete from hexit]
    · rw [hfree] at hpending
      cases hpending

variable {metadata : WriteMetadata}

lemma Rest.accept (hrest : l.Rest) (hpending : l.state.pendingFlushResult = some metadata)
    (hdefer : metadata.durability = .mayDefer) (x : Inert) : (l.accept metadata x).Rest where
  handling := hrest.handling
  tx := hrest.tx
  waiting := hrest.waiting
  ordinal := hrest.ordinal
  live := hrest.live
  stopping := hrest.stopping
  accounted :=
    { batch := fun hfinal hne hnone =>
        hrest.accounted.batch hfinal hne (ApplyLoopState.laterCommitEnd_eq_none_iff.1 hnone).1
      write := by rintro - metadata ⟨⟩
      interval := by
        intro hfinal hinterval
        refine .inl fun hnone => ?_
        obtain ⟨hlast, hcommit⟩ := ApplyLoopState.laterCommitEnd_eq_none_iff.1 hnone
        simp only [ApplyLoop.accept, ApplyLoopState.touch, ApplyLoopState.accept, Bool.or_eq_true,
          decide_eq_true_eq] at hinterval
        rcases hinterval with hopen | hcount
        · rcases hrest.accounted.interval hfinal hopen with h | ⟨m, hm, h⟩
          · exact h hlast
          · rw [hpending] at hm
            cases hm
            exact h hcommit
        · rcases hrest.accounted.write hfinal metadata hpending hcount with h | h
          · exact h hcommit
          · exact h hlast }
  completion tableId hworker := by
    have hl := hrest.completion tableId hworker
    refine ⟨fun hexit => ⟨fun lsn hlsn => ?_, by rintro metadata ⟨⟩⟩, hl.closed, fun hdone => ?_⟩
    · rcases (ApplyLoopState.laterCommitEnd_eq_some hlsn).1 with h | h
      · exact (hl.below hexit).1 lsn h
      · exact (hl.below hexit).2 metadata hpending lsn h
    · have hq := ApplyLoopState.isQuiescent_iff.1 (hl.done hdone).2
      rw [hpending] at hq
      cases hq.2.2.1
  incomplete := hrest.incomplete
  terminal tableId hworker hexit := by
    rcases hrest.terminal tableId hworker hexit with hdone | hlast | ⟨m, hm, hlast⟩
    · exact .inl hdone
    · obtain ⟨lsn, hlsn, hle⟩ := hlast.reached
      refine .inr (.inl ⟨hlast.batch, ?_, by rintro metadata ⟨⟩⟩)
      obtain ⟨later, hlater⟩ : ∃ later, ApplyLoopState.laterCommitEnd l.state.lastCommitEndLsn
          metadata.commitEndLsn = some later := by
        refine Option.ne_none_iff_exists'.1 fun hnone => ?_
        rw [(ApplyLoopState.laterCommitEnd_eq_none_iff.1 hnone).1] at hlsn
        cases hlsn
      exact ⟨later, hlater,
        hle.trans ((ApplyLoopState.laterCommitEnd_eq_some hlater).2.1 lsn hlsn)⟩
    · rw [hpending] at hm
      cases hm
      rw [hlast.1] at hdefer
      cases hdefer

lemma Resting.settle (hrest : l.Resting)
    (hpending : l.state.pendingFlushResult = some metadata) (x : Inert) :
    (l.settle metadata x).Resting where
  handling := hrest.handling
  tx := hrest.tx
  waiting := hrest.waiting
  ordinal := hrest.ordinal
  live := hrest.live
  stopping := hrest.stopping
  accounted :=
    { batch := hrest.accounted.batch
      write := by rintro - metadata ⟨⟩
      interval := by rintro - ⟨⟩ }
  completion tableId hworker := by
    have hl := hrest.completion tableId hworker
    refine ⟨fun hexit => ⟨(hl.below hexit).1, by rintro metadata ⟨⟩⟩, hl.closed, fun hdone => ?_⟩
    have hq := ApplyLoopState.isQuiescent_iff.1 (hl.done hdone).2
    rw [hpending] at hq
    cases hq.2.2.1
  incomplete := hrest.incomplete

/-- The commit does not reach the target, or only the handover is left. -/
lemma Rest.settle_cases (hrest : l.Rest) (hworker : l.workerType = .tableSync tableId)
    (hpending : l.state.pendingFlushResult = some metadata) (x : Inert) :
    (∀ lsn, metadata.commitEndLsn = some lsn → lsn < l.target) ∧
        (l.state.exitIntent = some .complete → (l.settle metadata x).Terminal) ∨
      (l.settle metadata x).state.isQuiescent ∧
        ((∃ lsn, metadata.commitEndLsn = some lsn ∧ l.target ≤ lsn) ∨
          metadata.eventCount = 0 ∧ metadata.durability = .requireDurable ∧
            l.target ≤ l.state.progress.lastReceivedLsn) := by
  have hl := hrest.completion tableId hworker
  by_cases hexit : l.state.exitIntent = some .complete
  · rcases hrest.terminal tableId hworker hexit with hdone | hlast | ⟨m, hm, hdur, hbatch, hcommit, h⟩
    · have hq := ApplyLoopState.isQuiescent_iff.1 (hl.done hdone).2
      rw [hpending] at hq
      cases hq.2.2.1
    · exact .inl ⟨hlast.earlier metadata hpending,
        fun _ => .inl ⟨hlast.batch, hlast.reached, by rintro metadata ⟨⟩⟩⟩
    · rw [hpending] at hm
      cases hm
      refine .inr ⟨ApplyLoopState.isQuiescent_iff.2 ⟨hl.closed hexit, hbatch, rfl, hcommit⟩, ?_⟩
      exact h.imp_right fun h => ⟨h.1, hdur, h.2⟩
  · exact .inl ⟨(hl.below hexit).2 metadata hpending, fun h => absurd h hexit⟩

lemma Resting.finish (hrest : l.Resting) (hq : l.state.isQuiescent)
    (hworker : l.workerType ≠ .apply) :
    ({ l with
      state := l.state.recordExitIntent (some .complete)
      done := true } : ApplyLoop).Rest := by
  have hexit : (l.state.recordExitIntent (some .complete)).exitIntent = some .complete :=
    ApplyLoopState.recordExitIntent_eq_complete.2 (.inr rfl)
  have hfinal := (ApplyLoopState.isQuiescent_iff.1 hq).1
  exact
    { hrest with
      stopping := fun _ => by rw [hexit]; exact Option.some_ne_none _
      accounted := ⟨hrest.accounted.batch, hrest.accounted.write, hrest.accounted.interval⟩
      completion := fun _ _ => ⟨fun h => absurd hexit h, fun _ => hfinal, fun _ => ⟨hexit, hq⟩⟩
      incomplete := fun h => absurd h hworker
      terminal := fun _ _ _ => .inl rfl }

lemma Resting.barrier (hrest : l.Resting)
    (hworker : l.workerType = .tableSync tableId) (hfinal : l.state.remoteFinalLsn = none)
    (hcommit : l.state.lastCommitEndLsn.isSome)
    (hreached : l.target ≤ l.state.progress.lastReceivedLsn) (hintake : l.state.exitIntent = none) :
    (({ l with state := l.state.recordExitIntent (some .complete) } : ApplyLoop).dispatch
      ((l.state.recordExitIntent (some .complete)).writeMetadata .empty)).Rest := by
  have hexit : (l.state.recordExitIntent (some .complete)).exitIntent = some .complete :=
    ApplyLoopState.recordExitIntent_eq_complete.2 (.inr rfl)
  exact
    { hrest with
      stopping := fun _ hnone => by
        have h := hexit.symm.trans hnone
        cases h
      accounted :=
        { batch := fun _ h => absurd rfl h
          write := by
            rintro - metadata ⟨⟩ h
            exact absurd h (lt_irrefl 0)
          interval := fun _ _ => .inr ⟨_, rfl, Option.isSome_iff_ne_none.1 hcommit⟩ }
      completion := fun t _ => by
        refine ⟨fun h => absurd hexit h, fun _ => hfinal, fun hdone => ?_⟩
        have h := ((hrest.completion tableId hworker).done hdone).1
        rw [hintake] at h
        cases h
      incomplete := fun h => by
        rw [show l.workerType = .apply from h] at hworker
        cases hworker
      terminal := fun _ _ _ =>
        .inr (.inr ⟨_, rfl, rfl, rfl, rfl, .inr ⟨rfl, hreached⟩⟩) }

lemma Rest.pause (hrest : l.Rest) (stopping : Bool) :
    ({ l with
      state := l.state.recordExitIntent (some .pause)
      stopping := stopping } : ApplyLoop).Rest := by
  have hexit : (l.state.recordExitIntent (some .pause)).exitIntent = some .complete →
      l.state.exitIntent = some .complete := fun h =>
    (ApplyLoopState.recordExitIntent_eq_complete.1 h).resolve_right (by simp)
  have hexit' : l.state.exitIntent = some .complete →
      (l.state.recordExitIntent (some .pause)).exitIntent = some .complete := fun h =>
    ApplyLoopState.recordExitIntent_eq_complete.2 (.inl h)
  exact
    { hrest with
      stopping := fun _ h => absurd (ApplyLoopState.recordExitIntent_eq_none.1 h).2 (by simp)
      accounted := ⟨hrest.accounted.batch, hrest.accounted.write, hrest.accounted.interval⟩
      completion := fun tableId hworker =>
        have hl := hrest.completion tableId hworker
        ⟨fun h => hl.below fun h' => h (hexit' h'), fun h => hl.closed (hexit h),
          fun h => ⟨hexit' (hl.done h).1, (hl.done h).2⟩⟩
      incomplete := fun hworker h => hrest.incomplete hworker (hexit h)
      terminal := fun tableId hworker h =>
        (hrest.terminal tableId hworker (hexit h)).imp_right
          (Or.imp (fun hlast => ⟨hlast.batch, hlast.reached, hlast.earlier⟩) fun hlast => hlast) }

end ApplyLoop

end Etl
