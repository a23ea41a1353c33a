import Etl.Guarantees.Batching

/-!
# Intake never wedges

A loop that has stopped taking messages is woken up by a write in flight or by the deadline of the
work it holds. Otherwise its next round returns.
-/

namespace Etl

namespace ApplyLoopState

variable {st : ApplyLoopState}

def intakeDisabled (st : ApplyLoopState) : Bool := !st.canProcessMessages || st.drainingForShutdown

lemma Tended.wakes (h : st.Tended) (hwork : st.hasUnresolvedBatchWork) :
    st.hasPendingFlushResult ∨ st.canWaitForDeadline ∧ st.flushDeadline := by
  by_cases hpending : st.hasPendingFlushResult
  · exact .inl hpending
  · have hbatch : st.hasPendingBatch := by simpa [hasUnresolvedBatchWork, hpending] using hwork
    have hactive : st.processingPaused = false := by
      by_contra hpaused
      exact hpending (h.paused (by simpa using hpaused)).1
    exact .inr ⟨by simp [canWaitForDeadline, hactive, hbatch], h.batch hbatch⟩

end ApplyLoopState

namespace ApplyLoop

variable {l l' : ApplyLoop} {w w' : World}

lemma tended_dispatch (h : l.state.Tended) (metadata : WriteMetadata)
    (hfree : l.state.pendingFlushResult = none) : (l.dispatch metadata).state.Tended := by
  refine ApplyLoopState.tended_of_inFlight ?_ rfl nofun
  by_contra hpaused
  have hpending := (h.paused (by simpa [dispatch, ApplyLoopState.handOver] using hpaused)).1
  simp [ApplyLoopState.hasPendingFlushResult, hfree] at hpending

lemma tended_step (h : l.state.Tended) (hlive : l'.live = true) (hstep : LoopStep l w l' w') :
    l'.state.Tended := by
  cases hstep with
  | touch x htended => exact htended h
  | push p x _ _ _ _ _ _ _ _ _ _ _ _ _ htended => exact htended h
  | dispatch batch _ hfree => exact tended_dispatch h _ hfree
  | resolveError => cases hlive
  | resolveAccepted _ _ _ _ htended => exact htended h
  | resolveDurable _ _ _ _ htended => exact htended h
  | queue _ _ _ htended => exact htended h
  | receive m =>
    cases m <;> exact h.congr rfl rfl rfl rfl rfl
  | recordPause =>
    unfold ApplyLoopState.recordExitIntent
    exact h.congr rfl rfl rfl rfl rfl
  | recordComplete =>
    unfold ApplyLoopState.recordExitIntent
    exact h.congr rfl rfl rfl rfl rfl
  | _ => exact h.congr rfl rfl rfl rfl rfl

end ApplyLoop

lemma System.Reachable.tended {config : Config} {Allowed : Memory → Memory → Prop} {s : System}
    (hs : s.Reachable config Allowed) (worker : WorkerType)
    (hlive : (s.memory.loops worker).live = true) : (s.memory.loops worker).state.Tended := by
  refine hs.loop_invariant (J := fun l => l.live = true → l.state.Tended) worker ?_ ?_ ?_ ?_ hlive
  · exact nofun
  · exact fun _ _ _ _ _ => ⟨nofun, nofun, nofun⟩
  · intro s worker l' w' _ h hstep hlive'
    exact ApplyLoop.tended_step (h (hstep.live_of_live hlive')) hlive' hstep
  · rintro l _ h ⟨live, _, _, _, _, hkept, rfl⟩ hlive'
    exact h (hkept hlive').1

/-! ## Returning -/

section Return

variable {l : ApplyLoop} {β : Type}

lemma ends_readLoop {f : ApplyLoop → β} {Q : β → ApplyLoop → Prop} (hQ : Q (f l) l) :
    (readLoop f).Ends Q l :=
  Prog.ends_act hQ

lemma ends_sendStatusUpdate (force : Bool) {Q : Unit → ApplyLoop → Prop}
    (hQ : ∀ l', l'.state = l.state → Q () l') : (sendStatusUpdate force).Ends Q l := by
  intro i w
  dsimp only
  split
  · exact ⟨_, _, _, rfl, hQ l rfl⟩
  · split
    · exact ⟨_, _, _, rfl, trivial⟩
    · exact ⟨_, _, _, rfl, hQ _ rfl⟩

lemma ends_tryFinishDraining (hwork : l.state.hasUnresolvedBatchWork = false) :
    tryFinishDraining.Ends (fun result _ => result.isSome) l := by
  refine Prog.ends_bind_iff.2 (ends_readLoop ?_)
  rw [if_neg (by simp [hwork])]
  refine Prog.ends_bind_iff.2 (ends_sendStatusUpdate true fun l' _ => ?_)
  exact ends_readLoop rfl

/-- A loop that wants to return, or drains, and holds no work returns in its next round. -/
lemma ends_runIteration (config : Config)
    (hintent : l.state.exitIntent.isSome ∨ l.state.drainingForShutdown)
    (hwork : l.state.hasUnresolvedBatchWork = false) :
    (runIteration config).Ends (fun result _ => result.isSome) l := by
  refine Prog.ends_bind_iff.2 (ends_readLoop ?_)
  split
  · refine Prog.ends_bind_iff.2 ((ends_tryFinishDraining hwork).mono ?_)
    rintro (_ | result) l' hresult
    · cases hresult
    · exact rfl
  · rename_i hdraining
    have hexit : l.state.exitIntent.isSome := by simpa [hdraining] using hintent
    have hfinish : ∃ result, l.state.tryFinishActiveIteration = some result := by
      obtain ⟨intent, hintent⟩ := Option.isSome_iff_exists.1 hexit
      exact ⟨intent.toResult, by
        simp [ApplyLoopState.tryFinishActiveIteration, hdraining, hwork, ApplyLoopState.exitResult,
          hintent]⟩
    obtain ⟨result, hresult⟩ := hfinish
    refine Prog.ends_bind_iff.2 (Prog.ends_bind_iff.2 (ends_readLoop ?_))
    rw [if_pos hexit]
    refine Prog.ends_bind_iff.2 (ends_readLoop ?_)
    rw [hresult]
    exact rfl

end Return

/-- In every state of a running loop, a paused loop has a write in flight and a queued batch, a
batch has an armed deadline, and so has an accepted write while no write is in flight. A loop that
takes no messages waits for a write result, or its deadline is armed and it waits for that, or its
next round returns without waiting. A step that calls the destination is taken while no write is in
flight. -/
theorem intake_never_wedges {config : Config} {s : System}
    (hs : s.Reachable config System.AnyStep) (worker : WorkerType) :
    ((s.memory.loops worker).live = true →
      (s.memory.loops worker).state.Tended ∧
      ((s.memory.loops worker).state.intakeDisabled →
        (s.memory.loops worker).state.hasPendingFlushResult ∨
        (s.memory.loops worker).state.canWaitForDeadline ∧
          (s.memory.loops worker).state.flushDeadline ∨
        (runIteration config).Ends (fun result _ => result.isSome) (s.memory.loops worker))) ∧
    ∀ action s', s.step config action = some s' →
      (s'.memory.loops worker).writes = (s.memory.loops worker).writes ∨
      (s'.memory.loops worker).writes = [] ∨
      (s.memory.loops worker).state.pendingFlushResult = none := by
  refine ⟨fun hlive => ⟨hs.tended worker hlive, fun hdisabled => ?_⟩, fun action s' hnext => ?_⟩
  · have htended := hs.tended worker hlive
    by_cases hwork : (s.memory.loops worker).state.hasUnresolvedBatchWork
    · exact (htended.wakes hwork).imp_right .inl
    · have hwork' := ApplyLoopState.not_hasUnresolvedBatchWork_iff.1 (by simpa using hwork)
      refine .inr (.inr (ends_runIteration config ?_ (by simpa using hwork)))
      -- without work in hand the loop is not paused
      have hactive : (s.memory.loops worker).state.processingPaused = false := by
        by_contra hpaused
        have hpending := (htended.paused (by simpa using hpaused)).1
        simp [ApplyLoopState.hasPendingFlushResult, hwork'.2] at hpending
      simpa [ApplyLoopState.intakeDisabled, ApplyLoopState.canProcessMessages, hactive,
        Option.isSome_iff_ne_none] using hdisabled
  · have hmove := (hs.proceeds.step hnext).2
    generalize s'.memory = m' at hmove ⊢
    cases hmove with
    | worker k step =>
      by_cases hk : worker = k
      · subst hk
        simp only [Function.update_self]
        rcases step.loop_cases with hloop | ⟨_, _, rfl⟩ | ⟨_, _, _, _, _, -, rfl⟩
        · rcases ApplyLoop.writes_step hloop with hsame | ⟨_, -, hfree, -⟩
          · exact .inl hsame
          · exact .inr (.inr hfree)
        · exact .inr (.inl rfl)
        · exact .inl rfl
      · exact .inl (by simp [hk])
    | environment action step => exact .inl rfl
    | restart => exact .inr (.inl rfl)
    | idle => exact .inl rfl

def System.queuedBehindWrite : System :=
  initial.play (sampleConfig none)
    [.turn .apply { lsn := 5 }, .turn .apply { lsn := 5 },
      .turn .apply { branch := .streamMessage (.ok (.xLogData 10 10 (.begin 10 0 0))) },
      .turn .apply { branch := .batchDeadline },
      .turn .apply { branch := .streamMessage (.ok (.xLogData 10 12 (.commit 0 10 12 0))) },
      .turn .apply { branch := .batchDeadline }]

theorem intake_never_wedges_queuedBehindWrite :
    (System.queuedBehindWrite.memory.loops .apply).live = true ∧
      (System.queuedBehindWrite.memory.loops .apply).state.processingPaused = true ∧
      (System.queuedBehindWrite.memory.loops .apply).state.Tended := by
  have hlive : (System.queuedBehindWrite.memory.loops .apply).live = true := by decide +kernel
  exact ⟨hlive, by decide +kernel,
    ((intake_never_wedges (System.reachable_play .initial _ :
      System.queuedBehindWrite.Reachable _ _) .apply).1 hlive).1⟩

end Etl
