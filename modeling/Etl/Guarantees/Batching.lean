import Etl.Runtime.System

/-!
# Batching is transparent

Whenever the loop flushes, the destination is given the events of the message handlers, all of them,
once and in order.
-/

namespace Etl

namespace ApplyLoop

structure Batched (l : ApplyLoop) : Prop where
  /-- What has been passed on, and then the batch, is what has been produced. -/
  events : l.writes.flatMap (·.1) ++ l.state.eventBatch.events = l.produced.flatMap Produced.events
  order : (l.produced.map (·.source)).Sublist l.handled
  /-- All writes but the one in flight have been answered. -/
  unresolved : l.writes.length = l.resolved + l.state.pendingFlushResult.toList.length

variable {l l' : ApplyLoop} {w w' : World}

lemma Batched.push (h : l.Batched) (p : Produced) (x : Inert) : (l.push p x).Batched where
  events := by
    have hevents : (l.push p x).state.eventBatch.events = l.state.eventBatch.events ++ p.events := by
      obtain ⟨tx, source, event, _ | relation⟩ := p <;>
        simp [ApplyLoop.push, ApplyLoopState.buffer, ApplyLoopState.touch, Produced.events]
    have hproduced : (l.push p x).produced.flatMap Produced.events =
        l.produced.flatMap Produced.events ++ p.events := by
      simp [ApplyLoop.push]
    rw [hevents, hproduced, ← h.events, List.append_assoc]
    rfl
  order := by
    simp only [ApplyLoop.push, handle, List.map_append]
    exact h.order.append (List.Sublist.refl _)
  unresolved := h.unresolved

lemma Batched.dispatch (h : l.Batched) (metadata : WriteMetadata)
    (hfree : l.state.pendingFlushResult = none) : (l.dispatch metadata).Batched where
  events := by
    simp only [ApplyLoop.dispatch, ApplyLoopState.handOver, List.flatMap_append, List.flatMap_cons,
      List.flatMap_nil, List.append_nil, EventBatch.events_empty]
    exact h.events
  order := h.order
  unresolved := by
    have hcount := h.unresolved
    simp only [hfree, Option.toList_none, List.length_nil] at hcount
    simp [ApplyLoop.dispatch, ApplyLoopState.handOver, hcount]

lemma Batched.resolve (h : l.Batched) {metadata : WriteMetadata}
    (hpending : l.state.pendingFlushResult = some metadata)
    (hsame : l'.writes = l.writes ∧ l'.produced = l.produced ∧ l'.handled = l.handled ∧
      l'.state.eventBatch = l.state.eventBatch)
    (hresolved : l'.resolved = l.resolved + 1) (hnone : l'.state.pendingFlushResult = none) :
    l'.Batched where
  events := by
    rw [hsame.1, hsame.2.1, hsame.2.2.2]
    exact h.events
  order := by
    rw [hsame.2.1, hsame.2.2.1]
    exact h.order
  unresolved := by
    have hcount := h.unresolved
    rw [hpending] at hcount
    simpa [hsame.1, hresolved, hnone] using hcount

lemma Batched.step (h : l.Batched) (hstep : LoopStep l w l' w') : l'.Batched := by
  cases hstep with
  | push p x => exact h.push p x
  | skip data =>
    exact ⟨h.events, h.order.trans (List.sublist_append_left _ _), h.unresolved⟩
  | dispatch batch _ hfree => exact h.dispatch _ hfree
  | resolveError _ _ hpending => exact h.resolve hpending ⟨rfl, rfl, rfl, rfl⟩ rfl rfl
  | resolveAccepted _ _ hpending => exact h.resolve hpending ⟨rfl, rfl, rfl, rfl⟩ rfl rfl
  | resolveDurable _ _ _ hpending => exact h.resolve hpending ⟨rfl, rfl, rfl, rfl⟩ rfl rfl
  | receive m => cases m <;> exact ⟨h.events, h.order, h.unresolved⟩
  | _ => exact ⟨h.events, h.order, h.unresolved⟩

/-- The whole batch is passed while no write is in flight, and an empty one only for durability. -/
def Writes (l l' : ApplyLoop) : Prop :=
  l'.writes = l.writes ∨ ∃ durability, l'.writes = l.writes ++ [(l.state.eventBatch.events, durability)] ∧
    l.state.pendingFlushResult = none ∧
    (l.state.eventBatch.events = [] → durability = .requireDurable)

lemma writes_step (hstep : LoopStep l w l' w') : l.Writes l' := by
  cases hstep with
  | dispatch batch hwhole hfree =>
    refine .inr ⟨_, rfl, hfree, fun hempty => ?_⟩
    simp [ApplyLoopState.writeMetadata, hwhole, hempty]
  | _ => exact .inl rfl

end ApplyLoop

lemma System.Reachable.batched {config : Config} {Allowed : Memory → Memory → Prop} {s : System}
    (hs : s.Reachable config Allowed) (worker : WorkerType) : (s.memory.loops worker).Batched := by
  refine hs.loop_invariant worker (fun _ => ⟨rfl, .slnil, rfl⟩) (fun _ _ _ _ => ⟨rfl, .slnil, rfl⟩)
    (fun _ _ _ _ _ h hstep => h.step hstep) ?_
  rintro l _ h ⟨_, _, _, _, _, -, rfl⟩
  exact ⟨h.events, h.order, h.unresolved⟩

/-- What the destination has been given, followed by what is buffered, is what the message handlers
have produced, in the order of their messages and each relation event right before the row event it
was made for; at most one write is unanswered; and a step that writes passes the whole batch while
no write is unanswered, an empty one only to ask for durability. A new loop starts without
writes. -/
theorem batching_transparent {config : Config} {s : System}
    (hs : s.Reachable config System.AnyStep) (worker : WorkerType) :
    (s.memory.loops worker).Batched ∧
      ∀ action s', s.step config action = some s' →
        (s.memory.loops worker).Writes (s'.memory.loops worker) ∨
          (s'.memory.loops worker).writes = [] := by
  refine ⟨hs.batched worker, fun action s' hnext => ?_⟩
  have hmove := (hs.proceeds.step hnext).2
  generalize s'.memory = m' at hmove ⊢
  cases hmove with
  | worker k step =>
    by_cases hk : worker = k
    · subst hk
      simp only [Function.update_self]
      rcases step.loop_cases with hloop | ⟨_, _, rfl⟩ | ⟨_, _, _, _, _, -, rfl⟩
      · exact .inl (ApplyLoop.writes_step hloop)
      · exact .inr rfl
      · exact .inl (.inl rfl)
    · exact .inl (.inl (by simp [hk]))
  | environment action step => exact .inl (.inl rfl)
  | restart => exact .inr rfl
  | idle => exact .inl (.inl rfl)

def System.twoWrites : System :=
  initial.play (sampleConfig none)
    [.turn .apply { lsn := 5 }, .turn .apply { lsn := 5 },
      .turn .apply { branch := .streamMessage (.ok (.xLogData 10 10 (.begin 10 0 0))) },
      .turn .apply { branch := .batchDeadline },
      .turn .apply { branch := .flushResult (.ok .accepted) },
      .turn .apply { branch := .streamMessage (.ok (.xLogData 10 12 (.commit 0 10 12 0))) },
      .turn .apply { branch := .batchDeadline }]

theorem batching_transparent_twoWrites :
    (System.twoWrites.memory.loops .apply).writes.map (·.1) =
        [[.begin 10 0 0 0], [.commit 10 1 0 12 0]] ∧
      (System.twoWrites.memory.loops .apply).Batched :=
  ⟨by decide +kernel,
    (batching_transparent (System.reachable_play .initial _ : System.twoWrites.Reachable _ _)
      .apply).1⟩

end Etl
