import Etl.Guarantees.Batching

/-!
# Completion of a table sync

A loop returns `Completed` only after the handover, and when every event is covered by a durable
result.
-/

namespace Etl

open ApplyLoop

namespace ApplyLoop

variable {l l' : ApplyLoop} {w w' : World}

/-- While no write is unanswered or only accepted, everything passed on is covered. -/
structure Answered (l : ApplyLoop) : Prop where
  settled : l.live = true → l.state.pendingFlushResult = none →
    l.state.pendingDurabilityInterval = false → l.covered = l.dispatched
  deferred : ∀ metadata, l.state.pendingFlushResult = some metadata →
    metadata.durability = .mayDefer → 0 < metadata.eventCount
  all : l.state.eventBatch.events = [] → l.dispatched = l.produced.length

lemma Answered.step (h : l.Answered) (hstep : LoopStep l w l' w') : l'.Answered := by
  cases hstep with
  | push p x =>
    refine ⟨h.settled, h.deferred, fun hempty => ?_⟩
    simp [ApplyLoop.push, ApplyLoopState.buffer, ApplyLoopState.touch, EventBatch.push] at hempty
  | dispatch batch hwhole hfree =>
    refine ⟨fun _ hnone => (by cases hnone), ?_, fun _ => rfl⟩
    rintro _ ⟨⟩ hdefer
    simp only [ApplyLoopState.writeMetadata] at hdefer ⊢
    split_ifs at hdefer with hreason
    omega
  | resolveError => exact ⟨fun hlive => (by cases hlive), fun _ hpending => (by cases hpending), h.all⟩
  | resolveAccepted metadata x hpending hdefer =>
    refine ⟨fun _ _ hinterval => ?_, fun _ hpending => (by cases hpending), h.all⟩
    have hcount := h.deferred metadata hpending hdefer
    simp [ApplyLoop.accept, ApplyLoopState.accept, ApplyLoopState.touch, hcount] at hinterval
  | resolveDurable => exact ⟨fun _ _ _ => rfl, fun _ hpending => (by cases hpending), h.all⟩
  | receive m => cases m <;> exact ⟨h.settled, h.deferred, h.all⟩
  | _ => exact ⟨h.settled, h.deferred, h.all⟩

end ApplyLoop

lemma System.Reachable.answered {config : Config} {Allowed : Memory → Memory → Prop} {s : System}
    (hs : s.Reachable config Allowed) (worker : WorkerType) : (s.memory.loops worker).Answered := by
  refine hs.loop_invariant worker (fun _ => ⟨nofun, nofun, fun _ => rfl⟩)
    (fun _ _ _ _ => ⟨fun _ _ _ => rfl, nofun, fun _ => rfl⟩)
    (fun _ _ _ _ _ h hstep => h.step hstep) ?_
  rintro l _ h ⟨_, _, _, _, _, hlive, rfl⟩
  exact ⟨fun hl => h.settled (hlive hl).1, h.deferred, h.all⟩

/-- Where a table-sync loop has returned `Completed`, it has itself handed its table over or found it
handed over, the state of the table is `SyncDone` or `Ready`, and every event it has ever passed to
the destination is covered by a durable result. -/
theorem completed_covers_writes {config : Config} {s : System}
    (hs : s.Reachable config System.AnyStep) {tableId : TableId}
    (hreturned : (s.threads (.tableSync tableId)).prog.result? = some (.finish .completed)) :
    (s.memory.loops (.tableSync tableId)).done = true ∧
    (s.world.poolState tableId = some .ready ∨
      ∃ lsn payload, s.world.poolState tableId = some (.syncDone lsn payload)) ∧
    (s.memory.loops (.tableSync tableId)).writes.flatMap (·.1) =
      ((s.memory.loops (.tableSync tableId)).produced.take
        (s.memory.loops (.tableSync tableId)).covered).flatMap (·.events) := by
  have hcode := hs.proceeds.code (.tableSync tableId)
  rw [Prog.result?_eq_some.1 hreturned] at hcode
  obtain ⟨⟨hrest, hcompleted⟩, -⟩ :
    Continues (.finish .completed) (s.memory.loops (.tableSync tableId)) := hcode
  obtain ⟨hexit, hwork⟩ := hcompleted rfl
  obtain ⟨hbatch, hpending⟩ := ApplyLoopState.not_hasUnresolvedBatchWork_iff.1 hwork
  have hcoordinated := hs.proceeds.coordinated (.tableSync tableId)
  have hworker := hcoordinated.workerType
  -- nothing is left in hand that could still hand the table over, so this has happened
  have hdone : (s.memory.loops (.tableSync tableId)).done = true := by
    rcases hrest.terminal tableId hworker hexit with hdone | hlast | ⟨metadata, hwrite, -⟩
    · exact hdone
    · exact absurd hbatch hlast.batch
    · exact nomatch hpending.symm.trans hwrite
  obtain ⟨hfinal, -, -, hcommit⟩ := ApplyLoopState.isQuiescent_iff.1
    ((hrest.completion tableId hworker).done hdone).2
  have hinterval : (s.memory.loops (.tableSync tableId)).state.pendingDurabilityInterval = false := by
    by_contra hinterval
    rcases hrest.accounted.interval hfinal (by simpa using hinterval) with hc | ⟨_, hwrite, -⟩
    · exact hc hcommit
    · exact nomatch hpending.symm.trans hwrite
  have hanswered := hs.answered (.tableSync tableId)
  have hcovered := (hanswered.settled hrest.live hpending hinterval).trans (hanswered.all hbatch)
  refine ⟨hdone, hcoordinated.handedOver tableId rfl hrest.live hdone, ?_⟩
  have hevents := (hs.batched (.tableSync tableId)).events
  simpa [hbatch, hcovered] using hevents

def System.completedSync : System :=
  initial.play (sampleConfig none)
    [.register 1, .turn .apply { lsn := 5 }, .turn .apply { lsn := 5 },
      .turn .apply { branch := .streamMessage (.ok (.primaryKeepAlive 12 false)) },
      .turn (.tableSync 1) {}, .turn (.tableSync 1) { lsn := 10 }, .turn .apply {},
      .turn (.tableSync 1) {},
      .turn (.tableSync 1) { branch := .streamMessage (.ok (.xLogData 15 15 (.begin 15 0 0))) },
      .turn (.tableSync 1) { branch := .streamMessage (.ok (.xLogData 15 20 (.commit 0 15 20 0))) },
      .turn (.tableSync 1) { branch := .flushResult (.ok .durable) }]

theorem completed_covers_writes_completedSync :
    (System.completedSync.memory.loops (.tableSync 1)).writes.map (·.1) =
        [[.begin 15 0 0 0, .commit 15 1 0 20 0]] ∧
      (System.completedSync.memory.loops (.tableSync 1)).done = true := by
  refine ⟨by decide +kernel, ?_⟩
  have hs : System.completedSync.Reachable _ _ := System.reachable_play .initial _
  exact (completed_covers_writes hs (by decide +kernel)).1

end Etl
