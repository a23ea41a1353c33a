import Etl.Runtime.System

/-!
# Feedback to the server

The positions in the status updates of a connection never go back, and no flush position exceeds its
write position. The loop's own checkpoint may go back.
-/

namespace Etl

lemma le_clampLsn (last : Option PgLsn) (lsn : PgLsn) : lsn ≤ clampLsn last lsn := by
  unfold clampLsn
  split
  · split
    · exact le_of_lt ‹_›
    · exact le_rfl
  · exact le_rfl

lemma last_le_clampLsn (last lsn : PgLsn) : last ≤ clampLsn (some last) lsn := by
  unfold clampLsn
  dsimp only
  split
  · exact le_rfl
  · exact not_lt.1 ‹_›

lemma clampLsn_le {last : Option PgLsn} {lsn bound : PgLsn} (hlast : ∀ x, last = some x → x ≤ bound)
    (hlsn : lsn ≤ bound) : clampLsn last lsn ≤ bound := by
  unfold clampLsn
  split
  · split
    · exact hlast _ rfl
    · exact hlsn
  · exact hlsn

namespace ApplyLoop

variable {l l' : ApplyLoop} {w w' : World}

/-- No position the loop keeps lies beyond what it has received. -/
structure Received (l : ApplyLoop) : Prop where
  session : l.live = true → l.session.isSome
  handling : ∀ flags commitLsn endLsn timestamp,
    l.handling = some (.commit flags commitLsn endLsn timestamp) →
      endLsn ≤ l.state.progress.lastReceivedLsn
  lastCommit : ∀ lsn, l.state.lastCommitEndLsn = some lsn → lsn ≤ l.state.progress.lastReceivedLsn
  write : ∀ metadata, l.state.pendingFlushResult = some metadata →
    ∀ lsn, metadata.commitEndLsn = some lsn → lsn ≤ l.state.progress.lastReceivedLsn
  settled : ∀ lsn, l.settled = some lsn → lsn ≤ l.state.progress.lastReceivedLsn
  flush : l.state.progress.lastFlushLsn ≤ l.state.progress.lastReceivedLsn

/-- The status updates of the connection, the latest first: they never go back, no flush position
exceeds its write position, and the stream remembers the last. -/
structure Reported (l : ApplyLoop) : Prop where
  sorted : l.reported.Pairwise fun later earlier => earlier.1 ≤ later.1 ∧ earlier.2 ≤ later.2
  flush_le_write : ∀ p ∈ l.reported, p.2 ≤ p.1
  stream : l.stream = ⟨l.reported.head?.map (·.1), l.reported.head?.map (·.2)⟩

/-! ## What has been received -/

lemma lastReceivedLsn_le_received (st : ApplyLoopState) (m : ReplicationMessage) :
    st.progress.lastReceivedLsn ≤ (st.received m).progress.lastReceivedLsn := by
  cases m with
  | xLogData walStart walEnd data => exact (le_max_left _ _).trans (le_max_left _ _)
  | primaryKeepAlive walEnd reply => exact le_max_left _ _

lemma Received.receive (h : l.Received) (hlive : l.live = true) {m : ReplicationMessage}
    (haccepted : l.accepts m = true) : (l.receive m).Received := by
  obtain ⟨session, hsession⟩ := Option.isSome_iff_exists.1 (h.session hlive)
  simp only [accepts, hsession] at haccepted
  obtain ⟨session', hdeliver⟩ := Option.isSome_iff_exists.1 haccepted
  have hle := lastReceivedLsn_le_received l.state m
  have hbound : ∀ lsn, lsn ≤ l.state.progress.lastReceivedLsn →
      lsn ≤ (l.receive m).state.progress.lastReceivedLsn := fun _ hlsn => hlsn.trans hle
  refine ⟨fun _ => by simp [ApplyLoop.receive, sessionAfter, hsession, hdeliver], ?_, ?_, ?_, ?_, ?_⟩
  · intro flags commitLsn endLsn timestamp hhandling
    cases m with
    | primaryKeepAlive walEnd reply => cases hhandling
    | xLogData walStart walEnd data =>
      cases hhandling
      cases Session.delivers_of_deliver hdeliver with
      | commit pending opened reachStart => exact le_max_right _ _
      | change change => cases change
      | auxiliary _ hdata => simp at hdata
  · cases m <;> exact fun lsn hlsn => hbound _ (h.lastCommit lsn hlsn)
  · cases m <;> exact fun metadata hp lsn hlsn => hbound _ (h.write metadata hp lsn hlsn)
  · cases m <;> exact fun lsn hlsn => hbound _ (h.settled lsn hlsn)
  · cases m <;> exact hbound _ h.flush

lemma Received.later (h : l.Received) {lsn : PgLsn} {endLsn : Option PgLsn}
    (hend : ∀ x, endLsn = some x → x ≤ l.state.progress.lastReceivedLsn)
    (hlater : ApplyLoopState.laterCommitEnd l.state.lastCommitEndLsn endLsn = some lsn) :
    lsn ≤ l.state.progress.lastReceivedLsn := by
  rcases (ApplyLoopState.laterCommitEnd_eq_some hlater).1 with hold | hnew
  · exact h.lastCommit lsn hold
  · exact hend lsn hnew

lemma Received.step (h : l.Received) (hstep : LoopStep l w l' w') : l'.Received := by
  cases hstep with
  | receive m hlive _ _ haccepted => exact h.receive hlive haccepted
  | skip => exact ⟨h.session, nofun, h.lastCommit, h.write, h.settled, h.flush⟩
  | push p x _ hsource _ _ _ _ _ _ _ _ hcommitted =>
    refine ⟨h.session, nofun, fun lsn => h.later fun endLsn hend => ?_, h.write, h.settled, h.flush⟩
    obtain ⟨lsn, hlsn⟩ : ∃ lsn, p.event.committed? = some lsn := by
      cases hevent : p.event <;> simp [hevent, Event.commitEnd?] at hend
      exact ⟨_, rfl⟩
    obtain ⟨-, -, flags, endLsn', timestamp, hcommit, hend'⟩ := hcommitted lsn hlsn
    obtain rfl : endLsn' = endLsn := Option.some.inj (hend'.symm.trans hend)
    exact h.handling flags lsn endLsn' timestamp (by rw [hsource, hcommit])
  | dispatch =>
    refine ⟨h.session, h.handling, nofun, ?_, h.settled, h.flush⟩
    rintro metadata ⟨⟩ lsn hlsn
    exact h.lastCommit lsn hlsn
  | resolveError metadata x hpending =>
    exact ⟨nofun, h.handling, h.lastCommit, nofun, h.settled, h.flush⟩
  | resolveAccepted metadata x hpending =>
    exact ⟨h.session, h.handling, fun lsn => h.later (h.write metadata hpending), nofun, h.settled,
      h.flush⟩
  | resolveDurable metadata x _ hpending =>
    exact ⟨h.session, h.handling, h.lastCommit, nofun, h.write metadata hpending, h.flush⟩
  | flushed lsn _ hsettled =>
    exact ⟨h.session, h.handling, h.lastCommit, h.write, h.settled,
      max_le h.flush (h.settled lsn hsettled)⟩
  | recordPause =>
    unfold ApplyLoopState.recordExitIntent
    exact ⟨h.session, h.handling, h.lastCommit, h.write, h.settled, h.flush⟩
  | recordComplete =>
    unfold ApplyLoopState.recordExitIntent
    exact ⟨h.session, h.handling, h.lastCommit, h.write, h.settled, h.flush⟩
  | _ => exact ⟨h.session, h.handling, h.lastCommit, h.write, h.settled, h.flush⟩

/-! ## What has been reported -/

lemma Received.checkpointLsn_le (h : l.Received) :
    l.state.checkpointLsn ≤ l.state.progress.lastReceivedLsn := by
  unfold ApplyLoopState.checkpointLsn
  split
  · exact le_rfl
  · exact h.flush

lemma Reported.last (h : l.Reported) {write flush : PgLsn}
    (hlast : l.reported.head? = some (write, flush)) :
    l.stream.lastWriteLsn = some write ∧ l.stream.lastFlushLsn = some flush ∧ flush ≤ write := by
  have hmem : (write, flush) ∈ l.reported := List.mem_of_mem_head? (by simp [hlast])
  rw [h.stream]
  simp only [hlast, Option.map_some, true_and]
  exact h.flush_le_write _ hmem

lemma Reported.flushLsn_le_writeLsn (h : l.Reported) (hreceived : l.Received) :
    l.flushLsn ≤ l.writeLsn := by
  refine clampLsn_le (fun flush hflush => ?_)
    (hreceived.checkpointLsn_le.trans (le_clampLsn _ _))
  rw [h.stream] at hflush
  obtain ⟨⟨write, flush⟩, hlast, rfl⟩ := Option.map_eq_some_iff.1 hflush
  obtain ⟨hwrite, -, hle⟩ := h.last hlast
  refine hle.trans ?_
  unfold writeLsn
  rw [hwrite]
  exact last_le_clampLsn _ _

lemma Reported.le_next (h : l.Reported) {p : PgLsn × PgLsn} (hp : p ∈ l.reported) :
    p.1 ≤ l.writeLsn ∧ p.2 ≤ l.flushLsn := by
  rcases hlist : l.reported with _ | ⟨⟨write, flush⟩, rest⟩
  · simp [hlist] at hp
  · obtain ⟨hwrite, hflush, -⟩ := h.last (by rw [hlist]; rfl)
    have hnext : write ≤ l.writeLsn ∧ flush ≤ l.flushLsn := by
      unfold writeLsn flushLsn
      rw [hwrite, hflush]
      exact ⟨last_le_clampLsn _ _, last_le_clampLsn _ _⟩
    have hsorted := h.sorted
    rw [hlist] at hp hsorted
    rcases List.mem_cons.1 hp with rfl | hp
    · exact hnext
    · have hle := (List.pairwise_cons.1 hsorted).1 p hp
      exact ⟨hle.1.trans hnext.1, hle.2.trans hnext.2⟩

lemma Reported.step (h : l.Reported) (hreceived : l.Received) (hstep : LoopStep l w l' w') :
    l'.Reported := by
  cases hstep with
  | status stream delivered _ _ _ _ reports houtcome =>
    rcases houtcome with ⟨rfl, rfl⟩ | ⟨rfl, rfl⟩
    · exact ⟨h.sorted, h.flush_le_write, h.stream⟩
    · refine ⟨List.pairwise_cons.2 ⟨fun p hp => h.le_next hp, h.sorted⟩, ?_, rfl⟩
      intro p hp
      rcases List.mem_cons.1 hp with rfl | hp
      · exact h.flushLsn_le_writeLsn hreceived
      · exact h.flush_le_write p hp
  | receive m => cases m <;> exact ⟨h.sorted, h.flush_le_write, h.stream⟩
  | _ => exact ⟨h.sorted, h.flush_le_write, h.stream⟩

end ApplyLoop

lemma System.Reachable.feedback {config : Config} {wal : Wal} (hwal : config.wal = some wal)
    {Allowed : Memory → Memory → Prop} {s : System} (hs : s.Reachable config Allowed)
    (worker : WorkerType) :
    (s.memory.loops worker).Received ∧ (s.memory.loops worker).Reported := by
  refine hs.loop_invariant (J := fun l => l.Received ∧ l.Reported) worker ?_ ?_ ?_ ?_
  · exact fun _ => ⟨⟨nofun, nofun, nofun, nofun, nofun, le_rfl⟩, ⟨.nil, nofun, rfl⟩⟩
  · refine fun l startLsn decoders target => ⟨⟨fun _ => ?_, nofun, nofun, nofun, nofun, le_rfl⟩,
      ⟨.nil, nofun, rfl⟩⟩
    simp [ApplyLoop.startLoop, hwal]
  · intro s worker l' w' _ h hstep
    exact ⟨h.1.step hstep, h.2.step h.1 hstep⟩
  · rintro l _ h ⟨live, _, _, _, _, hkept, rfl⟩
    exact ⟨⟨fun hlive => h.1.session (hkept hlive).1, h.1.handling, h.1.lastCommit, h.1.write,
      h.1.settled, h.1.flush⟩, h.2.sorted, h.2.flush_le_write, h.2.stream⟩

def Reports (dropped : ApplyLoop → Prop) (force : Bool) (l : ApplyLoop) : Prop :=
  Prog.Sat (fun _ _ => True) (fun _ _ _ _ => True) (fun _ _ => True) (sendStatusUpdate force)
    (fun _ l' => l'.reported = (l.writeLsn, l.flushLsn) :: l.reported ∨
      force = false ∧ l' = l ∧ dropped l) l

/-- On a connection to PostgreSQL, the positions of the status updates never go back, no flush
position exceeds the write position next to it, and the loop never counts as flushed what it has not
received. A forced update is always sent; another one is dropped only if it would report the flush
position of the last update again. -/
theorem feedback_monotone {config : Config} {wal : Wal} (hwal : config.wal = some wal) {s : System}
    (hs : s.Reachable config System.AnyStep) (worker : WorkerType) :
    (s.memory.loops worker).reported.Pairwise
        (fun later earlier => earlier.1 ≤ later.1 ∧ earlier.2 ≤ later.2) ∧
      (∀ p ∈ (s.memory.loops worker).reported, p.2 ≤ p.1) ∧
      (s.memory.loops worker).state.progress.lastFlushLsn ≤
        (s.memory.loops worker).state.progress.lastReceivedLsn ∧
      ∀ force, Reports (fun l => l.reported.head?.map (·.2) = some l.flushLsn) force
        (s.memory.loops worker) := by
  obtain ⟨hreceived, hreported⟩ := hs.feedback hwal worker
  refine ⟨hreported.sorted, hreported.flush_le_write, hreceived.flush, fun force => ?_⟩
  refine Prog.sat_call ?_ fun _ _ _ _ _ _ _ => ⟨trivial, trivial⟩
  intro i w _ l' w' _ hf
  refine ⟨trivial, ?_⟩
  dsimp only at hf
  split at hf
  · rename_i hskip
    cases hf
    simp only [Bool.and_eq_true, Bool.not_eq_true', decide_eq_true_eq] at hskip
    refine .inr ⟨hskip.1.1, rfl, ?_⟩
    have hlast := hskip.1.2
    rwa [hreported.stream] at hlast
  · split at hf
    · cases hf
    · cases hf
      exact .inl rfl

def feedbackWal : Wal := ⟨[⟨20, 22, [], by decide, forall_isChange_nil⟩], by simp⟩

def System.debounced : System :=
  initial.play (sampleConfig (some feedbackWal))
    [.turn .apply { lsn := 5 }, .turn .apply { lsn := 5 },
      .turn .apply { branch := .streamMessage (.ok (.primaryKeepAlive 10 false)) },
      .turn .apply { branch := .streamMessage (.ok (.xLogData 12 12 (.begin 20 0 0))) },
      .turn .apply { branch := .streamMessage (.ok (.primaryKeepAlive 13 false)), recent := true }]

theorem feedback_monotone_debounced :
    (System.debounced.memory.loops .apply).reported = [(10, 10)] ∧
      (System.debounced.memory.loops .apply).state.progress.lastReceivedLsn = 13 ∧
      ∀ p ∈ (System.debounced.memory.loops .apply).reported, p.2 ≤ p.1 :=
  ⟨by decide +kernel, by decide +kernel,
    (feedback_monotone rfl (System.reachable_play .initial _ : System.debounced.Reachable _ _)
      .apply).2.1⟩

/-- The update that was dropped would have reported a newer write position. -/
theorem feedback_drops_newer_write :
    ∃ s : System, s.Reachable (System.sampleConfig (some feedbackWal)) System.AnyStep ∧
      (s.memory.loops .apply).live = true ∧
      ¬ Reports (fun l => l.reported.head? = some (l.writeLsn, l.flushLsn)) false
        (s.memory.loops .apply) := by
  refine ⟨System.debounced, System.reachable_play .initial _, by decide +kernel, fun h => ?_⟩
  have hskip : (System.debounced.memory.loops .apply).stream.lastFlushLsn =
      some (System.debounced.memory.loops .apply).flushLsn := by decide +kernel
  have hold : (System.debounced.memory.loops .apply).reported.head? ≠
      some ((System.debounced.memory.loops .apply).writeLsn,
        (System.debounced.memory.loops .apply).flushLsn) := by decide +kernel
  have hresult := (h { recent := true } System.debounced.memory.world (.ok ())
    (System.debounced.memory.loops .apply) System.debounced.memory.world trivial
    (by simp [hskip])).2
  rcases hresult with hsent | ⟨-, -, hdropped⟩
  · exact absurd (congrArg List.length hsent) (by simp)
  · exact hold hdropped

end Etl
