import Etl.Guarantees.Tracking

/-!
# At-least-once delivery

A position that leaves a loop lies at or before the commit record of every transaction whose events
are not all covered by a durable write.
-/

namespace Etl

namespace ApplyLoop

variable {l l' : ApplyLoop} {w w' : World} {wal : Wal} {session : Session} {lsn : PgLsn} {n : Nat}

/-- At or before the commit of every transaction that the first `n` events do not commit. -/
def Behind (wal : Wal) (l : ApplyLoop) (n : Nat) (lsn : PgLsn) : Prop :=
  ∀ t ∈ wal.transactions, l.startLsn ≤ t.commitLsn → t.commitLsn ∉ committedOf (l.produced.take n) →
    lsn ≤ t.commitLsn

/-- At or after the end of every transaction that the first `n` events commit. -/
def Ahead (wal : Wal) (l : ApplyLoop) (n : Nat) (lsn : PgLsn) : Prop :=
  ∀ t ∈ wal.transactions, t.commitLsn ∈ committedOf (l.produced.take n) → t.endLsn ≤ lsn

/-- Between the transactions that the first `n` events commit and the others. -/
def Marks (wal : Wal) (l : ApplyLoop) (n : Nat) (lsn : PgLsn) : Prop :=
  l.Behind wal n lsn ∧ l.Ahead wal n lsn

structure Positioned (wal : Wal) (l : ApplyLoop) : Prop where
  covered_le : l.covered ≤ l.dispatched
  dispatched_le : l.dispatched ≤ l.produced.length
  lastCommit : ∀ lsn, l.state.lastCommitEndLsn = some lsn → l.Marks wal l.produced.length lsn
  write : ∀ metadata, l.state.pendingFlushResult = some metadata →
    ∀ lsn, metadata.commitEndLsn = some lsn → l.Marks wal l.dispatched lsn
  settled : ∀ lsn, l.settled = some lsn → l.Marks wal l.covered lsn
  lastFlush : l.Behind wal l.covered l.state.progress.lastFlushLsn
  stream : ∀ lsn, l.stream.lastFlushLsn = some lsn → l.Behind wal l.covered lsn
  sent : ∀ lsn ∈ l.sent, l.Behind wal l.covered lsn
  /-- A commit that is not dispatched is known by its end. -/
  batch : l.state.lastCommitEndLsn = none → committedOf (l.produced.drop l.dispatched) = []
  /-- A dispatched commit is known by its end until it is durable. -/
  interval : l.state.lastCommitEndLsn = none →
    (∀ metadata, l.state.pendingFlushResult = some metadata → metadata.commitEndLsn = none) →
      committedOf ((l.produced.take l.dispatched).drop l.covered) = []

lemma committedOf_append (a b : List Produced) :
    committedOf (a ++ b) = committedOf a ++ committedOf b := by
  simp [committedOf]

lemma committedOf_take_add_drop (produced : List Produced) (n : Nat) :
    committedOf produced = committedOf (produced.take n) ++ committedOf (produced.drop n) := by
  rw [← committedOf_append, List.take_append_drop]

lemma Behind.mono (h : l.Behind wal n lsn) {m : Nat} (hle : n ≤ m) : l.Behind wal m lsn := by
  intro t ht hstart hnot
  refine h t ht hstart fun hmem => hnot ?_
  obtain ⟨p, hp, hc⟩ := List.mem_filterMap.1 hmem
  exact List.mem_filterMap.2 ⟨p, (List.take_subset_take_left _ hle) hp, hc⟩

lemma take_of_append {p : List Produced} (hproduced : l'.produced = l.produced ++ p)
    (hle : n ≤ l.produced.length) : l'.produced.take n = l.produced.take n := by
  rw [hproduced, List.take_append_of_le_length hle]

lemma Behind.congr (h : l.Behind wal n lsn) (hstart : l'.startLsn = l.startLsn)
    (htake : l'.produced.take n = l.produced.take n) : l'.Behind wal n lsn := by
  unfold Behind
  rw [hstart, htake]
  exact h

lemma Marks.congr (h : l.Marks wal n lsn) (hstart : l'.startLsn = l.startLsn)
    (htake : l'.produced.take n = l.produced.take n) : l'.Marks wal n lsn := by
  refine ⟨h.1.congr hstart htake, ?_⟩
  unfold Ahead
  rw [htake]
  exact h.2

lemma positioned_startLoop (l : ApplyLoop) (startLsn : PgLsn)
    (decoders : TableId → Option TableDecodingState) (target : PgLsn) :
    Positioned wal (l.startLoop (some wal) startLsn decoders target) where
  covered_le := le_rfl
  dispatched_le := le_rfl
  lastCommit _ h := nomatch h
  write _ h := nomatch h
  settled _ h := nomatch h
  lastFlush _ _ hstart _ := hstart
  stream _ h := nomatch h
  sent _ h := nomatch h
  batch _ := rfl
  interval _ _ := rfl

namespace Positioned

lemma committedOf_eq_covered (h : Positioned wal l) (hcommit : l.state.lastCommitEndLsn = none)
    (hwrite : ∀ metadata, l.state.pendingFlushResult = some metadata → metadata.commitEndLsn = none) :
    committedOf l.produced = committedOf (l.produced.take l.covered) := by
  have hdispatched := committedOf_take_add_drop l.produced l.dispatched
  have hcovered := committedOf_take_add_drop (l.produced.take l.dispatched) l.covered
  rw [h.batch hcommit, List.append_nil] at hdispatched
  rw [h.interval hcommit hwrite, List.append_nil, List.take_take, min_eq_left h.covered_le]
    at hcovered
  rw [hdispatched, hcovered]

lemma behind_lastReceived (h : Positioned wal l) (htracked : Tracked wal session l)
    (hq : l.state.isQuiescent) (htx : l.tx = none) :
    l.Behind wal l.covered l.state.progress.lastReceivedLsn := by
  obtain ⟨-, -, hpending, hcommit⟩ := ApplyLoopState.isQuiescent_iff.1 hq
  intro t ht hstart hnot
  rw [← h.committedOf_eq_covered hcommit (by simp [hpending])] at hnot
  rcases htracked.pending_or_open ht hstart hnot with hmem | ⟨hopen, -⟩
  · exact htracked.received t hmem
  · rw [htx] at hopen
    cases hopen

lemma behind_flushLsn (h : Positioned wal l) (htracked : Tracked wal session l)
    (htx : l.tx = l.state.remoteFinalLsn) : l.Behind wal l.covered l.flushLsn := by
  have hcheckpoint : l.Behind wal l.covered l.state.checkpointLsn := by
    unfold ApplyLoopState.checkpointLsn
    split
    · rename_i hq
      exact h.behind_lastReceived htracked hq
        (htx.trans (ApplyLoopState.isQuiescent_iff.1 hq).1)
    · exact h.lastFlush
  unfold flushLsn clampLsn
  split
  · rename_i last hlast
    split
    · exact h.stream last hlast
    · exact hcheckpoint
  · exact hcheckpoint

lemma push_frame (h : Positioned wal l) (p : Produced) (x : Inert) :
    (∀ metadata, (l.push p x).state.pendingFlushResult = some metadata →
      ∀ lsn, metadata.commitEndLsn = some lsn → (l.push p x).Marks wal l.dispatched lsn) ∧
    (∀ lsn, l.settled = some lsn → (l.push p x).Marks wal l.covered lsn) ∧
    (∀ lsn, l.Behind wal l.covered lsn → (l.push p x).Behind wal l.covered lsn) := by
  have happend : (l.push p x).produced = l.produced ++ [p] := rfl
  have hdispatched := take_of_append happend h.dispatched_le
  have hcovered := take_of_append happend (h.covered_le.trans h.dispatched_le)
  exact ⟨fun metadata hm lsn hlsn => (h.write metadata hm lsn hlsn).congr rfl hdispatched,
    fun lsn hlsn => (h.settled lsn hlsn).congr rfl hcovered,
    fun lsn hlsn => hlsn.congr rfl hcovered⟩

lemma committedOf_push (p : Produced) (x : Inert) :
    committedOf (l.push p x).produced = committedOf l.produced ++ p.event.committed?.toList := by
  rw [show (l.push p x).produced = l.produced ++ [p] from rfl, committedOf_append]
  cases hevent : p.event.committed? <;> simp [committedOf, hevent]

lemma push_inner (h : Positioned wal l) {p : Produced} (hnone : p.event.committed? = none)
    (hend : p.event.commitEnd? = none) (x : Inert) : Positioned wal (l.push p x) := by
  have hlast : (l.push p x).state.lastCommitEndLsn = l.state.lastCommitEndLsn := by
    cases hcommit : l.state.lastCommitEndLsn <;>
      simp [ApplyLoop.push, ApplyLoopState.touch, ApplyLoopState.buffer, hend, hcommit,
        ApplyLoopState.laterCommitEnd]
  have hcommitted := committedOf_push (l := l) p x
  rw [hnone, Option.toList_none, List.append_nil] at hcommitted
  obtain ⟨hwrite, hsettled, hbehind⟩ := h.push_frame p x
  exact
    { covered_le := h.covered_le
      dispatched_le := by
        refine h.dispatched_le.trans ?_
        simp [ApplyLoop.push]
      lastCommit := fun lsn hlsn => by
        have hmarks := h.lastCommit lsn (hlast.symm.trans hlsn)
        simp only [Marks, Behind, Ahead, List.take_length] at hmarks ⊢
        rw [hcommitted]
        exact hmarks
      write := hwrite
      settled := hsettled
      lastFlush := hbehind _ h.lastFlush
      stream := fun lsn hlsn => hbehind lsn (h.stream lsn hlsn)
      sent := fun lsn hlsn => hbehind lsn (h.sent lsn hlsn)
      batch := fun hlsn => by
        have hold := h.batch (hlast.symm.trans hlsn)
        rw [show (l.push p x).produced = l.produced ++ [p] from rfl,
          show (l.push p x).dispatched = l.dispatched from rfl,
          List.drop_append_of_le_length h.dispatched_le, committedOf_append, hold]
        simp [committedOf, hnone]
      interval := fun hlsn hw => by
        rw [show (l.push p x).dispatched = l.dispatched from rfl,
          take_of_append (l := l) (p := [p]) rfl h.dispatched_le]
        exact h.interval (hlast.symm.trans hlsn) hw }

lemma push_commit (h : Positioned wal l) (htracked : Tracked wal session l) {p : Produced}
    {flags timestamp : Int} {commitLsn endLsn : PgLsn}
    (hhandling : l.handling = some (.commit flags commitLsn endLsn timestamp))
    (hevent : p.event.committed? = some commitLsn) (hend : p.event.commitEnd? = some endLsn)
    (x : Inert) : Positioned wal (l.push p x) := by
  obtain ⟨last, hlast⟩ : ∃ last, (l.push p x).state.lastCommitEndLsn = some last := by
    refine Option.ne_none_iff_exists'.1 fun hnone => ?_
    have := (ApplyLoopState.laterCommitEnd_eq_none_iff.1 hnone).2
    rw [hend] at this
    cases this
  have hcases := ApplyLoopState.laterCommitEnd_eq_some hlast
  have hcommitted := committedOf_push (l := l) p x
  rw [hevent, Option.toList_some] at hcommitted
  have hcommitting : l.committing = [commitLsn] := by simp [committing, hhandling]
  obtain ⟨-, t₀, ht₀, rfl, rfl⟩ := htracked.commit _ _ _ _ hhandling
  obtain ⟨hwrite, hsettled, hbehind⟩ := h.push_frame p x
  exact
    { covered_le := h.covered_le
      dispatched_le := by
        refine h.dispatched_le.trans ?_
        simp [ApplyLoop.push]
      lastCommit := fun lsn hlsn => by
        obtain rfl : last = lsn := Option.some.inj (hlast.symm.trans hlsn)
        simp only [Marks, Behind, Ahead, List.take_length]
        rw [hcommitted, ← hcommitting]
        refine ⟨fun t ht hstart hnot => ?_, fun t ht hmem => ?_⟩
        · -- what is still to come lies behind both ends
          have hnot' : t.commitLsn ∉ committedOf l.produced := fun hmem =>
            hnot (List.mem_append_left _ hmem)
          have hpending : t ∈ session.pending := by
            refine (htracked.pending_or_open ht hstart hnot').resolve_right ?_
            rintro ⟨-, hopen⟩
            exact hnot (List.mem_append_right _ (by simp [hopen]))
          rcases hcases.1 with hold | hnew
          · exact (h.lastCommit last hold).1 t ht hstart (by rwa [List.take_length])
          · rw [hend] at hnew
            cases hnew
            exact htracked.endLsn_le_of_sent ht₀ (by simp [hcommitting]) hpending
        · have hle : t₀.endLsn ≤ last := hcases.2.2 t₀.endLsn (by simp [hend])
          refine le_trans ?_ hle
          rcases List.mem_append.1 hmem with hmem | hmem
          · exact (htracked.endLsn_le_of_committing ht ht₀ hmem (by simp [hcommitting])).trans
              t₀.commit_lt_end.le
          · rw [hcommitting, List.mem_singleton] at hmem
            rw [Wal.eq_of_commitLsn_eq ht ht₀ hmem]
      write := hwrite
      settled := hsettled
      lastFlush := hbehind _ h.lastFlush
      stream := fun lsn hlsn => hbehind lsn (h.stream lsn hlsn)
      sent := fun lsn hlsn => hbehind lsn (h.sent lsn hlsn)
      batch := fun hnone => by cases hlast.symm.trans hnone
      interval := fun hnone => by cases hlast.symm.trans hnone }

lemma dispatch (h : Positioned wal l) (batch : EventBatch)
    (hfree : l.state.pendingFlushResult = none) :
    Positioned wal (l.dispatch (l.state.writeMetadata batch)) where
  covered_le := h.covered_le.trans h.dispatched_le
  dispatched_le := le_rfl
  lastCommit := nofun
  write := by
    rintro metadata ⟨⟩ lsn hlsn
    exact h.lastCommit lsn hlsn
  settled := h.settled
  lastFlush := h.lastFlush
  stream := h.stream
  sent := h.sent
  batch _ := by simp [ApplyLoop.dispatch, committedOf]
  interval _ hwrite := by
    have hcommit : l.state.lastCommitEndLsn = none := hwrite _ rfl
    have hall := h.committedOf_eq_covered hcommit (by simp [hfree])
    rw [committedOf_take_add_drop l.produced l.covered] at hall
    simp only [ApplyLoop.dispatch, List.take_length]
    exact List.append_right_eq_self.1 hall

lemma accept (h : Positioned wal l) {metadata : WriteMetadata}
    (hpending : l.state.pendingFlushResult = some metadata) (x : Inert) :
    Positioned wal (l.accept metadata x) where
  covered_le := h.covered_le
  dispatched_le := h.dispatched_le
  lastCommit lsn hlsn := by
    have hcases := ApplyLoopState.laterCommitEnd_eq_some hlsn
    have hbehind : l.Behind wal l.produced.length lsn := by
      rcases hcases.1 with hold | hnew
      · exact (h.lastCommit lsn hold).1
      · exact (h.write metadata hpending lsn hnew).1.mono h.dispatched_le
    refine ⟨hbehind, fun t ht hmem => ?_⟩
    cases hcommit : l.state.lastCommitEndLsn with
    | some last => exact ((h.lastCommit last hcommit).2 t ht hmem).trans (hcases.2.1 last (by simp [hcommit]))
    | none =>
      -- only the write in flight carries commits
      rw [hcommit] at hcases
      have hnew : metadata.commitEndLsn = some lsn := hcases.1.resolve_left nofun
      refine (h.write metadata hpending lsn hnew).2 t ht ?_
      have hsplit := committedOf_take_add_drop l.produced l.dispatched
      rw [h.batch hcommit, List.append_nil] at hsplit
      rw [← hsplit]
      simpa [ApplyLoop.accept] using hmem
  write := nofun
  settled := h.settled
  lastFlush := h.lastFlush
  stream := h.stream
  sent := h.sent
  batch hnone := h.batch (ApplyLoopState.laterCommitEnd_eq_none_iff.1 hnone).1
  interval hnone _ := by
    obtain ⟨hold, hnew⟩ := ApplyLoopState.laterCommitEnd_eq_none_iff.1 hnone
    refine h.interval hold ?_
    rw [hpending]
    rintro _ ⟨⟩
    exact hnew

lemma settle (h : Positioned wal l) {metadata : WriteMetadata}
    (hpending : l.state.pendingFlushResult = some metadata) (x : Inert) :
    Positioned wal (l.settle metadata x) where
  covered_le := le_rfl
  dispatched_le := h.dispatched_le
  lastCommit := h.lastCommit
  write := nofun
  settled := h.write metadata hpending
  lastFlush := h.lastFlush.mono h.covered_le
  stream lsn hlsn := (h.stream lsn hlsn).mono h.covered_le
  sent lsn hlsn := (h.sent lsn hlsn).mono h.covered_le
  batch := h.batch
  interval _ _ := by simp [ApplyLoop.settle, committedOf]

lemma step (h : Positioned wal l) (htracked : Tracked wal session l)
    (hstep : LoopStep l w l' w') (hlive : l'.live = true) : Positioned wal l' := by
  cases hstep with
  | push p x _ hsource _ _ _ _ _ _ _ _ hcommitted =>
    cases hevent : p.event.committed? with
    | none =>
      refine h.push_inner hevent ?_ x
      cases hp : p.event <;> simp [Event.committed?, hp] at hevent <;> rfl
    | some lsn =>
      obtain ⟨-, -, flags, endLsn, timestamp, hsrc, hend⟩ := hcommitted lsn hevent
      exact h.push_commit htracked (hsource.trans (congrArg some hsrc)) hevent hend x
  | dispatch batch _ hfree => exact h.dispatch batch hfree
  | resolveError => cases hlive
  | resolveAccepted _ x hpending => exact h.accept hpending x
  | resolveDurable _ x _ hpending => exact h.settle hpending x
  | flushed lsn _ hsettled =>
    refine { h with lastFlush := ?_ }
    intro t ht hstart hnot
    exact max_le (h.lastFlush t ht hstart hnot) ((h.settled lsn hsettled).1 t ht hstart hnot)
  | status stream _ _ htx _ hreported =>
    have hflush := h.behind_flushLsn htracked htx
    refine { h with stream := ?_, sent := ?_ }
    · intro lsn hlsn
      rcases hreported with heq | heq
      · exact h.stream lsn (heq.symm.trans hlsn)
      · obtain rfl : l.flushLsn = lsn := Option.some.inj (heq.symm.trans hlsn)
        exact hflush
    · intro lsn hlsn
      rcases List.mem_cons.1 hlsn with rfl | hmem
      · exact hflush
      · exact h.sent lsn hmem
  | receive m =>
    cases m <;> exact ⟨h.covered_le, h.dispatched_le, h.lastCommit, h.write, h.settled, h.lastFlush,
      h.stream, h.sent, h.batch, h.interval⟩
  | _ =>
    exact ⟨h.covered_le, h.dispatched_le, h.lastCommit, h.write, h.settled, h.lastFlush, h.stream,
      h.sent, h.batch, h.interval⟩

end Positioned

end ApplyLoop

open ApplyLoop

lemma System.Reachable.positioned {config : Config} {wal : Wal} (hwal : config.wal = some wal)
    {Allowed : Memory → Memory → Prop} {s : System} (hs : s.Reachable config Allowed)
    (worker : WorkerType) (hlive : (s.memory.loops worker).live = true) :
    Positioned wal (s.memory.loops worker) := by
  refine hs.loop_invariant (J := fun l => l.live = true → Positioned wal l) worker
    (fun _ h => nomatch h) ?_ ?_ ?_ hlive
  · intro l startLsn decoders target _
    rw [hwal]
    exact l.positioned_startLoop startLsn decoders target
  · intro s worker l' w' hs hinv hstep hlive'
    have hlive := hstep.live_of_live hlive'
    obtain ⟨session, -, htracked⟩ := hs.tracked hwal worker hlive
    exact (hinv hlive).step htracked hstep hlive'
  · rintro l _ hinv ⟨live, phase, attempts, startLsn, copySchema, hlive, rfl⟩ hlive'
    obtain ⟨hbefore, rfl⟩ := hlive hlive'
    have h := hinv hbefore
    exact ⟨h.covered_le, h.dispatched_le, h.lastCommit, h.write, h.settled, h.lastFlush, h.stream,
      h.sent, h.batch, h.interval⟩

/-! ## What a worker owes -/

structure World.SameDelivery (worker : WorkerType) (w w' : World) : Prop where
  owed : w'.owed worker = w.owed worker
  slots : w'.slots worker = w.slots worker
  checkpoint : w'.store.replicationCheckpoints worker = w.store.replicationCheckpoints worker

open World

lemma LoopStep.sameDelivery {l l' : ApplyLoop} {w w' : World} (h : LoopStep l w l' w')
    {worker : WorkerType} (hne : worker ≠ l.workerType) : SameDelivery worker w w' := by
  cases h with
  | push p x => exact ⟨by simp [owe, hne], rfl, rfl⟩
  | resolveDurable => exact ⟨by simp [discharge, recordSynced, hne], rfl, rfl⟩
  | persist lsn =>
    refine ⟨rfl, rfl, ?_⟩
    rw [Store.replicationCheckpoints_upsert, if_neg hne]
  | status => exact ⟨rfl, by simp [confirmFlush, hne], rfl⟩
  | _ => exact ⟨rfl, rfl, rfl⟩

lemma WorkerStep.sameDelivery {wal : Option Wal} {l l' : ApplyLoop} {w w' : World}
    (h : WorkerStep wal l w l' w') {worker : WorkerType} (hne : worker ≠ l.workerType) :
    SameDelivery worker w w' := by
  cases h with
  | loop h => exact h.sameDelivery hne
  | dropCheckpoint _ hworker =>
    exact ⟨rfl, rfl, by simp [Store.deleteReplicationCheckpoint, ← hworker, hne]⟩
  | resetForResync _ hworker => exact ⟨rfl, rfl, by simp [Store.resetForResync, ← hworker, hne]⟩
  | dropInvalidSlot _ hworker => exact ⟨rfl, by simp [deleteSlot, ← hworker, hne], rfl⟩
  | createSlot _ point hworker =>
    exact ⟨by simp [World.createSlot, ← hworker, hne],
      by simp [World.createSlot, ← hworker, hne], rfl⟩
  | dropSyncSlot _ t hworker => exact ⟨rfl, by simp [deleteSlot, ← hworker, hne], rfl⟩
  | dropSyncCheckpoint _ t hworker =>
    exact ⟨rfl, rfl, by simp [Store.deleteReplicationCheckpoint, ← hworker, hne]⟩
  | prepareForCopy _ t hworker =>
    exact ⟨rfl, rfl, by simp [Store.prepareForCopy, ← hworker, hne]⟩
  | createSyncSlot _ t point hworker =>
    exact ⟨by simp [World.createSlot, recordCopy, ← hworker, hne],
      by simp [World.createSlot, recordCopy, ← hworker, hne], rfl⟩
  | beginCopy _ t => exact ⟨rfl, rfl, rfl⟩
  | finishCopy _ t => exact ⟨rfl, rfl, rfl⟩
  | syncWait _ t => exact ⟨rfl, rfl, rfl⟩
  | storeError _ t => exact ⟨rfl, rfl, rfl⟩
  | rollback _ t previous store hworker hlive hphase hrolled =>
    exact ⟨rfl, rfl, by rw [World.rollback, Store.replicationCheckpoints_rollback hrolled]⟩
  | _ => exact ⟨rfl, rfl, rfl⟩

/-- No position of a worker lies beyond the commit of a transaction. -/
structure NotBeyond (worker : WorkerType) (l : ApplyLoop) (w : World) (lsn : PgLsn) : Prop where
  start : l.startLsn ≤ lsn
  confirmed : ∀ slot, w.slots worker = some slot → slot.confirmed ≤ lsn
  checkpoint : ∀ c, w.store.replicationCheckpoints worker = some c → c ≤ lsn
  sent : ∀ c ∈ l.sent, c ≤ lsn

structure Owing (wal : Wal) (worker : WorkerType) (l : ApplyLoop) (w : World) : Prop where
  slot : ∀ slot, w.slots worker = some slot → slot.consistentPoint ≤ slot.confirmed
  placed : l.phase.isPlaced = true → ∀ slot, w.slots worker = some slot → slot.confirmed ≤ l.startLsn
  cleared : l.phase.isCleared = true → w.store.replicationCheckpoints worker = none
  resolved : l.phase = .resolved →
    ∀ c, w.store.replicationCheckpoints worker = some c → c ≤ l.startLsn
  owed : ∀ t ∈ wal.transactions, t.commitLsn ∈ w.owed worker → NotBeyond worker l w t.commitLsn
  liveSlot : l.live = true → ∀ slot, w.slots worker = some slot → l.Behind wal l.covered slot.confirmed
  liveCheckpoint : l.live = true → ∀ c, w.store.replicationCheckpoints worker = some c →
    l.Behind wal l.covered c
  uncovered : l.live = true → ∀ lsn ∈ w.owed worker, lsn ∉ committedOf (l.produced.take l.covered)
  /-- The current transaction is owed once its BEGIN is buffered. -/
  inside : l.live = true → ∀ lsn, l.tx = some lsn → lsn ∈ w.owed worker ∨
    ∃ timestamp xid, l.handling = some (.begin lsn timestamp xid)
  events : l.live = true → ∀ p ∈ l.uncovered, ∀ lsn, p.tx = some lsn → lsn ∈ w.owed worker

namespace Owing

variable {wal : Wal} {worker : WorkerType} {session : Session} {l l' : ApplyLoop} {w w' : World}

lemma frame (h : Owing wal worker l w) (hsame : SameDelivery worker w w') :
    Owing wal worker l w' := by
  obtain ⟨howed, hslots, hcheckpoint⟩ := hsame
  constructor
  · rw [hslots]
    exact h.slot
  · rw [hslots]
    exact h.placed
  · rw [hcheckpoint]
    exact h.cleared
  · rw [hcheckpoint]
    exact h.resolved
  · intro t ht hmem
    obtain ⟨hstart, hconfirmed, hc, hsent⟩ := h.owed t ht (howed ▸ hmem)
    exact ⟨hstart, by rwa [hslots], by rwa [hcheckpoint], hsent⟩
  · rw [hslots]
    exact h.liveSlot
  · rw [hcheckpoint]
    exact h.liveCheckpoint
  · rw [howed]
    exact h.uncovered
  · rw [howed]
    exact h.inside
  · rw [howed]
    exact h.events

lemma notBeyond_of_live (hpositioned : Positioned wal l)
    (hslot : ∀ slot, w.slots worker = some slot → l.Behind wal l.covered slot.confirmed)
    (hcheckpoint : ∀ c, w.store.replicationCheckpoints worker = some c → l.Behind wal l.covered c)
    {t : Transaction} (ht : t ∈ wal.transactions) (hstart : l.startLsn ≤ t.commitLsn)
    (hnot : t.commitLsn ∉ committedOf (l.produced.take l.covered)) :
    NotBeyond worker l w t.commitLsn where
  start := hstart
  confirmed slot hs := hslot slot hs t ht hstart hnot
  checkpoint c hc := hcheckpoint c hc t ht hstart hnot
  sent c hc := hpositioned.sent c hc t ht hstart hnot

lemma step_of_dead (h : Owing wal worker l w) (hlive : l.live = false)
    (hstep : LoopStep l w l' w') : Owing wal worker l' w' := by
  have hsame : (∀ lsn ∈ w'.owed worker, lsn ∈ w.owed worker) ∧ w'.slots = w.slots ∧
      w'.store.replicationCheckpoints = w.store.replicationCheckpoints ∧ l'.sent = l.sent := by
    cases hstep with
    | push p x hlive' => simp [hlive] at hlive'
    | persist lsn hlive' => simp [hlive] at hlive'
    | status stream delivered hlive' => simp [hlive] at hlive'
    | resolveDurable =>
      refine ⟨fun lsn hlsn => ?_, rfl, rfl, rfl⟩
      by_cases hw : worker = l.workerType
      · subst hw
        simp only [recordSynced, discharge, Function.update_self] at hlsn
        exact List.mem_of_mem_filter hlsn
      · simpa [recordSynced, discharge, hw] using hlsn
    | _ => exact ⟨fun _ h => h, rfl, rfl, rfl⟩
  obtain ⟨howed, hslots, hcheckpoint, hsent⟩ := hsame
  have hdead : ¬ l'.live = true := fun h => by simp [hstep.live_of_live h] at hlive
  refine ⟨?_, ?_, ?_, ?_, ?_, fun h => absurd h hdead, fun h => absurd h hdead,
    fun h => absurd h hdead, fun h => absurd h hdead, fun h => absurd h hdead⟩
  · rw [hslots]
    exact h.slot
  · rw [hslots, hstep.phase_eq, hstep.startLsn_eq]
    exact h.placed
  · rw [hcheckpoint, hstep.phase_eq]
    exact h.cleared
  · rw [hcheckpoint, hstep.phase_eq, hstep.startLsn_eq]
    exact h.resolved
  · intro t ht hmem
    obtain ⟨hstart, hconfirmed, hc, hs⟩ := h.owed t ht (howed _ hmem)
    exact ⟨by rwa [hstep.startLsn_eq], by rwa [hslots], by rwa [hcheckpoint], by rwa [hsent]⟩

lemma push (h : Owing wal worker l w) (hworker : l.workerType = worker) (hlive : l.live = true)
    (hphase : l.phase = .engaged) (htracked : Tracked wal session l) (hpositioned : Positioned wal l)
    {p : Produced} {x : Inert} (hpositioned' : Positioned wal (l.push p x)) (htx : p.tx = l.tx)
    (hsource : l.handling = some p.source)
    (hbegins : p.source.isBoundary = true → p.event.begun?.isSome ∨ p.event.committed?.isSome)
    (hbegun : ∀ lsn, p.event.begun? = some lsn → l.tx = some lsn)
    (hcommitted : ∀ lsn, p.event.committed? = some lsn → ∃ flags endLsn timestamp,
      p.source = .commit flags lsn endLsn timestamp) :
    Owing wal worker (l.push p x) (w.owe l.workerType p.event.begun?) := by
  have howed : (w.owe l.workerType p.event.begun?).owed worker =
      p.event.begun?.toList ++ w.owed worker := by simp [owe, hworker]
  have htake : (l.push p x).produced.take l.covered = l.produced.take l.covered :=
    take_of_append (p := [p]) rfl (hpositioned.covered_le.trans hpositioned.dispatched_le)
  -- the transaction the loop is in has been begun
  have hinside : ∀ lsn, l.tx = some lsn → lsn ∈ p.event.begun?.toList ++ w.owed worker := by
    intro lsn hlsn
    rcases h.inside hlive lsn hlsn with hmem | ⟨timestamp, xid, hhandling⟩
    · exact List.mem_append_right _ hmem
    · have hsrc : p.source = .begin lsn timestamp xid := Option.some.inj (hsource.symm.trans hhandling)
      rcases hbegins (by rw [hsrc]; rfl) with hb | hc
      · obtain ⟨begun, hb⟩ := Option.isSome_iff_exists.1 hb
        obtain rfl : begun = lsn := Option.some.inj ((hbegun begun hb).symm.trans hlsn)
        simp [hb]
      · obtain ⟨c, hc⟩ := Option.isSome_iff_exists.1 hc
        obtain ⟨_, _, _, hsrc'⟩ := hcommitted c hc
        rw [hsrc] at hsrc'
        cases hsrc'
  have hstart : ∀ lsn ∈ p.event.begun?.toList ++ w.owed worker,
      lsn ∉ committedOf (l.produced.take l.covered) ∧
        ∀ t ∈ wal.transactions, t.commitLsn = lsn → l.startLsn ≤ lsn := by
    intro lsn hlsn
    rcases List.mem_append.1 hlsn with hmem | hmem
    · have hopen := hbegun lsn (Option.mem_toList.1 hmem)
      refine ⟨fun hin => htracked.not_committed_of_open hopen ?_,
        fun _ _ _ => htracked.startLsn_le_of_open hopen⟩
      rw [committedOf_take_add_drop l.produced l.covered]
      exact List.mem_append_left _ hin
    · refine ⟨h.uncovered hlive lsn hmem, ?_⟩
      rintro t ht rfl
      exact (h.owed t ht hmem).start
  have hslot : ∀ slot, w.slots worker = some slot → (l.push p x).Behind wal l.covered slot.confirmed :=
    fun slot hs => (h.liveSlot hlive slot hs).congr rfl htake
  have hcheckpoint : ∀ c, w.store.replicationCheckpoints worker = some c →
      (l.push p x).Behind wal l.covered c := fun c hc => (h.liveCheckpoint hlive c hc).congr rfl htake
  have huncovered : ∀ lsn ∈ p.event.begun?.toList ++ w.owed worker,
      lsn ∉ committedOf ((l.push p x).produced.take l.covered) := by
    rw [htake]
    exact fun lsn hlsn => (hstart lsn hlsn).1
  exact
    { slot := h.slot
      placed := fun hp => by
        rw [show (l.push p x).phase = .engaged from hphase] at hp
        cases hp
      cleared := h.cleared
      resolved := h.resolved
      owed := fun t ht hmem => by
        rw [howed] at hmem
        have hbound := notBeyond_of_live hpositioned' hslot hcheckpoint ht
          ((hstart _ hmem).2 t ht rfl) (huncovered _ hmem)
        exact ⟨hbound.start, hbound.confirmed, hbound.checkpoint, hbound.sent⟩
      liveSlot := fun _ => hslot
      liveCheckpoint := fun _ => hcheckpoint
      uncovered := fun _ => by
        rw [howed]
        exact huncovered
      inside := fun _ lsn hlsn => by
        rw [howed]
        refine .inl (hinside lsn ?_)
        simp only [ApplyLoop.push] at hlsn
        split at hlsn
        · cases hlsn
        · exact hlsn
      events := fun _ q hq lsn hlsn => by
        rw [howed]
        have hdrop : (l.push p x).uncovered = l.uncovered ++ [p] := by
          simp only [ApplyLoop.uncovered, ApplyLoop.push]
          exact List.drop_append_of_le_length (hpositioned.covered_le.trans hpositioned.dispatched_le)
        rw [hdrop] at hq
        rcases List.mem_append.1 hq with hq | hq
        · exact List.mem_append_right _ (h.events hlive q hq lsn hlsn)
        · rw [List.mem_singleton.1 hq, htx] at hlsn
          exact hinside lsn hlsn }

lemma settle (h : Owing wal worker l w) (hworker : l.workerType = worker) (hlive : l.live = true)
    (hphase : l.phase = .engaged) (htracked : Tracked wal session l) (hpositioned : Positioned wal l)
    {metadata : WriteMetadata} {x : Inert} (hpositioned' : Positioned wal (l.settle metadata x)) :
    Owing wal worker (l.settle metadata x)
      ((w.discharge l.workerType (committedOf (l.produced.take l.dispatched))).recordSynced
        l.workerType (l.produced.take l.dispatched)) := by
  have howed : ((w.discharge l.workerType
      (committedOf (l.produced.take l.dispatched))).recordSynced l.workerType
        (l.produced.take l.dispatched)).owed worker =
      (w.owed worker).filter fun lsn => lsn ∉ committedOf (l.produced.take l.dispatched) := by
    simp [recordSynced, discharge, hworker]
  have hmem : ∀ {lsn}, lsn ∈ (w.owed worker).filter
      (fun lsn => lsn ∉ committedOf (l.produced.take l.dispatched)) ↔
      lsn ∈ w.owed worker ∧ lsn ∉ committedOf (l.produced.take l.dispatched) := by
    intro lsn
    simp
  have hslot : ∀ slot, w.slots worker = some slot → l.Behind wal l.dispatched slot.confirmed :=
    fun slot hs => (h.liveSlot hlive slot hs).mono hpositioned.covered_le
  have hcheckpoint : ∀ c, w.store.replicationCheckpoints worker = some c →
      l.Behind wal l.dispatched c := fun c hc =>
    (h.liveCheckpoint hlive c hc).mono hpositioned.covered_le
  exact
    { slot := h.slot
      placed := fun hp => by
        rw [show (l.settle metadata x).phase = .engaged from hphase] at hp
        cases hp
      cleared := h.cleared
      resolved := h.resolved
      owed := fun t ht ho => by
        rw [howed, hmem] at ho
        have hbound := notBeyond_of_live hpositioned' hslot hcheckpoint ht
          (h.owed t ht ho.1).start ho.2
        exact ⟨hbound.start, hbound.confirmed, hbound.checkpoint, hbound.sent⟩
      liveSlot := fun _ => hslot
      liveCheckpoint := fun _ => hcheckpoint
      uncovered := fun _ lsn ho => by
        rw [howed, hmem] at ho
        exact ho.2
      inside := fun _ lsn hlsn => by
        rw [howed, hmem]
        refine (h.inside hlive lsn hlsn).imp_left fun ho => ⟨ho, fun hin => ?_⟩
        refine htracked.not_committed_of_open hlsn ?_
        rw [committedOf_take_add_drop l.produced l.dispatched]
        exact List.mem_append_left _ hin
      events := fun _ q hq lsn hlsn => by
        rw [howed, hmem]
        have hq' : q ∈ l.produced.drop l.dispatched := hq
        have hold : q ∈ l.uncovered := List.drop_subset_drop_left _ hpositioned.covered_le hq'
        refine ⟨h.events hlive q hold lsn hlsn, fun hin => ?_⟩
        -- nothing follows the COMMIT of a transaction
        obtain ⟨c, hc, hcommitted⟩ := List.mem_filterMap.1 hin
        have hclosed := htracked.closed
        rw [← List.take_append_drop l.dispatched l.produced] at hclosed
        exact (List.pairwise_append.1 hclosed).2.2 c hc q hq' lsn hcommitted hlsn }

lemma move (h : Owing wal worker l w) (hlive : l.live = true) (hphase : l.phase = .engaged)
    (hpositioned' : Positioned wal l') (howed : w'.owed worker = w.owed worker)
    (hstart : l'.startLsn = l.startLsn) (hphase' : l'.phase = l.phase)
    (hproduced : l'.produced = l.produced) (hcovered : l'.covered = l.covered)
    (hinside : ∀ lsn, l'.tx = some lsn → lsn ∈ w.owed worker ∨
      ∃ timestamp xid, l'.handling = some (.begin lsn timestamp xid))
    (hslot : ∀ slot, w'.slots worker = some slot → slot.consistentPoint ≤ slot.confirmed ∧
      l.Behind wal l.covered slot.confirmed)
    (hcheckpoint : ∀ c, w'.store.replicationCheckpoints worker = some c → l.Behind wal l.covered c) :
    Owing wal worker l' w' := by
  have hbehind : ∀ {lsn}, l.Behind wal l.covered lsn → l'.Behind wal l'.covered lsn := fun hb => by
    rw [hcovered]
    exact hb.congr hstart (by rw [hproduced])
  refine ⟨fun slot hs => (hslot slot hs).1, ?_, ?_, ?_, fun t ht hmem => ?_,
    fun _ slot hs => hbehind (hslot slot hs).2, fun _ c hc => hbehind (hcheckpoint c hc), ?_, ?_, ?_⟩
  · simp [hphase', hphase, Phase.isPlaced]
  · simp [hphase', hphase, Phase.isCleared]
  · simp [hphase', hphase]
  · rw [howed] at hmem
    refine notBeyond_of_live hpositioned' (fun slot hs => hbehind (hslot slot hs).2)
      (fun c hc => hbehind (hcheckpoint c hc)) ht ?_ ?_
    · rw [hstart]
      exact (h.owed t ht hmem).start
    · rw [hproduced, hcovered]
      exact h.uncovered hlive _ hmem
  · rw [howed, hproduced, hcovered]
    exact fun _ => h.uncovered hlive
  · rw [howed]
    exact fun _ => hinside
  · rw [howed, ApplyLoop.uncovered, hproduced, hcovered]
    exact fun _ => h.events hlive

lemma step_of_live (h : Owing wal worker l w) (hworker : l.workerType = worker)
    (hlive : l.live = true) (hphase : l.phase = .engaged) (htracked : Tracked wal session l)
    (hpositioned : Positioned wal l) (hstep : LoopStep l w l' w') : Owing wal worker l' w' := by
  have hpositioned' := hpositioned.step htracked hstep
  have hslot : ∀ slot, w.slots worker = some slot → slot.consistentPoint ≤ slot.confirmed ∧
      l.Behind wal l.covered slot.confirmed := fun slot hs =>
    ⟨h.slot slot hs, h.liveSlot hlive slot hs⟩
  cases hstep with
  | push p x _ hsource htx _ _ _ _ _ hbegins hbegun hcommitted =>
    refine h.push hworker hlive hphase htracked hpositioned (hpositioned' hlive) htx hsource hbegins
      (fun lsn hlsn => (hbegun lsn hlsn).1) fun lsn hlsn => ?_
    obtain ⟨-, -, flags, endLsn, timestamp, hsrc, -⟩ := hcommitted lsn hlsn
    exact ⟨flags, endLsn, timestamp, hsrc⟩
  | resolveDurable metadata x =>
    exact h.settle hworker hlive hphase htracked hpositioned (hpositioned' hlive)
  | resolveError metadata x =>
    refine ⟨h.slot, h.placed, h.cleared, h.resolved, fun t ht hmem => ?_, by simp, by simp, by simp,
      by simp, by simp⟩
    obtain ⟨hstart, hconfirmed, hcheckpoint, hsent⟩ := h.owed t ht hmem
    exact ⟨hstart, hconfirmed, hcheckpoint, hsent⟩
  | persist lsn _ hsettled =>
    refine h.move hlive hphase (hpositioned' hlive) rfl rfl rfl rfl rfl (h.inside hlive) hslot
      fun c hc => ?_
    rw [Store.replicationCheckpoints_upsert, if_pos hworker.symm, hworker] at hc
    have hnew := (hpositioned.settled lsn hsettled).1
    cases hold : w.store.replicationCheckpoints worker with
    | none =>
      rw [hold] at hc
      cases hc
      exact hnew
    | some persisted =>
      rw [hold] at hc
      cases hc
      exact fun t ht hs hn => max_le (h.liveCheckpoint hlive persisted hold t ht hs hn) (hnew t ht hs hn)
  | status stream delivered _ htx hhandling hreported =>
    refine h.move hlive hphase (hpositioned' hlive) rfl rfl rfl rfl rfl (h.inside hlive)
      (fun slot' hs => ?_) (h.liveCheckpoint hlive)
    have hflush := hpositioned.behind_flushLsn htracked htx
    simp only [confirmFlush, hworker, Function.update_self, Option.map_eq_some_iff] at hs
    obtain ⟨slot, hslot, rfl⟩ := hs
    split
    · exact ⟨(h.slot slot hslot).trans (le_max_left _ _), fun t ht hs hn =>
        max_le (h.liveSlot hlive slot hslot t ht hs hn) (hflush t ht hs hn)⟩
    · exact ⟨h.slot slot hslot, h.liveSlot hlive slot hslot⟩
  | receive m _ _ hrest =>
    refine h.move hlive hphase (hpositioned' hlive) rfl rfl rfl rfl rfl (fun lsn hlsn => ?_) hslot
      (h.liveCheckpoint hlive)
    have hold : l.tx = some lsn → lsn ∈ w.owed worker := fun htx => by
      refine (h.inside hlive lsn htx).resolve_right ?_
      rw [hrest.handling]
      simp
    cases m with
    | primaryKeepAlive => exact .inl (hold hlsn)
    | xLogData _ _ data =>
      cases data with
      | begin finalLsn timestamp xid =>
        cases hlsn
        exact .inr ⟨timestamp, xid, rfl⟩
      | _ => exact .inl (hold hlsn)
  | skip data hhandling _ hinner =>
    refine h.move hlive hphase (hpositioned' hlive) rfl rfl rfl rfl rfl (fun lsn hlsn => ?_) hslot
      (h.liveCheckpoint hlive)
    refine .inl ((h.inside hlive lsn hlsn).resolve_right ?_)
    rintro ⟨timestamp, xid, hbegin⟩
    rw [hhandling] at hbegin
    cases hbegin
    cases hinner
  | _ =>
    exact h.move hlive hphase (hpositioned' hlive) rfl rfl rfl rfl rfl (h.inside hlive) hslot
      (h.liveCheckpoint hlive)

lemma of_dead (hlive : l.live = false)
    (hslot : ∀ slot, w.slots worker = some slot → slot.consistentPoint ≤ slot.confirmed)
    (hplaced : l.phase.isPlaced = true → ∀ slot, w.slots worker = some slot →
      slot.confirmed ≤ l.startLsn)
    (hcleared : l.phase.isCleared = true → w.store.replicationCheckpoints worker = none)
    (hresolved : l.phase = .resolved → ∀ c, w.store.replicationCheckpoints worker = some c →
      c ≤ l.startLsn)
    (howed : ∀ t ∈ wal.transactions, t.commitLsn ∈ w.owed worker →
      NotBeyond worker l w t.commitLsn) : Owing wal worker l w where
  slot := hslot
  placed := hplaced
  cleared := hcleared
  resolved := hresolved
  owed := howed
  liveSlot h := by simp [hlive] at h
  liveCheckpoint h := by simp [hlive] at h
  uncovered h := by simp [hlive] at h
  inside h := by simp [hlive] at h
  events h := by simp [hlive] at h

lemma start (h : Owing wal worker l w) {decoders : TableId → Option TableDecodingState}
    {target : PgLsn} (hplaced : l.phase.isPlaced = true)
    (hcheckpoint : ∀ c, w.store.replicationCheckpoints worker = some c → c ≤ l.startLsn)
    (hsame : SameDelivery worker w w') :
    Owing wal worker (l.startLoop (some wal) l.startLsn decoders target) w' := by
  refine frame (w := w) ?_ hsame
  exact
    { slot := h.slot
      placed := nofun
      cleared := nofun
      resolved := nofun
      owed := fun t ht hmem => by
        obtain ⟨hstart, hconfirmed, hc, -⟩ := h.owed t ht hmem
        exact ⟨hstart, hconfirmed, hc, nofun⟩
      liveSlot := fun _ slot hs t _ hstart _ => (h.placed hplaced slot hs).trans hstart
      liveCheckpoint := fun _ c hc t _ hstart _ => (hcheckpoint c hc).trans hstart
      uncovered := fun _ _ _ h => nomatch h
      inside := fun _ _ h => nomatch h
      events := fun _ _ h => nomatch h }

lemma owed_congr (h : Owing wal worker l w) (hstart : l'.startLsn = l.startLsn)
    (hsent : l'.sent = l.sent) (hsame : SameDelivery worker w w') :
    ∀ t ∈ wal.transactions, t.commitLsn ∈ w'.owed worker → NotBeyond worker l' w' t.commitLsn := by
  intro t ht hmem
  obtain ⟨hs, hconfirmed, hc, hsent'⟩ := h.owed t ht (hsame.owed ▸ hmem)
  exact ⟨by rwa [hstart], by rwa [hsame.slots], by rwa [hsame.checkpoint], by rwa [hsent]⟩

lemma dropSlot (h : Owing wal worker l w) (hlive : l.live = false) :
    Owing wal worker l (w.deleteSlot worker) := by
  have hnone : (w.deleteSlot worker).slots worker = none := by simp [deleteSlot]
  refine of_dead hlive ?_ ?_ h.cleared h.resolved fun t ht hmem => ?_
  · exact fun slot hs => nomatch hnone.symm.trans hs
  · exact fun _ slot hs => nomatch hnone.symm.trans hs
  · obtain ⟨hstart, -, hc, hsent⟩ := h.owed t ht hmem
    exact ⟨hstart, fun slot hs => (nomatch hnone.symm.trans hs), hc, hsent⟩

lemma dropCheckpoint (h : Owing wal worker l w) (hlive : l.live = false) {store : Store}
    (hnone : store.replicationCheckpoints worker = none) {phase : Phase}
    (hplaced : phase.isPlaced = true → l.phase.isPlaced = true) :
    Owing wal worker { l with phase := phase } { w with store := store } := by
  refine of_dead hlive h.slot (fun hp => h.placed (hplaced hp)) (fun _ => hnone) ?_ fun t ht hmem => ?_
  · exact fun _ c hc => nomatch hnone.symm.trans hc
  · obtain ⟨hstart, hconfirmed, -, hsent⟩ := h.owed t ht hmem
    exact ⟨hstart, hconfirmed, fun c hc => (nomatch hnone.symm.trans hc), hsent⟩

lemma created (hlive : l.live = false) (hcleared : w.store.replicationCheckpoints worker = none)
    {point : PgLsn} (hstart : l.startLsn = point)
    (hslot : w'.slots worker = some ⟨point, point, false⟩) (howed : w'.owed worker = [])
    (hcheckpoint : w'.store.replicationCheckpoints worker = w.store.replicationCheckpoints worker) :
    Owing wal worker l w' := by
  rw [hcleared] at hcheckpoint
  refine of_dead hlive (fun slot hs => ?_) (fun _ slot hs => ?_) (fun _ => hcheckpoint) ?_ ?_
  · cases hslot.symm.trans hs
    exact le_rfl
  · cases hslot.symm.trans hs
    exact hstart.ge
  · exact fun _ c hc => nomatch hcheckpoint.symm.trans hc
  · intro t _ hmem
    rw [howed] at hmem
    cases hmem

lemma resolve (h : Owing wal worker l w) (hlive : l.live = false)
    (hplaced : l.phase.isPlaced = true) :
    Owing wal worker
      { l with
        phase := .resolved
        startLsn := match w.store.replicationCheckpoints worker with
          | some checkpoint => max checkpoint l.startLsn
          | none => l.startLsn } w := by
  have hslot := h.placed hplaced
  cases hc : w.store.replicationCheckpoints worker with
  | none =>
    refine of_dead hlive h.slot (fun _ => hslot) nofun ?_ (h.owed_congr rfl rfl ⟨rfl, rfl, rfl⟩)
    exact fun _ c hc' => nomatch hc.symm.trans hc'
  | some checkpoint =>
    refine of_dead hlive h.slot (fun _ slot hs => (hslot slot hs).trans (le_max_right _ _)) nofun
      (fun _ c hc' => ?_) fun t ht hmem => ?_
    · cases hc.symm.trans hc'
      exact le_max_left _ _
    · obtain ⟨hstart, hconfirmed, hbefore, hsent⟩ := h.owed t ht hmem
      exact ⟨max_le (hbefore checkpoint hc) hstart, hconfirmed, hbefore, hsent⟩

lemma workerStep (h : Owing wal worker l w) (hworker : l.workerType = worker)
    (hphase : l.live = true → l.phase = .engaged)
    (hlive : l.live = true → Positioned wal l ∧ ∃ session, Tracked wal session l)
    (hstep : WorkerStep (some wal) l w l' w') : Owing wal worker l' w' := by
  have hsame : SameDelivery worker w w := ⟨rfl, rfl, rfl⟩
  cases hstep
  case loop hstep =>
    cases hl : l.live with
    | false => exact h.step_of_dead hl hstep
    | true =>
      obtain ⟨hpositioned, session, htracked⟩ := hlive hl
      exact h.step_of_live hworker hl (hphase hl) htracked hpositioned hstep
  case leave hrunning hdrained =>
    exact of_dead rfl h.slot nofun nofun nofun (h.owed_congr rfl rfl hsame)
  case retry attempts =>
    exact ⟨h.slot, h.placed, h.cleared, h.resolved, h.owed_congr rfl rfl hsame, h.liveSlot,
      h.liveCheckpoint, h.uncovered, h.inside, h.events⟩
  case countAttempts tableId attempts hworker' => exact h.frame ⟨rfl, rfl, rfl⟩
  case slotFound slot hworker' hlive' _ hfound =>
    rw [hworker] at hworker'
    subst hworker'
    refine of_dead hlive' h.slot (fun _ slot' hs => ?_) nofun nofun fun t ht hmem => ?_
    · rw [hfound] at hs
      cases hs
      exact le_rfl
    · obtain ⟨-, hconfirmed, hc, hsent⟩ := h.owed t ht hmem
      exact ⟨hconfirmed slot hfound, hconfirmed, hc, hsent⟩
  case slotValid slot hworker' hlive' hphase' hvalid hfound =>
    exact of_dead hlive' h.slot (fun _ => h.placed (by rw [hphase']; rfl)) nofun nofun
      (h.owed_congr rfl rfl hsame)
  case dropCheckpoint hworker' hlive' hphase' =>
    rw [hworker] at hworker'
    subst hworker'
    exact h.dropCheckpoint hlive' (by simp [Store.deleteReplicationCheckpoint]) nofun
  case resetForResync hworker' hlive' hphase' =>
    rw [hworker] at hworker'
    subst hworker'
    exact h.dropCheckpoint hlive' (by simp [Store.resetForResync]) nofun
  case dropInvalidSlot hworker' hlive' hphase' =>
    rw [hworker] at hworker'
    subst hworker'
    exact h.dropSlot hlive'
  case dropSyncSlot tableId hworker' hlive' =>
    rw [hworker] at hworker'
    subst hworker'
    exact h.dropSlot hlive'
  case createSlot point hworker' hlive' hphase' hfree hbeyond =>
    rw [hworker] at hworker'
    subst hworker'
    exact created (w := w) hlive' (h.cleared (by rw [hphase']; rfl)) rfl
      (by simp [World.createSlot]) (by simp [World.createSlot]) rfl
  case resolve hworker' hlive' hphase' =>
    rw [hworker] at hworker'
    subst hworker'
    exact h.resolve hlive' (by rw [hphase']; rfl)
  case startApply hworker' hlive' hphase' =>
    exact h.start (by rw [hphase']; rfl) (h.resolved hphase') ⟨rfl, rfl, rfl⟩
  case dropSyncCheckpoint tableId hworker' hlive' =>
    rw [hworker] at hworker'
    subst hworker'
    exact h.dropCheckpoint hlive' (by simp [Store.deleteReplicationCheckpoint]) id
  case prepareForCopy tableId hworker' hlive' hphase' =>
    rw [hworker] at hworker'
    subst hworker'
    exact h.dropCheckpoint hlive' (by simp [Store.prepareForCopy]) nofun
  case beginCopy tableId hworker' hlive' hphase' =>
    refine of_dead hlive' h.slot nofun (fun _ => h.cleared (by rw [hphase']; rfl)) nofun ?_
    exact h.owed_congr rfl rfl ⟨rfl, rfl, rfl⟩
  case createSyncSlot tableId point hworker' hlive' hphase' hfree =>
    rw [hworker] at hworker'
    subst hworker'
    exact created (w := w) hlive' (h.cleared (by rw [hphase']; rfl)) rfl
      (by simp [World.createSlot, recordCopy]) (by simp [World.createSlot, recordCopy]) rfl
  case storeCopySchema tableId schema hworker' hlive' hphase' hid hinitial =>
    refine of_dead hlive' h.slot h.placed h.cleared h.resolved ?_
    exact h.owed_congr rfl rfl ⟨rfl, rfl, rfl⟩
  case finishCopy tableId hworker' hlive' hphase' hschema =>
    refine of_dead hlive' h.slot (fun _ => h.placed (by rw [hphase']; rfl))
      (fun _ => h.cleared (by rw [hphase']; rfl)) nofun ?_
    exact h.owed_congr rfl rfl ⟨rfl, rfl, rfl⟩
  case syncWait tableId hworker' hlive' hphase' =>
    refine of_dead hlive' h.slot (fun _ => h.placed (by rw [hphase']; rfl))
      (fun _ => h.cleared (by rw [hphase']; rfl)) nofun ?_
    exact h.owed_congr rfl rfl ⟨rfl, rfl, rfl⟩
  case follow tableId schema target hworker' hlive' hphase' hstate hcopied hfits =>
    refine h.start (by rw [hphase']; rfl) (fun c hc => ?_) hsame
    rw [h.cleared (by rw [hphase']; rfl)] at hc
    cases hc
  case rollback tableId previous store hworker' hlive' hphase' hrolled =>
    refine of_dead hlive' h.slot nofun nofun nofun (h.owed_congr rfl rfl ⟨rfl, rfl, ?_⟩)
    rw [World.rollback, Store.replicationCheckpoints_rollback hrolled]
  all_goals exact of_dead ‹_› h.slot nofun nofun nofun (h.owed_congr rfl rfl ⟨rfl, rfl, rfl⟩)

lemma updateSlot (h : Owing wal worker l w) (k : WorkerType) {f : Slot → Option Slot}
    (hf : ∀ slot slot', f slot = some slot' → slot.consistentPoint ≤ slot.confirmed →
      slot'.consistentPoint ≤ slot'.confirmed ∧ slot'.confirmed ≤ slot.confirmed) :
    Owing wal worker l (w.updateSlot k f) := by
  by_cases hk : worker = k
  · subst hk
    have hslot : ∀ slot', (w.updateSlot worker f).slots worker = some slot' →
        ∃ slot, w.slots worker = some slot ∧ slot'.consistentPoint ≤ slot'.confirmed ∧
          slot'.confirmed ≤ slot.confirmed := by
      intro slot' hs'
      simp only [World.updateSlot, Function.update_self, Option.bind_eq_some_iff] at hs'
      obtain ⟨slot, hs, hfs⟩ := hs'
      exact ⟨slot, hs, hf slot slot' hfs (h.slot slot hs)⟩
    refine ⟨?_, ?_, h.cleared, h.resolved, ?_, ?_, h.liveCheckpoint, h.uncovered, h.inside, h.events⟩
    · intro slot' hs'
      obtain ⟨_, _, hconsistent, -⟩ := hslot slot' hs'
      exact hconsistent
    · intro hplaced slot' hs'
      obtain ⟨slot, hs, -, hle⟩ := hslot slot' hs'
      exact hle.trans (h.placed hplaced slot hs)
    · intro t ht hmem
      obtain ⟨hstart, hconfirmed, hc, hsent⟩ := h.owed t ht hmem
      refine ⟨hstart, fun slot' hs' => ?_, hc, hsent⟩
      obtain ⟨slot, hs, -, hle⟩ := hslot slot' hs'
      exact hle.trans (hconfirmed slot hs)
    · intro hlive slot' hs' t ht hstart hnot
      obtain ⟨slot, hs, -, hle⟩ := hslot slot' hs'
      exact hle.trans (h.liveSlot hlive slot hs t ht hstart hnot)
  · exact h.frame ⟨rfl, by simp [World.updateSlot, hk], rfl⟩

lemma environment (h : Owing wal worker l w) {action : Action}
    (hstep : System.environment w action = some w') : Owing wal worker l w' := by
  cases action with
  | turn _ _ => cases hstep
  | restart => cases hstep
  | shutdown => cases hstep; exact h.frame ⟨rfl, rfl, rfl⟩
  | regress k lsn =>
    cases hstep
    refine h.updateSlot k ?_
    rintro slot _ ⟨⟩ hle
    exact ⟨le_max_left _ _, max_le hle (min_le_right _ _)⟩
  | invalidate k =>
    cases hstep
    refine h.updateSlot k ?_
    rintro slot _ ⟨⟩ hle
    exact ⟨hle, le_rfl⟩
  | loseSlot k => cases hstep; exact h.updateSlot k nofun
  | cleanUp k count failed =>
    cases hstep
    refine h.frame ⟨rfl, rfl, ?_⟩
    cases failed <;> rfl
  | setMetadata t metadata => cases hstep; exact h.frame ⟨rfl, rfl, rfl⟩
  | register t =>
    simp only [System.environment] at hstep
    split at hstep
    · cases hstep
      exact h.frame ⟨rfl, rfl, rfl⟩
    · cases hstep

lemma restart (h : Owing wal worker l w) :
    Owing wal worker (.unstarted worker) w.restart := by
  refine of_dead rfl h.slot nofun nofun nofun fun t ht hmem => ?_
  obtain ⟨-, hconfirmed, hc, -⟩ := h.owed t ht hmem
  exact ⟨PgLsn.zero_le _, hconfirmed, hc, nofun⟩

end Owing

lemma System.Reachable.owing {config : Config} {wal : Wal} (hwal : config.wal = some wal)
    {Allowed : Memory → Memory → Prop} {s : System} (hs : s.Reachable config Allowed)
    (worker : WorkerType) : Owing wal worker (s.memory.loops worker) s.world := by
  refine hs.invariant (J := fun m => ∀ worker, Owing wal worker (m.loops worker) m.world)
    (fun worker => .of_dead rfl nofun nofun nofun nofun nofun) ?_ worker
  intro s m' hs hm hmove _ j
  cases hmove with
  | worker k step =>
    have hk := (hs.proceeds.coordinated k).workerType
    by_cases hj : j = k
    · subst hj
      simp only [Function.update_self]
      refine (hm j).workerStep hk (hs.proceeds.coordinated j).started (fun hlive => ?_)
        (hwal ▸ step)
      obtain ⟨session, -, htracked⟩ := hs.tracked hwal j hlive
      exact ⟨hs.positioned hwal j hlive, session, htracked⟩
    · simp only [Function.update_of_ne hj]
      exact (hm j).frame (step.sameDelivery (hk.symm ▸ hj))
  | environment action step => exact (hm j).environment step
  | restart => exact (hm j).restart
  | idle => exact hm j

/-- At-least-once delivery: as long as a transaction has been buffered on the slot of a worker and is
not durable in full, no flush position its loop reports, no checkpoint, no start position and no
confirmed position of its slot reaches the end of the transaction. What is buffered and not durable
counts as such. -/
theorem delivery_at_least_once {config : Config} {wal : Wal} (hwal : config.wal = some wal)
    {s : System} (hs : s.Reachable config System.AnyStep) (worker : WorkerType) :
    (∀ t ∈ wal.transactions, t.commitLsn ∈ s.world.owed worker →
      (∀ lsn ∈ (s.memory.loops worker).sent, lsn < t.endLsn) ∧
      (∀ lsn, s.world.store.replicationCheckpoints worker = some lsn → lsn < t.endLsn) ∧
      (s.memory.loops worker).startLsn < t.endLsn ∧
      ∀ slot, s.world.slots worker = some slot → slot.confirmed < t.endLsn) ∧
    ((s.memory.loops worker).live = true → ∀ p ∈ (s.memory.loops worker).uncovered,
      ∀ lsn, p.tx = some lsn → lsn ∈ s.world.owed worker) := by
  have h := hs.owing hwal worker
  refine ⟨fun t ht hmem => ?_, h.events⟩
  obtain ⟨hstart, hconfirmed, hcheckpoint, hsent⟩ := h.owed t ht hmem
  have hend : t.commitLsn < t.endLsn := t.commit_lt_end
  exact ⟨fun lsn hlsn => (hsent lsn hlsn).trans_lt hend,
    fun lsn hlsn => (hcheckpoint lsn hlsn).trans_lt hend, hstart.trans_lt hend,
    fun slot hs => (hconfirmed slot hs).trans_lt hend⟩

def Wal.single : Wal := ⟨[⟨15, 20, [], fifteen_lt_twenty, forall_isChange_nil⟩], by simp⟩

def System.followedCopy : System :=
  initial.play (sampleConfig (some .single))
    [.register 1, .turn .apply { lsn := 5 }, .turn .apply { lsn := 5 },
      .turn .apply { branch := .streamMessage (.ok (.primaryKeepAlive 12 true)) },
      .turn (.tableSync 1) {}, .turn (.tableSync 1) { lsn := 10 },
      .turn .apply { branch := .streamMessage (.ok (.primaryKeepAlive 12 true)) },
      .turn (.tableSync 1) {},
      .turn (.tableSync 1) { branch := .streamMessage (.ok (.xLogData 15 15 (.begin 15 0 0))) },
      .turn (.tableSync 1) {}]

/-- The worker has reported a position, and the transaction is owed. -/
theorem delivery_at_least_once_followedCopy :
    (System.followedCopy.memory.loops (.tableSync 1)).sent = [10] ∧
      15 ∈ System.followedCopy.world.owed (.tableSync 1) ∧
      ∀ lsn ∈ (System.followedCopy.memory.loops (.tableSync 1)).sent, lsn < 20 := by
  have howed : 15 ∈ System.followedCopy.world.owed (.tableSync 1) := by decide +kernel
  refine ⟨by decide +kernel, howed, ?_⟩
  exact ((delivery_at_least_once rfl
    (System.reachable_play .initial _ : System.followedCopy.Reachable _ _) (.tableSync 1)).1
      ⟨15, 20, [], by decide, by simp⟩ (by simp [Wal.single]) howed).1

def System.copiedAgain : System :=
  followedCopy.play (sampleConfig (some .single))
    [.restart, .turn .apply {}, .turn .apply {},
      .turn .apply { branch := .streamMessage (.ok (.xLogData 15 15 (.begin 15 0 0))) },
      .turn .apply { branch := .streamMessage (.ok (.xLogData 15 20 (.commit 0 15 20 0))) },
      .turn .apply { branch := .batchDeadline },
      .turn .apply { branch := .flushResult (.ok .durable) },
      .turn .apply { branch := .streamMessage (.ok (.primaryKeepAlive 33 false)) },
      .turn (.tableSync 1) {}, .turn (.tableSync 1) { lsn := 30 },
      .turn .apply {},
      .turn (.tableSync 1) {}, .turn (.tableSync 1) {}]

/-- A new copy leaves behind what was buffered on the slot of the last one: its snapshot holds those
transactions, and the positions of the new slot lie beyond them. -/
theorem delivery_of_copiedAgain :
    System.copiedAgain.Reachable (System.sampleConfig (some .single)) System.AnyStep ∧
      15 ∈ System.copiedAgain.world.forgotten (.tableSync 1) ∧
      ∃ t ∈ Wal.single.transactions, t.commitLsn = 15 ∧
        ∃ lsn ∈ (System.copiedAgain.memory.loops (.tableSync 1)).sent, t.endLsn ≤ lsn := by
  refine ⟨System.reachable_play (System.reachable_play .initial _) _, by decide +kernel,
    ⟨15, 20, [], by decide, by simp⟩, by simp [Wal.single], rfl, 30, ?_, by decide⟩
  decide +kernel

end Etl
