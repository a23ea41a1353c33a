import Etl.Guarantees.Batching
import Etl.Guarantees.Content
import Etl.Guarantees.Handover

/-!
# The table-sync worker up to a handover

At a handover every change of the table after the copy and up to the position is durable, and
nothing that was made an event ends after it.
-/

namespace Etl

open World

def changesOf (events : List Produced) : List (PgLsn × LogicalReplicationMessage) :=
  events.filterMap fun p => p.tx.map fun lsn => (lsn, p.source)

structure Sealed (wal : Wal) (t : TableId) (lt : ApplyLoop) (w : World) : Prop where
  quiet : lt.live = true → lt.done = true → lt.handling = none
  start : lt.Unhanded → lt.startLsn = w.copyPoint t
  fresh : lt.phase = .slotted ∨ lt.phase = .copied ∨ lt.phase = .waiting → w.synced t = []
  synced : lt.live = true → w.synced t = changesOf (lt.produced.take lt.covered)
  /-- What has become an event ends before the handover. -/
  events : ∀ h, w.handover t = some h → ∀ p ∈ lt.produced,
    ∃ T ∈ wal.transactions, p.tx = some T.commitLsn ∧ T.endLsn ≤ h
  /-- Every change that ends before the handover is in the copy or durable. -/
  complete : ∀ h, w.handover t = some h → ∀ T ∈ wal.transactions, w.copyPoint t ≤ T.commitLsn →
    T.endLsn ≤ h → ∀ change ∈ T.changes, change.touches t = true →
      (T.commitLsn, change) ∈ w.synced t

namespace Sealed

variable {wal : Wal} {session : Session} {t : TableId} {la lt lt' : ApplyLoop} {w w' : World}

structure Same (t : TableId) (w w' : World) : Prop where
  handover : w'.handover t = w.handover t
  copyPoint : w'.copyPoint t = w.copyPoint t
  synced : w'.synced t = w.synced t

lemma frame (h : Sealed wal t lt w) (hsame : Same t w w')
    (hlive : lt'.live = true → lt.live = true) (hdone : lt'.done = lt.done)
    (hhandling : lt.handling = none → lt'.handling = none) (hphase : lt'.phase = lt.phase)
    (hstart : lt'.startLsn = lt.startLsn) (hproduced : lt'.produced = lt.produced)
    (hcovered : lt'.covered = lt.covered) : Sealed wal t lt' w' where
  quiet hl hd := hhandling (h.quiet (hlive hl) (hdone ▸ hd))
  start hu := by
    rw [hstart, hsame.copyPoint]
    refine h.start ?_
    unfold ApplyLoop.Unhanded at hu ⊢
    rw [hphase, hdone] at hu
    exact hu.imp_right (Or.imp_right (Or.imp_right (And.imp_left hlive)))
  fresh hp := by
    rw [hsame.synced]
    exact h.fresh (hphase ▸ hp)
  synced hl := by
    rw [hsame.synced, hproduced, hcovered]
    exact h.synced (hlive hl)
  events := by
    rw [hsame.handover, hproduced]
    exact h.events
  complete := by
    rw [hsame.handover, hsame.copyPoint, hsame.synced]
    exact h.complete

lemma frame_world (h : Sealed wal t lt w) (hsame : Same t w w') : Sealed wal t lt w' :=
  h.frame hsame id rfl id rfl rfl rfl rfl

/-! ### Steps of the table-sync loop -/

lemma of_unhanded (hdone : lt'.done = false) (hhandover : w'.handover t = none)
    (hstart : lt'.Unhanded → lt'.startLsn = w'.copyPoint t)
    (hfresh : lt'.phase = .slotted ∨ lt'.phase = .copied ∨ lt'.phase = .waiting → w'.synced t = [])
    (hsynced : lt'.live = true → w'.synced t = changesOf (lt'.produced.take lt'.covered)) :
    Sealed wal t lt' w' where
  quiet _ hd := by simp [hdone] at hd
  start := hstart
  fresh := hfresh
  synced := hsynced
  events := by simp [hhandover]
  complete := by simp [hhandover]

lemma settle (h : Sealed wal t lt w) (hworker : lt.workerType = .tableSync t)
    (hlive : lt.live = true) (hphase : lt.phase = .engaged) (hle : lt.covered ≤ lt.dispatched)
    {metadata : WriteMetadata} {x : Inert} {committed : List PgLsn} :
    Sealed wal t (lt.settle metadata x) ((w.discharge lt.workerType committed).recordSynced
      lt.workerType (lt.produced.take lt.dispatched)) := by
  have hnow : ((w.discharge lt.workerType committed).recordSynced lt.workerType
      (lt.produced.take lt.dispatched)).synced t = changesOf (lt.produced.take lt.dispatched) := by
    simp [recordSynced, hworker, changesOf]
  refine ⟨h.quiet, h.start, fun hp => ?_, fun _ => hnow, h.events, ?_⟩
  · have hp' : lt.phase = .slotted ∨ lt.phase = .copied ∨ lt.phase = .waiting := hp
    simp [hphase] at hp'
  · intro lsn hlsn T hT hcopy hend change hchange htouches
    have hmem := h.complete lsn hlsn T hT hcopy hend change hchange htouches
    rw [h.synced hlive] at hmem
    rw [hnow]
    obtain ⟨p, hp, hpair⟩ := List.mem_filterMap.1 hmem
    exact List.mem_filterMap.2 ⟨p, List.take_subset_take_left _ hle hp, hpair⟩

variable {l : ApplyLoop}

lemma committedOf_covered (hpositioned : l.Positioned wal)
    (hq : l.state.isQuiescent) : committedOf l.produced = committedOf (l.produced.take l.covered) := by
  obtain ⟨-, -, hpending, hcommit⟩ := ApplyLoopState.isQuiescent_iff.1 hq
  have hbatch := hpositioned.batch hcommit
  have hinterval := hpositioned.interval hcommit (by simp [hpending])
  rw [ApplyLoop.committedOf_take_add_drop l.produced l.dispatched, hbatch, List.append_nil,
    ApplyLoop.committedOf_take_add_drop (l.produced.take l.dispatched) l.covered, hinterval,
    List.append_nil, List.take_take, min_eq_left hpositioned.covered_le]

variable {lsn : PgLsn}

lemma mem_take_of_committed (htracked : l.Tracked wal session) {n : Nat}
    {p : Produced} (hp : p ∈ l.produced) (htx : p.tx = some lsn)
    (hcommitted : lsn ∈ committedOf (l.produced.take n)) : p ∈ l.produced.take n := by
  obtain ⟨q, hq, hcommit⟩ := List.mem_filterMap.1 hcommitted
  have hclosed := htracked.closed
  rw [← List.take_append_drop n l.produced] at hclosed hp
  refine (List.mem_append.1 hp).resolve_right fun hdrop => ?_
  exact (List.pairwise_append.1 hclosed).2.2 q hq p hdrop lsn hcommit htx

lemma syncDone (h : Sealed wal t lt w) (hworker : lt.workerType = .tableSync t)
    (hlive : lt.live = true) (hphase : lt.phase = .engaged) (hdone : lt.done = false)
    (hpositioned : lt.Positioned wal) (htracked : lt.Tracked wal session)
    (hrecorded : lt.Recorded wal) (hhandling : lt.handling = none) (htx : lt.tx = none)
    (hq : lt.state.isQuiescent)
    (hposition : lt.settled = some lsn ∨ lt.state.progress.lastReceivedLsn = lsn)
    {schema : ReplicatedTableSchema} : Sealed wal t { lt with done := true }
      ((w.setAndStore t (.ofSyncDone lsn schema)).recordHandover t lsn) := by
  have hcovered := committedOf_covered hpositioned hq
  -- what has been committed ends at or before the position, and what has not begins after it
  have hahead : ∀ T ∈ wal.transactions, T.commitLsn ∈ committedOf lt.produced → T.endLsn ≤ lsn := by
    intro T hT hmem
    rcases hposition with hsettled | rfl
    · exact (hpositioned.settled lsn hsettled).2 T hT (hcovered ▸ hmem)
    · exact htracked.committed T hT hmem
  have hbehind := ApplyLoop.behind_of_position hpositioned htracked hhandling hposition
  unfold ApplyLoop.Behind at hbehind
  rw [List.take_length] at hbehind
  refine ⟨fun _ _ => hhandling, fun hu => ?_, fun hp => ?_, h.synced, ?_, ?_⟩
  · simp [ApplyLoop.Unhanded, hphase] at hu
  · have hp' : lt.phase = .slotted ∨ lt.phase = .copied ∨ lt.phase = .waiting := hp
    simp [hphase] at hp'
  · intro lsn' hlsn p hp
    simp only [recordHandover, Function.update_self, Option.some.injEq] at hlsn
    subst hlsn
    obtain ⟨T, hT, hof⟩ := hrecorded.of p hp
    obtain ⟨lsn', htx', hcommitted | hopen⟩ := htracked.produced p hp
    · obtain rfl := Option.some.inj (htx'.symm.trans hof.tx)
      exact ⟨T, hT, hof.tx, hahead T hT hcommitted⟩
    · cases htx.symm.trans hopen
  · intro lsn' hlsn T hT hcopy hend change hchange htouches
    simp only [recordHandover, Function.update_self, Option.some.injEq] at hlsn
    subst hlsn
    have hstart : lt.startLsn ≤ T.commitLsn :=
      (h.start (.inr (.inr (.inr ⟨hlive, hdone⟩)))).trans_le hcopy
    have hcommitted : T.commitLsn ∈ committedOf lt.produced := by
      by_contra hnot
      have hle := hbehind T hT hstart hnot
      have hlt := T.commit_lt_end
      order
    obtain ⟨i, hi, hget⟩ := List.mem_iff_getElem.1 hchange
    obtain ⟨p, hp, hptx, -, hsource⟩ := hrecorded.kept t hworker T hT hcommitted i change
      (by simp [hi, hget]) htouches
    have hdurable := mem_take_of_committed htracked hp hptx (hcovered ▸ hcommitted)
    change (T.commitLsn, change) ∈ w.synced t
    rw [h.synced hlive]
    exact List.mem_filterMap.2 ⟨p, hdurable, by simp [hptx, hsource]⟩

lemma loopStep (h : Sealed wal t lt w) (hhanding : Handing t la lt w)
    (hcoordinated : Coordinated (.tableSync t) lt w)
    (hlive : lt.live = true → lt.Positioned wal ∧ ∃ session, lt.Tracked wal session)
    (hrecorded : lt.Recorded wal) (hstep : LoopStep lt w lt' w') : Sealed wal t lt' w' := by
  have hworker := hcoordinated.workerType
  have hnot := WorkerType.ne_apply hworker
  have hlive' := hstep.live_of_live
  cases hstep with
  | receive m hl _ _ _ hundone =>
    have hdone := hundone t hworker
    have hhandover := hhanding.unhanded (.inr (.inr (.inr ⟨hl, hdone⟩)))
    exact of_unhanded hdone hhandover h.start h.fresh h.synced
  | push p x hl hsource =>
    -- a loop that has handed its table over has nothing in hand
    have hdone : lt.done = false := by
      refine Bool.eq_false_iff.2 fun hdone => ?_
      exact nomatch hsource.symm.trans (h.quiet hl hdone)
    have hhandover := hhanding.unhanded (.inr (.inr (.inr ⟨hl, hdone⟩)))
    obtain ⟨hpositioned, -⟩ := hlive hl
    refine of_unhanded hdone hhandover h.start h.fresh fun _ => ?_
    change w.synced t = changesOf ((lt.push p x).produced.take lt.covered)
    rw [ApplyLoop.take_of_append rfl (hpositioned.covered_le.trans hpositioned.dispatched_le)]
    exact h.synced hl
  | skip =>
    exact h.frame ⟨rfl, rfl, rfl⟩ hlive' rfl (fun _ => rfl) rfl rfl rfl rfl
  | resolveDurable metadata x hl =>
    obtain ⟨hpositioned, -⟩ := hlive hl
    exact h.settle hworker hl (hcoordinated.started hl) hpositioned.covered_le
  | syncDone tableId lsn schema hworker' hl hstate _ _ hhandling htx hq hposition =>
    cases hworker.symm.trans hworker'
    obtain ⟨hpositioned, session, htracked⟩ := hlive hl
    have hdone : lt.done = false := by
      refine Bool.eq_false_iff.2 fun hdone => ?_
      rcases hcoordinated.handedOver t rfl hl hdone with hs | ⟨_, _, hs⟩ <;>
        cases hstate.symm.trans hs
    exact h.syncDone hworker hl (hcoordinated.started hl) hdone hpositioned htracked hrecorded
      hhandling htx hq hposition
  | decide _ _ _ happly => exact absurd happly hnot
  | ready _ _ _ _ _ happly => exact absurd happly hnot
  | _ => exact h.frame ⟨rfl, rfl, rfl⟩ hlive' rfl id rfl rfl rfl rfl

/-! ### Steps around the table-sync loop -/

lemma of_dead (h : Sealed wal t lt w) (hsame : Same t w w') (hdead : lt'.live = false)
    (hproduced : lt'.produced = lt.produced)
    (hphase : ¬ (lt'.phase = .slotted ∨ lt'.phase = .copied ∨ lt'.phase = .waiting)) :
    Sealed wal t lt' w' := by
  refine ⟨fun hl => (nomatch hdead.symm.trans hl), fun hu => ?_, fun hp => absurd hp hphase,
    fun hl => (nomatch hdead.symm.trans hl), ?_, ?_⟩
  · refine absurd ?_ hphase
    simpa [ApplyLoop.Unhanded, hdead] using hu
  · rw [hsame.handover, hproduced]
    exact h.events
  · rw [hsame.handover, hsame.copyPoint, hsame.synced]
    exact h.complete

lemma copied (h : Sealed wal t lt w) (hhanding : Handing t la lt w) (hsame : Same t w w')
    (hdead : lt.live = false) (hdead' : lt'.live = false)
    (hphase : lt.phase = .slotted ∨ lt.phase = .copied ∨ lt.phase = .waiting)
    (hstart : lt'.startLsn = lt.startLsn) : Sealed wal t lt' w' := by
  have hunhanded : lt.Unhanded := by
    simpa [ApplyLoop.Unhanded, hdead] using hphase
  refine ⟨fun hl => (by cases hdead'.symm.trans hl), fun _ => ?_, fun _ => ?_,
    fun hl => (by cases hdead'.symm.trans hl), ?_, ?_⟩
  · rw [hstart, hsame.copyPoint]
    exact h.start hunhanded
  · rw [hsame.synced]
    exact h.fresh hphase
  · simp [hsame.handover, hhanding.unhanded hunhanded]
  · simp [hsame.handover, hhanding.unhanded hunhanded]

lemma recordCopy (hdead : lt'.live = false) (hstart : lt'.startLsn = lsn) :
    Sealed wal t lt' (w.recordCopy t lsn) where
  quiet hl := nomatch hdead.symm.trans hl
  start _ := by simp [World.recordCopy, hstart]
  fresh _ := by simp [World.recordCopy]
  synced hl := nomatch hdead.symm.trans hl
  events := by simp [World.recordCopy]
  complete := by simp [World.recordCopy]

variable {start : Option Wal}

lemma follow (h : Sealed wal t lt w) (hhanding : Handing t la lt w) (hphase : lt.phase = .waiting) {decoders : TableId → Option TableDecodingState} {target : PgLsn} :
    Sealed wal t (lt.startLoop start lt.startLsn decoders target) w := by
  have hunhanded : lt.Unhanded := .inr (.inr (.inl hphase))
  exact of_unhanded rfl (hhanding.unhanded hunhanded) (fun _ => h.start hunhanded)
    (fun _ => h.fresh (.inr (.inr hphase))) fun _ => h.fresh (.inr (.inr hphase))

lemma workerStep (h : Sealed wal t lt w) (hhanding : Handing t la lt w)
    (hcoordinated : Coordinated (.tableSync t) lt w)
    (hlive : lt.live = true → lt.Positioned wal ∧ ∃ session, lt.Tracked wal session)
    (hrecorded : lt.Recorded wal) (hstep : WorkerStep start lt w lt' w') : Sealed wal t lt' w' := by
  have hworker := hcoordinated.workerType
  have hnot := WorkerType.ne_apply hworker
  cases hstep
  case loop hstep => exact h.loopStep hhanding hcoordinated hlive hrecorded hstep
  all_goals try exact absurd ‹lt.workerType = .apply› hnot
  case leave => exact h.of_dead ⟨rfl, rfl, rfl⟩ rfl rfl (by simp)
  case retry => exact h.frame ⟨rfl, rfl, rfl⟩ id rfl id rfl rfl rfl rfl
  case countAttempts => exact h.frame_world ⟨rfl, rfl, rfl⟩
  case dropSyncSlot => exact h.frame_world ⟨rfl, rfl, rfl⟩
  case dropSyncCheckpoint => exact h.frame_world ⟨rfl, rfl, rfl⟩
  case createSyncSlot tableId point hworker' hdead _ _ =>
    cases hworker.symm.trans hworker'
    exact recordCopy hdead rfl
  case storeCopySchema tableId schema hworker' hdead hphase _ _ =>
    exact h.copied hhanding ⟨rfl, rfl, rfl⟩ hdead hdead (.inl hphase) rfl
  case finishCopy tableId hworker' hdead hphase _ =>
    exact h.copied hhanding ⟨rfl, rfl, rfl⟩ hdead hdead (.inl hphase) rfl
  case syncWait tableId hworker' hdead hphase =>
    exact h.copied hhanding ⟨rfl, rfl, rfl⟩ hdead hdead (.inr (.inl hphase)) rfl
  case follow tableId schema target hworker' hdead hphase _ _ _ => exact h.follow hhanding hphase
  all_goals exact h.of_dead ⟨rfl, rfl, rfl⟩ ‹_› rfl (by simp)

/-! ### Steps of other workers and of the surroundings -/

lemma workerStep_other (h : Sealed wal t lt w) {l' : ApplyLoop}
    (hne : l.workerType ≠ .tableSync t) (hstep : WorkerStep start l w l' w') :
    Sealed wal t lt w' := by
  refine h.frame_world ?_
  cases hstep
  case loop hstep =>
    cases hstep
    case syncDone tableId lsn schema hworker _ _ _ _ _ _ _ _ =>
      have ht : t ≠ tableId := fun ht => hne (ht ▸ hworker)
      exact ⟨by simp [recordHandover, ht, setAndStore, setPoolState], rfl, rfl⟩
    case resolveDurable =>
      refine ⟨rfl, rfl, ?_⟩
      cases hworker : l.workerType with
      | apply => rfl
      | tableSync tableId =>
        have ht : t ≠ tableId := fun ht => hne (ht ▸ hworker)
        exact Function.update_of_ne ht ..
    all_goals exact ⟨rfl, rfl, rfl⟩
  case createSyncSlot tableId point hworker _ _ _ =>
    have ht : t ≠ tableId := fun ht => hne (ht ▸ hworker)
    constructor <;> simp [World.recordCopy, World.createSlot, ht]
  all_goals exact ⟨rfl, rfl, rfl⟩

lemma environment (h : Sealed wal t lt w) {action : Action}
    (hstep : System.environment w action = some w') : Sealed wal t lt w' := by
  refine h.frame_world ?_
  cases action with
  | turn => cases hstep
  | restart => cases hstep
  | register tableId =>
    simp only [System.environment] at hstep
    split at hstep <;> cases hstep
    exact ⟨rfl, rfl, rfl⟩
  | _ => cases hstep; exact ⟨rfl, rfl, rfl⟩

lemma restart (h : Sealed wal t lt w) {worker : WorkerType} :
    Sealed wal t (.unstarted worker) w.restart where
  quiet := nofun
  start hu := by simp [ApplyLoop.Unhanded, ApplyLoop.unstarted] at hu
  fresh hp := by simp [ApplyLoop.unstarted] at hp
  synced := nofun
  events _ _ _ hp := nomatch hp
  complete := h.complete

end Sealed

lemma System.Reachable.sealed_ {config : Config} {wal : Wal} (hwal : config.wal = some wal)
    {Allowed : Memory → Memory → Prop} {s : System} (hs : s.Reachable config Allowed) (t : TableId) :
    Sealed wal t (s.memory.loops (.tableSync t)) s.world := by
  refine hs.invariant (J := fun m => Sealed wal t (m.loops (.tableSync t)) m.world) ?_ ?_
  · refine ⟨nofun, fun hu => ?_, fun _ => rfl, nofun, nofun, nofun⟩
    simp [ApplyLoop.Unhanded, Memory.initial, ApplyLoop.unstarted] at hu
  · intro s m' hs hm hmove _
    have hcoordinated := hs.proceeds.coordinated
    cases hmove with
    | worker k step =>
      by_cases hk : k = .tableSync t
      · subst hk
        simp only [Function.update_self]
        refine hm.workerStep (hs.handing t) (hcoordinated (.tableSync t)) (fun hlive => ?_)
          (hs.recorded hwal (.tableSync t)) step
        obtain ⟨session, -, htracked⟩ := hs.tracked hwal (.tableSync t) hlive
        exact ⟨hs.positioned hwal (.tableSync t) hlive, session, htracked⟩
      · simp only [Function.update_of_ne (Ne.symm hk)]
        exact hm.workerStep_other (fun h => hk ((hcoordinated k).workerType.symm.trans h)) step
    | environment action step => exact hm.environment step
    | restart => exact hm.restart
    | idle => exact hm

/-- A handover is exclusive. Every event a table-sync loop has dispatched, or has buffered and will
still dispatch, belongs to a transaction that ends at or before the handover of its table; every
transaction the apply worker accepts for the table begins at or after it; so no transaction is
written by both. -/
theorem handover_exclusive {config : Config} {wal : Wal} (hwal : config.wal = some wal) {s : System}
    (hs : s.Reachable config System.AnyStep) (t : TableId) :
    (s.memory.loops (.tableSync t)).writes.flatMap (·.1) ++
        (s.memory.loops (.tableSync t)).state.eventBatch.events =
      (s.memory.loops (.tableSync t)).produced.flatMap (·.events) ∧
    (∀ h payload, s.world.store.getTableState t = some (.syncDone h payload) ∨
      s.world.poolState t = some (.syncDone h payload) → s.world.handover t = some h ∧
        ∀ lsn, isStateReadyForChanges (.syncDone h payload) lsn = true ↔ h ≤ lsn) ∧
    (∀ h, s.world.handover t = some h → ∀ p ∈ (s.memory.loops (.tableSync t)).produced,
      ∃ T ∈ wal.transactions, p.tx = some T.commitLsn ∧ T.endLsn ≤ h) ∧
    ∀ lsn ∈ s.world.applied t, (∃ h, s.world.handover t = some h ∧ h ≤ lsn) ∧
      ∀ p ∈ (s.memory.loops (.tableSync t)).produced, p.tx ≠ some lsn := by
  have hhanding := hs.handing t
  have hsealed := hs.sealed_ hwal t
  refine ⟨(hs.batched (.tableSync t)).events, fun h payload hstate => ⟨?_, fun lsn => ?_⟩,
    hsealed.events, fun lsn hlsn => ?_⟩
  · exact hstate.elim (hhanding.store _) (hhanding.pool _)
  · exact decide_eq_true_iff
  obtain ⟨h, hhandover, hle⟩ := (hs.anchored hwal t).applied lsn hlsn
  refine ⟨⟨h, hhandover, hle⟩, fun p hp htx => ?_⟩
  obtain ⟨T, hT, hptx, hend⟩ := hsealed.events h hhandover p hp
  obtain rfl := Option.some.inj (htx.symm.trans hptx)
  have hlt := T.commit_lt_end
  order

/-- One transaction has been written by each of the workers. -/
theorem handover_exclusive_followedUp :
    System.followedUp.world.handover 1 = some 20 ∧
      (System.followedUp.memory.loops (.tableSync 1)).produced.map (·.tx) =
        [some 15, some 15, some 15] ∧
      25 ∈ System.followedUp.world.applied 1 ∧
      ∀ p ∈ (System.followedUp.memory.loops (.tableSync 1)).produced, p.tx ≠ some 25 := by
  have happlied : 25 ∈ System.followedUp.world.applied 1 := by decide +kernel
  exact ⟨by decide +kernel, by decide +kernel, happlied,
    ((handover_exclusive rfl System.reachable_followedUp 1).2.2.2 25 happlied).2⟩

end Etl
