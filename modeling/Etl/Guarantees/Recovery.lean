import Etl.Guarantees.Catchup

/-!
# What the apply worker passes over

The apply worker passes over what comes before the handover of a table. Nothing is lost by that: it
chooses the catchup target at its own position and stands still until the handover. This no longer
holds once a worker fails after the handover, because the table is then rolled back.
-/

namespace Etl

open World

variable {start : Option Wal} {w w' : World}

lemma WorkerStep.passed_eq {l l' : ApplyLoop}
    (hstep : WorkerStep start l w l' w') (hnot : l.workerType ≠ .apply) : w'.passed = w.passed := by
  cases hstep
  case loop hstep =>
    cases hstep
    case decide => exact absurd ‹l.workerType = .apply› hnot
    all_goals rfl
  case startApply => exact absurd ‹l.workerType = .apply› hnot
  all_goals rfl

lemma WorkerStep.catchup_of_catchup {t : TableId} {la lt lt' : ApplyLoop} (hstep : WorkerStep start lt w lt' w') (hhanding : Handing t la lt w)
    (hworker : lt.workerType = .tableSync t) {target : PgLsn}
    (hafter : w'.poolState t = some (.catchup target)) : w.poolState t = some (.catchup target) := by
  have hnot := WorkerType.ne_apply hworker
  -- a state the worker writes is another one
  have hwritten : ∀ {state : TableState}, (w.setPoolState t state).poolState t =
      some (.catchup target) → state = .catchup target := by
    intro state hs
    rw [poolState_setPoolState, if_pos rfl] at hs
    obtain ⟨_, -, heq⟩ := Option.map_eq_some_iff.1 hs
    exact heq
  cases hstep
  case loop hstep =>
    cases hstep
    case syncDone tableId lsn schema hworker' _ _ _ _ _ _ _ _ =>
      cases hworker.symm.trans hworker'
      exact nomatch hwritten hafter
    all_goals first
      | exact absurd ‹lt.workerType = .apply› hnot
      | exact hafter
  case beginCopy tableId hworker' _ _ =>
    cases hworker.symm.trans hworker'
    exact nomatch hwritten hafter
  case finishCopy tableId hworker' _ _ _ =>
    cases hworker.symm.trans hworker'
    exact nomatch hwritten hafter
  case syncWait tableId hworker' _ _ =>
    cases hworker.symm.trans hworker'
    exact nomatch hwritten hafter
  case storeError tableId e policy hworker' _ _ =>
    cases hworker.symm.trans hworker'
    exact nomatch hwritten hafter
  case rollback tableId previous store hworker' _ hphase hrolled =>
    cases hworker.symm.trans hworker'
    obtain ⟨rest, hhistory, -⟩ := Store.rollbackTableState_eq_ok hrolled
    obtain ⟨-, previous', rest', hhistory', -, hdurable, -⟩ := hhanding.failed hphase
    obtain ⟨rfl, -⟩ : previous' = previous ∧ rest' = rest := by
      simpa using hhistory'.symm.trans hhistory
    cases hwritten hafter
    exact nomatch hdurable
  case countAttempts => exact poolState_setRetryAttempts.symm.trans hafter
  case finish => exact sameTable_finishWorker.pool.symm.trans hafter
  all_goals exact hafter

lemma WorkerStep.active_of_active {t : TableId} {l l' : ApplyLoop}
    (hstep : WorkerStep start l w l' w') (hnot : l.workerType ≠ .apply) (h : w'.isActive t = true) :
    w.isActive t = true := by
  cases hstep
  case loop hstep =>
    cases hstep
    case syncDone => exact isActive_setAndStore.symm.trans h
    all_goals first
      | exact absurd ‹l.workerType = .apply› hnot
      | exact h
  case beginCopy => exact isActive_setAndStore.symm.trans h
  case finishCopy => exact isActive_setAndStore.symm.trans h
  case syncWait => exact isActive_setAndStore.symm.trans h
  case storeError => exact isActive_setAndStore.symm.trans h
  case rollback => exact isActive_setPoolState.symm.trans h
  case countAttempts => exact isActive_setRetryAttempts.symm.trans h
  case finish => exact sameTable_finishWorker.active h
  all_goals exact h

def Phase.isConnecting : Phase → Bool
  | .slotless | .sighted | .probed | .invalid | .cleared | .resolved => true
  | _ => false

structure Attending (t : TableId) (la : ApplyLoop) (w : World) : Prop where
  waiting : la.live = false → la.waiting = none
  going : la.live = false → la.phase.isConnecting = true → la.stopping = false
  observed : la.observed = some (t, false) → w.isActive t = false
  /-- The apply worker stands still while a table catches up. -/
  awaited : ∀ target, w.poolState t = some (.catchup target) → la.waiting = some t ∨
    la.stopping = true
  received : la.live = true → la.startLsn ≤ la.state.progress.lastReceivedLsn
  /-- What has been passed over comes before the position of the loop. -/
  placed : la.live = true → ∀ lsn ∈ w.passed t, lsn < la.startLsn ∨
    lsn ∈ committedOf la.produced ∨ la.tx = some lsn
  target : ∀ target, w.poolState t = some (.catchup target) → ∀ lsn ∈ w.passed t, lsn < target

namespace Attending

variable {wal : Wal} {session : Session} {t : TableId} {la la' lt lt' : ApplyLoop} {w w' : World}

structure Same (la la' : ApplyLoop) : Prop where
  live : la'.live = la.live
  phase : la'.phase = la.phase
  waiting : la'.waiting = la.waiting
  stopping : la'.stopping = la.stopping
  startLsn : la'.startLsn = la.startLsn
  received : la'.state.progress.lastReceivedLsn = la.state.progress.lastReceivedLsn
  produced : la'.produced = la.produced
  tx : la'.tx = la.tx

lemma frame (h : Attending t la w) (hsame : Same la la')
    (hobserved : la'.observed = some (t, false) → w'.isActive t = false)
    (hpool : ∀ target, w'.poolState t = some (.catchup target) →
      w.poolState t = some (.catchup target))
    (hpassed : w'.passed t = w.passed t) : Attending t la' w' where
  waiting hl := hsame.waiting.trans (h.waiting (hsame.live.symm.trans hl))
  going hl hp := hsame.stopping.trans (h.going (hsame.live.symm.trans hl) (hsame.phase ▸ hp))
  observed := hobserved
  awaited target hs := by
    rw [hsame.waiting, hsame.stopping]
    exact h.awaited target (hpool target hs)
  received hl := by
    rw [hsame.startLsn, hsame.received]
    exact h.received (hsame.live.symm.trans hl)
  placed hl := by
    rw [hpassed, hsame.startLsn, hsame.produced, hsame.tx]
    exact h.placed (hsame.live.symm.trans hl)
  target target hs := by
    rw [hpassed]
    exact h.target target (hpool target hs)

lemma frame_world (h : Attending t la w) (hactive : w'.isActive t = true → w.isActive t = true)
    (hpool : ∀ target, w'.poolState t = some (.catchup target) →
      w.poolState t = some (.catchup target))
    (hpassed : w'.passed t = w.passed t) : Attending t la w' := by
  refine h.frame ⟨rfl, rfl, rfl, rfl, rfl, rfl, rfl, rfl⟩ (fun ho => ?_) hpool hpassed
  exact Bool.eq_false_iff.2 fun ha => nomatch (h.observed ho).symm.trans (hactive ha)

lemma frame_loop (h : Attending t la w) (hsame : Same la la') (hobserved : la'.observed = la.observed)
    (hpool : w'.pool = w.pool) (hpassed : w'.passed = w.passed) : Attending t la' w' := by
  refine h.frame hsame ?_ ?_ (by rw [hpassed])
  · rw [hobserved, show w'.isActive t = w.isActive t by simp [isActive, hpool]]
    exact h.observed
  · simp [poolState, hpool]

/-! ### Steps of the apply loop -/

lemma not_catchup (h : Attending t la w) (hgoing : la.stopping = false) (hwaiting : la.waiting = none)
    {target : PgLsn} : w.poolState t ≠ some (.catchup target) := by
  intro hs
  rcases h.awaited target hs with hw | hstop
  · exact nomatch hwaiting.symm.trans hw
  · exact nomatch hgoing.symm.trans hstop

lemma receive (h : Attending t la w) (htracked : la.Tracked wal session)
    (hsession : la.session = some session) (hhandling : la.handling = none)
    {m : ReplicationMessage} (haccepted : la.accepts m = true) : Attending t (la.receive m) w := by
  refine ⟨h.waiting, h.going, h.observed, h.awaited, fun hl => (h.received hl).trans ?_,
    fun hl lsn hlsn => ?_, h.target⟩
  · cases m with
    | primaryKeepAlive => exact le_max_left _ _
    | xLogData => exact (le_max_left _ _).trans (le_max_left _ _)
  · exact (h.placed hl lsn hlsn).imp_right
      (Or.imp_right (htracked.tx_receive hsession hhandling haccepted))

lemma push (h : Attending t la w) {p : Produced} {x : Inert} {begun : Option PgLsn}
    (hcommitted : ∀ lsn, p.event.committed? = some lsn → la.tx = some lsn) :
    Attending t (la.push p x) (w.owe la.workerType begun) := by
  refine ⟨h.waiting, h.going, h.observed, h.awaited, h.received, fun hl lsn hlsn => ?_, h.target⟩
  have hmem : ∀ lsn, lsn ∈ committedOf (la.push p x).produced ↔
      lsn ∈ committedOf la.produced ∨ p.event.committed? = some lsn := by
    intro lsn
    simp [ApplyLoop.push, committedOf, List.filterMap_append, List.filterMap_cons]
    cases p.event.committed? <;> simp [eq_comm]
  rcases h.placed hl lsn hlsn with hlt | hdone | htx
  · exact .inl hlt
  · exact .inr (.inl ((hmem lsn).2 (.inl hdone)))
  · cases hc : p.event.committed? with
    | none => exact .inr (.inr (by simpa [ApplyLoop.push, hc] using htx))
    | some lsn' =>
      obtain rfl := Option.some.inj (htx.symm.trans (hcommitted lsn' hc))
      exact .inr (.inl ((hmem lsn).2 (.inr hc)))

variable {lsn : PgLsn}

lemma decide (h : Attending t la w) (hgoing : la.stopping = false) (hwaiting : la.waiting = none)
    {tableId : TableId} (htx : la.tx = some lsn) {ready : Bool} {owned : Option (TableId × PgLsn)} :
    Attending t { la with owned := owned, observed := none } (w.recordDecision tableId lsn ready) := by
  have hnot : ∀ target, w.poolState t ≠ some (.catchup target) :=
    fun _ => h.not_catchup hgoing hwaiting
  refine ⟨h.waiting, h.going, nofun, fun target hs => absurd hs (hnot target), h.received,
    fun hl lsn' hlsn => ?_, fun target hs => absurd hs (hnot target)⟩
  by_cases hold : lsn' ∈ w.passed t
  · exact h.placed hl lsn' hold
  · simp only [recordDecision] at hlsn
    split_ifs at hlsn with hready
    · exact absurd hlsn hold
    · by_cases ht : t = tableId
      · subst ht
        simp only [Function.update_self, List.mem_cons, hold, or_false] at hlsn
        exact .inr (.inr (hlsn ▸ htx))
      · rw [Function.update_of_ne ht] at hlsn
        exact absurd hlsn hold

lemma lt_of_standsAt (h : Attending t la w) (hlive : la.live = true)
    (htracked : la.Tracked wal session) {position : PgLsn} (hposition : la.StandsAt position)
    (hlsn : lsn ∈ w.passed t) : lsn < position := by
  have hcommitted : ∀ lsn, lsn ∈ committedOf la.produced →
      ∃ T ∈ wal.transactions, T.commitLsn = lsn ∧ T.endLsn ≤ la.state.progress.lastReceivedLsn := by
    intro lsn hmem
    obtain ⟨sent, hstream, hsent⟩ := htracked.stream
    obtain ⟨T, hT, rfl⟩ := List.mem_map.1 (hsent ▸ List.mem_append_left la.committing hmem)
    have hmemT := (Wal.mem_from_.1 (hstream ▸ List.mem_append_left session.pending hT)).1
    exact ⟨T, hmemT, rfl, htracked.committed T hmemT hmem⟩
  rcases hposition with ⟨flags, commitLsn, timestamp, hhandling, htx, -⟩ | ⟨hhandling, htx, -, rfl⟩
  · -- the transaction being committed ends at the position
    obtain ⟨-, T, hT, rfl, rfl⟩ := htracked.commit _ _ _ _ hhandling
    have hlt := T.commit_lt_end
    rcases h.placed hlive lsn hlsn with hstart | hdone | hopen
    · exact hstart.trans ((htracked.startLsn_le_of_open htx).trans_lt hlt)
    · exact (htracked.lt_of_open hdone htx).trans hlt
    · obtain rfl := Option.some.inj (htx.symm.trans hopen)
      exact hlt
  · rcases h.placed hlive lsn hlsn with hstart | hdone | hopen
    · exact hstart.trans_le (h.received hlive)
    · obtain ⟨T, -, rfl, hend⟩ := hcommitted lsn hdone
      exact T.commit_lt_end.trans_le hend
    · exact nomatch htx.symm.trans hopen

lemma setCatchup (h : Attending t la w) (hlive : la.live = true) (htracked : la.Tracked wal session)
    (hgoing : la.stopping = false) (hwaiting : la.waiting = none) {tableId : TableId}
    {snapshotLsn position : PgLsn} (hposition : la.StandsAt position) :
    Attending t { la with waiting := some tableId }
      (w.setPoolState tableId (.catchup (max snapshotLsn position))) := by
  have hdead : ¬ la.live = false := by simp [hlive]
  refine ⟨fun hl => absurd hl hdead, h.going, ?_, fun target hs => ?_, h.received, h.placed,
    fun target hs lsn hlsn => ?_⟩
  · rw [isActive_setPoolState]
    exact h.observed
  · by_cases ht : t = tableId
    · exact .inl (by rw [ht])
    · rw [poolState_setPoolState, if_neg ht] at hs
      exact absurd hs (h.not_catchup hgoing hwaiting)
  · by_cases ht : t = tableId
    · subst ht
      rw [poolState_setPoolState, if_pos rfl] at hs
      obtain ⟨_, -, heq⟩ := Option.map_eq_some_iff.1 hs
      cases heq
      exact (h.lt_of_standsAt hlive htracked hposition hlsn).trans_le (le_max_right _ _)
    · rw [poolState_setPoolState, if_neg ht] at hs
      exact absurd hs (h.not_catchup hgoing hwaiting)

lemma not_failed (h : Attending t la w) (hcoordinated : Coordinated (.tableSync t) lt w) {payload : Option StoredTableDecodingState} {active : Bool}
    (hobserved : la.observed = some (t, active))
    (hstate : if active then w.poolState t = some (.syncDone lsn payload)
      else (t, .syncDone lsn payload) ∈ la.listed) : lt.phase ≠ .failed := by
  intro hf
  cases active with
  | true =>
    obtain ⟨e, policy, herrored⟩ := hcoordinated.failed t rfl hf
    cases herrored.symm.trans hstate
  | false =>
    have hactive := hcoordinated.active t rfl (by simp [hf])
    cases hactive.symm.trans (h.observed hobserved)

lemma loopStep_apply (h : Attending t la w) (hhanding : Handing t la lt w)
    (hcoordinated : Coordinated .apply la w)
    (htracked : la.live = true → ∃ session, la.session = some session ∧ la.Tracked wal session)
    (hstep : LoopStep la w la' w') : Attending t la' w' := by
  have hworker := hcoordinated.workerType
  cases hstep with
  | receive m hlive _ hrest haccepted =>
    obtain ⟨session, hsession, htracked⟩ := htracked hlive
    exact h.receive htracked hsession hrest.handling haccepted
  | push p x _ _ _ _ _ _ _ _ _ _ hcommitted =>
    exact h.push fun lsn hlsn => (hcommitted lsn hlsn).1
  | resolveError metadata x _ hwaiting =>
    refine ⟨fun _ => hwaiting, fun _ hp => ?_, h.observed, h.awaited, by simp, by simp, h.target⟩
    cases hlive : la.live with
    | true =>
      have hp' : la.phase.isConnecting = true := hp
      simp [hcoordinated.started hlive, Phase.isConnecting] at hp'
    | false => exact h.going hlive hp
  | observe observed hfound =>
    refine h.frame ⟨rfl, rfl, rfl, rfl, rfl, rfl, rfl, rfl⟩ (fun ho => ?_) (fun _ hs => hs) rfl
    exact (hfound _ ho).symm
  | decide tableId lsn state _ _ htx _ _ hgoing hwaiting _ => exact h.decide hgoing hwaiting htx
  | setCatchup tableId snapshotLsn position _ hlive hposition hgoing hwaiting _ =>
    obtain ⟨session, -, htracked⟩ := htracked hlive
    exact h.setCatchup hlive htracked hgoing hwaiting hposition
  | awaitCatchup tableId hlive hwaiting =>
    refine ⟨fun hl => (by cases hlive.symm.trans hl), h.going, h.observed, fun target hs => ?_,
      h.received, h.placed, h.target⟩
    rcases h.awaited target hs with hw | hstop
    · cases hwaiting.symm.trans hw
    · exact .inr hstop
  | caughtUp tableId hwaiting hstate =>
    refine ⟨fun _ => rfl, h.going, h.observed, fun target hs => ?_, h.received, h.placed, h.target⟩
    rcases h.awaited target hs with hw | hstop
    · cases hwaiting.symm.trans hw
      exact absurd hs (hstate target)
    · exact .inr hstop
  | giveUp tableId hwaiting =>
    refine ⟨fun _ => rfl, fun hl _ => ?_, h.observed, fun _ _ => .inr rfl, h.received, h.placed,
      h.target⟩
    cases hwaiting.symm.trans (h.waiting hl)
  | ready tableId syncDoneLsn position payload active =>
    refine h.frame_world ?_ (fun target hs => ?_) rfl
    · cases active with
      | false => exact id
      | true =>
        intro ha
        rwa [show (w.promote tableId true).isActive t = w.isActive t from isActive_setPoolState] at ha
    · cases active with
      | false => exact hs
      | true =>
        have hs' : (w.setPoolState tableId .ready).poolState t = some (.catchup target) := hs
        rw [poolState_setPoolState] at hs'
        split at hs'
        · obtain ⟨_, -, heq⟩ := Option.map_eq_some_iff.1 hs'
          cases heq
        · exact hs'
  | spawn tableId state _ _ _ hstored =>
    refine h.frame ⟨rfl, rfl, rfl, rfl, rfl, rfl, rfl, rfl⟩ (by simp)
      (fun target hs => ?_) rfl
    by_cases ht : t = tableId
    · subst ht
      have hs' : some state = some (.catchup target) := by simpa [poolState] using hs
      cases hs'
      cases hhanding.durable _ hstored
    · simpa [poolState, ht] using hs
  | syncDone tableId lsn schema hsync => cases hworker.symm.trans hsync
  | _ => exact h.frame_loop ⟨rfl, rfl, rfl, rfl, rfl, rfl, rfl, rfl⟩ rfl rfl rfl

/-! ### Steps around the apply loop -/

lemma of_dead (h : Attending t la w) (hlive : la.live = false) (hlive' : la'.live = false)
    (hwaiting : la'.waiting = la.waiting) (hobserved : la'.observed = la.observed)
    (hstopping : la'.stopping = la.stopping)
    (hgoing : la'.phase.isConnecting = true → la.stopping = false) (hpool : w'.pool = w.pool)
    (hpassed : w'.passed = w.passed) : Attending t la' w' where
  waiting _ := hwaiting.trans (h.waiting hlive)
  going _ hp := hstopping.trans (hgoing hp)
  observed := by
    rw [hobserved, show w'.isActive t = w.isActive t by simp [isActive, hpool]]
    exact h.observed
  awaited := by
    rw [hwaiting, hstopping, show w'.poolState t = w.poolState t by simp [poolState, hpool]]
    exact h.awaited
  received hl := nomatch hlive'.symm.trans hl
  placed hl := nomatch hlive'.symm.trans hl
  target := by
    rw [hpassed, show w'.poolState t = w.poolState t by simp [poolState, hpool]]
    exact h.target

variable {start : Option Wal}

lemma startApply (h : Attending t la w) (hlive : la.live = false) (hphase : la.phase = .resolved) :
    Attending t (la.startLoop start la.startLsn (fun _ => none) 0) (w.reconnect la.startLsn) := by
  have hgoing := h.going hlive (by rw [hphase]; rfl)
  have hnot : ∀ target, w.poolState t ≠ some (.catchup target) :=
    fun _ => h.not_catchup hgoing (h.waiting hlive)
  refine ⟨fun _ => rfl, fun _ _ => rfl, nofun, fun target hs => absurd hs (hnot target),
    fun _ => le_rfl, fun _ lsn hlsn => ?_, fun target hs => absurd hs (hnot target)⟩
  exact .inl (of_decide_eq_true (List.mem_filter.1 hlsn).2)

lemma workerStep_apply (h : Attending t la w) (hhanding : Handing t la lt w)
    (hcoordinated : Coordinated .apply la w)
    (htracked : la.live = true → ∃ session, la.session = some session ∧ la.Tracked wal session) (hstep : WorkerStep start la w la' w') : Attending t la' w' := by
  have hnot := WorkerType.ne_tableSync hcoordinated.workerType
  -- the worker goes on to connect
  have hnext : ∀ {phase : Phase}, la.live = false → la.phase = phase → phase.isConnecting = true →
      la.stopping = false := fun hl hp hc => h.going hl (hp ▸ hc)
  cases hstep
  case loop hstep => exact h.loopStep_apply hhanding hcoordinated htracked hstep
  all_goals try exact absurd ‹la.workerType = .tableSync _› (hnot _)
  case leave hrunning _ =>
    have hwaiting : la.waiting = none := by
      cases hlive : la.live with
      | true => exact hrunning.waiting hlive
      | false => exact h.waiting hlive
    exact ⟨fun _ => hwaiting, nofun, h.observed, h.awaited, by simp, by simp, h.target⟩
  case retry => exact h.frame_loop ⟨rfl, rfl, rfl, rfl, rfl, rfl, rfl, rfl⟩ rfl rfl rfl
  case startApply _ hlive hphase => exact h.startApply hlive hphase
  case launch _ hlive => exact h.of_dead hlive hlive rfl rfl rfl nofun rfl rfl
  case slotMissing _ hlive hgoing _ => exact h.of_dead hlive hlive rfl rfl rfl (fun _ => hgoing) rfl rfl
  case slotFound _ _ hlive hgoing _ => exact h.of_dead hlive hlive rfl rfl rfl (fun _ => hgoing) rfl rfl
  case slotValid _ _ hlive hphase _ _ =>
    exact h.of_dead hlive hlive rfl rfl rfl (fun _ => hnext hlive hphase rfl) rfl rfl
  case slotInvalid _ _ hlive hphase _ _ =>
    exact h.of_dead hlive hlive rfl rfl rfl (fun _ => hnext hlive hphase rfl) rfl rfl
  case dropCheckpoint _ hlive hphase =>
    exact h.of_dead hlive hlive rfl rfl rfl (fun _ => hnext hlive hphase rfl) rfl rfl
  case resetForResync _ hlive hphase =>
    exact h.of_dead hlive hlive rfl rfl rfl (fun _ => hnext hlive hphase rfl) rfl rfl
  case dropInvalidSlot _ hlive hphase =>
    exact h.of_dead hlive hlive rfl rfl rfl (fun _ => hnext hlive hphase rfl) rfl rfl
  case createSlot _ _ hlive hphase _ _ =>
    exact h.of_dead hlive hlive rfl rfl rfl (fun _ => hnext hlive hphase rfl) rfl rfl
  case resolve _ hlive hphase =>
    exact h.of_dead hlive hlive rfl rfl rfl (fun _ => hnext hlive hphase rfl) rfl rfl

/-! ### Steps of the table-sync workers and of the surroundings -/

lemma workerStep_sync (h : Attending t la w) {k : TableId} {l l' : ApplyLoop}
    (hworker : l.workerType = .tableSync k) (hhanding : t = k → Handing t la l w) (hstep : WorkerStep start l w l' w') : Attending t la w' := by
  have hnot := WorkerType.ne_apply hworker
  refine h.frame_world (hstep.active_of_active hnot) (fun target hs => ?_)
    (congrFun (hstep.passed_eq hnot) t)
  by_cases ht : t = k
  · subst ht
    exact hstep.catchup_of_catchup (hhanding rfl) hworker hs
  · exact (hstep.sameTable ht hworker).pool.symm.trans hs

lemma environment (h : Attending t la w) {action : Action}
    (hstep : System.environment w action = some w') : Attending t la w' := by
  cases action with
  | turn => cases hstep
  | restart => cases hstep
  | register tableId =>
    simp only [System.environment] at hstep
    split at hstep <;> cases hstep
    exact h.frame_world id (fun _ => id) rfl
  | _ => cases hstep; exact h.frame_world id (fun _ => id) rfl

lemma restart : Attending t (.unstarted .apply) w.restart :=
  ⟨fun _ => rfl, fun _ _ => rfl, nofun, nofun, nofun, nofun, nofun⟩

end Attending

variable {config : Config} {s : System}

/-- While a table catches up the apply worker stands still, and the target comes after all it has
passed over. -/
lemma System.Reachable.attending {wal : Wal} (hwal : config.wal = some wal)
    {Allowed : Memory → Memory → Prop} (hs : s.Reachable config Allowed) (t : TableId) :
    Attending t (s.memory.loops .apply) s.world := by
  refine hs.invariant (J := fun m => Attending t (m.loops .apply) m.world) ?_ ?_
  · exact ⟨fun _ => rfl, fun _ _ => rfl, nofun, nofun, nofun, nofun, nofun⟩
  · intro s m' hs hm hmove _
    have hcoordinated := hs.proceeds.coordinated
    have hhanding := hs.handing t
    cases hmove with
    | worker k step =>
      cases k with
      | apply =>
        simp only [Function.update_self]
        exact hm.workerStep_apply hhanding (hcoordinated .apply)
          (fun hlive => hs.tracked hwal .apply hlive) step
      | tableSync k =>
        refine hm.workerStep_sync (hcoordinated (.tableSync k)).workerType ?_ step
        rintro rfl
        exact hhanding
    | environment action step => exact hm.environment step
    | restart => exact .restart
    | idle => exact hm

/-! ## Handovers that hold -/

/-- The apply worker owns the changes after the handover. -/
def TableState.isReleased : TableState → Bool
  | .syncDone _ _ | .ready => true
  | _ => false

def World.Releases (w : World) (t : TableId) (la : ApplyLoop) : Prop :=
  (∃ stored, w.store.getTableState t = some stored ∧ stored.isReleased = true) ∨
    (w.isActive t = true ∨ la.observed = some (t, true)) ∧
      ∃ state, w.poolState t = some state ∧ state.isReleased = true

structure Held (t : TableId) (la lt : ApplyLoop) (w : World) : Prop where
  agree : ∀ stored, w.store.getTableState t = some stored → stored.isReleased = true →
    ∀ state, w.poolState t = some state → state.isReleased = true
  listed : la.live = true → ∀ lsn payload, (t, .syncDone lsn payload) ∈ la.listed →
    ∃ stored, w.store.getTableState t = some stored ∧ stored.isReleased = true
  failed : lt.phase = .failed →
    (∀ stored, w.store.getTableState t = some stored → stored.isReleased = false) ∧
    ∀ previous rest, w.store.tableStateHistory t = previous :: rest → previous.isReleased = false
  /-- What has been passed over comes before the handover. -/
  passed : w.Releases t la → ∀ h, w.handover t = some h → ∀ lsn ∈ w.passed t, lsn < h

def System.FailsBeforeHandover (m m' : Memory) : Prop :=
  ∀ t, (m'.loops (.tableSync t)).phase = .failed → (m.loops (.tableSync t)).phase = .failed ∨
    ∀ stored, m.world.store.getTableState t = some stored → stored.isReleased = false

namespace Held

variable {wal : Wal} {t : TableId} {la la' lt lt' : ApplyLoop} {w w' : World}

lemma frame (h : Held t la lt w) (hsame : SameTable t w w')
    (hlive : la'.live = true → la.live = true) (hlisted : la'.listed = la.listed)
    (hobserved : la'.observed = la.observed) (hfailed : lt'.phase = .failed → lt.phase = .failed)
    (hpassed : ∀ lsn ∈ w'.passed t, lsn ∈ w.passed t) : Held t la' lt' w' where
  agree := by
    rw [hsame.stored, hsame.pool]
    exact h.agree
  listed hl := by
    rw [hlisted, hsame.stored]
    exact h.listed (hlive hl)
  failed hf := by
    rw [hsame.stored, hsame.history]
    exact h.failed (hfailed hf)
  passed hreleases := by
    unfold Releases at hreleases
    rw [hsame.stored, hsame.pool, hobserved] at hreleases
    rw [hsame.handover]
    exact fun handover hhandover lsn hlsn =>
      h.passed (hreleases.imp_right (And.imp_left (Or.imp_left hsame.active))) handover hhandover lsn
        (hpassed lsn hlsn)

lemma frame_world (h : Held t la lt w) (hsame : SameTable t w w')
    (hpassed : w'.passed t = w.passed t) : Held t la lt w' :=
  h.frame hsame id rfl rfl id (by rw [hpassed]; exact fun _ => id)

lemma of_not_released (hstored : ∀ stored, w'.store.getTableState t = some stored →
      stored.isReleased = false)
    (hpool : ∀ state, w'.poolState t = some state → state.isReleased = false)
    (hlisted : la'.live = true → ∀ lsn payload, (t, .syncDone lsn payload) ∉ la'.listed)
    (hfailed : lt'.phase = .failed → ∀ previous rest, w'.store.tableStateHistory t =
      previous :: rest → previous.isReleased = false) : Held t la' lt' w' where
  agree stored hs hreleased := nomatch (hstored stored hs).symm.trans hreleased
  listed hl lsn payload hmem := absurd hmem (hlisted hl lsn payload)
  failed hf := ⟨hstored, hfailed hf⟩
  passed hreleases := by
    rcases hreleases with ⟨stored, hs, hreleased⟩ | ⟨-, state, hs, hreleased⟩
    · exact nomatch (hstored stored hs).symm.trans hreleased
    · exact nomatch (hpool state hs).symm.trans hreleased

/-! ### Steps of the apply loop -/

variable {tableId : TableId} {lsn : PgLsn}

lemma decide (h : Held t la lt w) (hhanding : Handing t la lt w) (hattending : Attending t la w) {state : Option TableState}
    (hread : w.poolState tableId = state ∧ state.isSome ∧ la.observed = some (tableId, true) ∨
      w.store.getTableState tableId = state ∧ la.observed = some (tableId, false))
    {owned : Option (TableId × PgLsn)} : Held t { la with owned := owned, observed := none } lt
      (w.recordDecision tableId lsn (state.any fun s => isStateReadyForChanges s lsn)) := by
  refine ⟨h.agree, h.listed, h.failed, fun hreleases handover hhandover lsn' hlsn => ?_⟩
  have hbefore : w.Releases t la :=
    hreleases.imp_right (And.imp_left fun ha => .inl (ha.resolve_right (by simp)))
  clear hreleases
  have hold : lsn' ∈ w.passed t → lsn' < handover := h.passed hbefore handover hhandover lsn'
  simp only [recordDecision] at hlsn
  split_ifs at hlsn with hready
  · exact hold hlsn
  by_cases ht : t = tableId
  · subst ht
    simp only [Function.update_self, List.mem_cons] at hlsn
    refine hlsn.elim (fun heq => ?_) hold
    subst heq
    -- the state that was read is one of a table that has been handed over
    obtain ⟨found, rfl, hreleased, hvouches⟩ :
        ∃ found, state = some found ∧ found.isReleased = true ∧ w.Vouches t found := by
      rcases hread with ⟨hpool, hsome, -⟩ | ⟨hstored, hobserved⟩
      · obtain ⟨found, rfl⟩ := Option.isSome_iff_exists.1 hsome
        refine ⟨found, rfl, ?_, hhanding.pool found hpool⟩
        rcases hbefore with ⟨stored, hs, hreleased⟩ | ⟨-, found', hs, hreleased⟩
        · exact h.agree stored hs hreleased found hpool
        · exact Option.some.inj (hpool.symm.trans hs) ▸ hreleased
      · rcases hbefore with ⟨stored, hs, hreleased⟩ | ⟨hactive | hobserved', -⟩
        · exact ⟨stored, hstored.symm.trans hs, hreleased, hhanding.store stored hs⟩
        · cases (hattending.observed hobserved).symm.trans hactive
        · cases hobserved.symm.trans hobserved'
    cases found with
    | syncDone handover' payload =>
      obtain rfl : handover' = handover := Option.some.inj (Eq.trans (Eq.symm hvouches) hhandover)
      exact not_le.1 fun hle => hready (decide_eq_true hle)
    | ready => exact absurd rfl hready
    | _ => cases hreleased
  · rw [Function.update_of_ne ht] at hlsn
    exact hold hlsn

lemma setCatchup (h : Held t la lt w) {snapshotLsn target : PgLsn}
    (hstate : w.poolState tableId = some (.syncWait snapshotLsn)) :
    Held t la lt (w.setPoolState tableId (.catchup target)) := by
  by_cases ht : t = tableId
  · subst ht
    have hstored : ∀ stored, w.store.getTableState t = some stored → stored.isReleased = false :=
      fun stored hs => Bool.eq_false_iff.2 fun hr => nomatch h.agree stored hs hr _ hstate
    refine of_not_released hstored (fun state hs => ?_) (fun hl lsn payload hmem => ?_)
      fun hf => (h.failed hf).2
    · rw [poolState_setPoolState, if_pos rfl, hstate] at hs
      cases hs
      rfl
    · obtain ⟨stored, hs, hr⟩ := h.listed hl lsn payload hmem
      exact nomatch (hstored stored hs).symm.trans hr
  · exact h.frame_world (.of_pool (by simp [setPoolState, ht]) rfl rfl rfl rfl) rfl

lemma promote (h : Held t la lt w) (hattending : Attending t la w)
    (hcoordinated : Coordinated (.tableSync t) lt w)
    {payload : Option StoredTableDecodingState} {active : Bool} (hlive : la.live = true)
    (hobserved : la.observed = some (tableId, active))
    (hstate : if active then w.poolState tableId = some (.syncDone lsn payload)
      else (tableId, .syncDone lsn payload) ∈ la.listed) :
    Held t la lt (w.promote tableId active) := by
  by_cases ht : t = tableId
  · subst ht
    have hstored : (w.promote t active).store.getTableState t = some .ready := by
      simp [World.promote]
    have hreleases : w.Releases t la := by
      cases active with
      | true => exact .inr ⟨.inr hobserved, _, hstate, rfl⟩
      | false => exact .inl (h.listed hlive lsn payload hstate)
    have hfailed := hattending.not_failed hcoordinated hobserved hstate
    refine ⟨fun _ _ _ state hs => ?_, fun _ _ _ _ => ⟨.ready, hstored, rfl⟩,
      fun hf => absurd hf hfailed, fun _ => h.passed hreleases⟩
    cases active with
    | true =>
      have hs' : (w.setPoolState t .ready).poolState t = some state := hs
      rw [poolState_setPoolState, if_pos rfl, show w.poolState t = _ from hstate] at hs'
      cases hs'
      rfl
    | false =>
      obtain ⟨stored, hs', hreleased⟩ := h.listed hlive lsn payload hstate
      exact h.agree stored hs' hreleased state hs
  · refine h.frame_world (.of_pool ?_ ?_ ?_ rfl ?_) rfl
    · cases active <;> simp [World.promote, setPoolState, ht]
    · simp [World.promote, ht]
    · simp [World.promote, Store.tableStateHistory_updateTableState, ht]
    · simp [World.promote, ht]

lemma spawn (h : Held t la lt w) {state : TableState}
    (hstored : w.store.getTableState tableId = some state) : Held t { la with observed := none } lt
      { w with pool := Function.update w.pool tableId (some ⟨state, true, 0⟩) } := by
  by_cases ht : t = tableId
  · subst ht
    have hpool : ({ w with pool := Function.update w.pool t (some ⟨state, true, 0⟩) } :
        World).poolState t = some state := by simp [poolState]
    refine ⟨fun stored hs hreleased state' hs' => ?_, h.listed, h.failed, fun hreleases =>
      h.passed (.inl ?_)⟩
    · cases hstored.symm.trans hs
      cases hpool.symm.trans hs'
      exact hreleased
    · rcases hreleases with hstore | ⟨-, state', hs', hreleased⟩
      · exact hstore
      · cases hpool.symm.trans hs'
        exact ⟨state, hstored, hreleased⟩
  · have hsame : SameTable t w
        { w with pool := Function.update w.pool tableId (some ⟨state, true, 0⟩) } :=
      .of_pool (by simp [ht]) rfl rfl rfl rfl
    obtain ⟨hagree, hlisted, hfailed, hpassed⟩ := h.frame_world hsame rfl
    refine ⟨hagree, hlisted, hfailed, fun hreleases => hpassed ?_⟩
    exact hreleases.imp_right (And.imp_left fun ha => .inl (ha.resolve_right (by simp)))

lemma loopStep_apply (h : Held t la lt w) (hhanding : Handing t la lt w)
    (hattending : Attending t la w) (hcoordinated : Coordinated (.tableSync t) lt w)
    (hworker : la.workerType = .apply) (hstep : LoopStep la w la' w') : Held t la' lt w' := by
  have hlive := hstep.live_of_live
  cases hstep with
  | list =>
    refine ⟨h.agree, fun _ lsn payload hmem => ?_, h.failed, h.passed⟩
    exact ⟨_, (Store.getTableState_of_mem_getSyncingTables hmem).1, rfl⟩
  | observe observed hfound =>
    refine ⟨h.agree, h.listed, h.failed, fun hreleases => h.passed ?_⟩
    exact hreleases.imp_right (And.imp_left fun ha => .inl (ha.elim id fun ho => (hfound _ ho).symm))
  | decide tableId lsn state _ _ _ _ _ _ _ hread => exact h.decide hhanding hattending hread
  | setCatchup tableId snapshotLsn currentLsn _ _ _ _ _ hstate =>
    exact (h.setCatchup hstate).frame (.of_pool rfl rfl rfl rfl rfl) id rfl rfl id fun _ => id
  | ready tableId lsn currentLsn payload active _ hlive' _ _ _ hobserved hstate =>
    exact h.promote hattending hcoordinated hlive' hobserved hstate
  | spawn tableId state _ _ _ hstored => exact h.spawn hstored
  | syncDone tableId lsn schema hsync => exact nomatch hworker.symm.trans hsync
  | _ => exact h.frame (.of_pool rfl rfl rfl rfl rfl) hlive rfl rfl id fun _ => id

/-! ### Steps around the apply loop -/

lemma resetForResync (h : Held t la lt w) (hdead : la'.live = false)
    (hobserved : la'.observed = la.observed) :
    Held t la' lt { w with store := w.store.resetForResync } := by
  have hinit : ∀ stored, w.store.resetForResync.getTableState t = some stored →
      stored.isReleased = false := by
    intro stored hs
    simp only [Store.getTableState_resetForResync, Option.map_eq_some_iff] at hs
    obtain ⟨_, -, rfl⟩ := hs
    rfl
  refine ⟨fun stored hs hr => (nomatch (hinit stored hs).symm.trans hr),
    fun hl => (nomatch hdead.symm.trans hl), fun hf => ⟨hinit, fun previous rest hhistory => ?_⟩,
    fun hreleases => h.passed (.inr ?_)⟩
  · change w.store.resetForResync.tableStateHistory t = _ at hhistory
    rw [Store.tableStateHistory_resetForResync] at hhistory
    cases hstored : w.store.getTableState t with
    | none =>
      rw [hstored] at hhistory
      exact (h.failed hf).2 previous rest hhistory
    | some stored =>
      rw [hstored] at hhistory
      obtain ⟨rfl, -⟩ : stored = previous ∧ w.store.tableStateHistory t = rest := by
        simpa using hhistory
      exact (h.failed hf).1 stored hstored
  · rcases hreleases with ⟨stored, hs, hr⟩ | hpool
    · exact nomatch (hinit stored hs).symm.trans hr
    · rw [hobserved] at hpool
      exact hpool

variable {start : Option Wal}

lemma startApply (h : Held t la lt w) :
    Held t (la.startLoop start la.startLsn (fun _ => none) 0) lt (w.reconnect la.startLsn) := by
  refine ⟨h.agree, nofun, h.failed, fun hreleases handover hhandover lsn hlsn => ?_⟩
  have hreleases : w.Releases t la :=
    hreleases.imp_right (And.imp_left fun ha => .inl (ha.resolve_right nofun))
  exact h.passed hreleases handover hhandover lsn (List.mem_of_mem_filter hlsn)

lemma workerStep_apply (h : Held t la lt w) (hhanding : Handing t la lt w)
    (hattending : Attending t la w) (hcoordinated : Coordinated (.tableSync t) lt w)
    (hworker : la.workerType = .apply)
    (hstep : WorkerStep start la w la' w') : Held t la' lt w' := by
  have hnot := WorkerType.ne_tableSync hworker
  cases hstep
  case loop hstep => exact h.loopStep_apply hhanding hattending hcoordinated hworker hstep
  case resetForResync hlive hphase => exact h.resetForResync hlive rfl
  case startApply => exact h.startApply
  case leave => exact h.frame (.of_pool rfl rfl rfl rfl rfl) nofun rfl rfl id fun _ => id
  all_goals first
    | exact absurd ‹la.workerType = _› (hnot _)
    | exact h.frame (.of_pool rfl rfl rfl rfl rfl) id rfl rfl id fun _ => id

/-! ### Steps of the table's worker -/

lemma syncDone (hattending : Attending t la w) (hactive : w.isActive t = true)
    {target : PgLsn} (hstate : w.poolState t = some (.catchup target)) (hreached : target ≤ lsn)
    {schema : ReplicatedTableSchema} (hphase : lt.phase = .engaged) :
    Held t la { lt with done := true }
      ((w.setAndStore t (.ofSyncDone lsn schema)).recordHandover t lsn) := by
  refine ⟨fun _ _ _ state hs => ?_, fun _ _ _ _ => ⟨.ofSyncDone lsn schema, ?_, rfl⟩,
    fun hf => (nomatch hphase.symm.trans hf), fun _ handover hhandover lsn' hlsn => ?_⟩
  · cases (WorkerStep.poolState_written hactive).symm.trans hs
    rfl
  · exact Handing.getTableState_setAndStore rfl
  · obtain rfl : lsn = handover := by simpa [recordHandover] using hhandover
    exact (hattending.target target hstate lsn' hlsn).trans_le hreached

lemma copied (hhanding : Handing t la lt w) (hactive : w.isActive t = true)
    {before after : TableState} (hbefore : w.poolState t = some before)
    (hpending : before.isPending = true) (hafter : after.isCopyable = true)
    (hfailed : lt'.phase ≠ .failed) : Held t la lt' (w.setAndStore t after) := by
  have hdurable : after.asType.shouldStore = true := by
    cases after <;> first | rfl | cases hafter
  have hreleased : after.isReleased = false := by
    cases after <;> first | rfl | cases hafter
  refine of_not_released (fun stored hs => ?_) (fun state hs => ?_) (fun hl lsn payload => ?_)
    fun hf => absurd hf hfailed
  · cases (Handing.getTableState_setAndStore hdurable).symm.trans hs
    exact hreleased
  · cases (WorkerStep.poolState_written hactive).symm.trans hs
    exact hreleased
  · exact hhanding.not_listed hactive hbefore hpending hl

lemma not_released_of_pending (hhanding : Handing t la lt w) (hactive : w.isActive t = true)
    {state : TableState} (hpool : w.poolState t = some state) (hpending : state.isPending = true)
    {stored : TableState} (hstored : w.store.getTableState t = some stored) :
    stored.isReleased = false := by
  have hcopyable := hhanding.copyable hactive state hpool hpending stored hstored
  cases stored <;> first | rfl | cases hcopyable

lemma storeError (h : Held t la lt w) (hactive : w.isActive t = true) {e : EtlError}
    {policy : TableRetryPolicy} (hbefore : ∀ stored, w.store.getTableState t = some stored →
      stored.isReleased = false) (hhanding : Handing t la lt w) :
    Held t la { lt with phase := .failed } (w.setAndStore t (.errored e policy)) := by
  refine of_not_released (fun stored hs => ?_) (fun state hs => ?_) (fun hl lsn payload hmem => ?_)
    fun _ previous rest hhistory => ?_
  · have hwritten : (w.setAndStore t (.errored e policy)).store.getTableState t =
        some (.errored e policy) := Handing.getTableState_setAndStore rfl
    cases hwritten.symm.trans hs
    rfl
  · cases (WorkerStep.poolState_written hactive).symm.trans hs
    rfl
  · obtain ⟨stored, hs, hr⟩ := h.listed hl lsn payload hmem
    exact nomatch (hbefore stored hs).symm.trans hr
  · obtain ⟨stored, hstored⟩ := Option.isSome_iff_exists.1 (hhanding.known hactive)
    have hhistory' : (w.setAndStore t (.errored e policy)).store.tableStateHistory t =
        stored :: w.store.tableStateHistory t := by
      simp [setAndStore, TableState.asType, TableStateType.shouldStore,
        Store.tableStateHistory_updateTableState, hstored]
    obtain ⟨rfl, -⟩ : stored = previous ∧ w.store.tableStateHistory t = rest := by
      simpa using hhistory'.symm.trans hhistory
    exact hbefore stored hstored

lemma rollback (h : Held t la lt w) (hactive : w.isActive t = true) (hphase : lt.phase = .failed)
    {previous : TableState} {store : Store}
    (hrolled : w.store.rollbackTableState t = .ok (previous, store)) :
    Held t la { lt with phase := .engaged } (w.rollback t previous store) := by
  obtain ⟨rest, hhistory, hstored, -⟩ := Store.rollbackTableState_eq_ok hrolled
  obtain ⟨hbefore, hprevious⟩ := h.failed hphase
  refine of_not_released (fun stored hs => ?_) (fun state hs => ?_) (fun hl lsn payload hmem => ?_)
    nofun
  · have hstored' : store.getTableState t = some previous := by simpa using hstored t
    cases hstored'.symm.trans hs
    exact hprevious previous rest hhistory
  · have hwritten : (w.setAndStore t previous).poolState t = some previous :=
      WorkerStep.poolState_written hactive
    cases hwritten.symm.trans hs
    exact hprevious previous rest hhistory
  · obtain ⟨stored, hs, hr⟩ := h.listed hl lsn payload hmem
    exact nomatch (hbefore stored hs).symm.trans hr

lemma workerStep_sync (h : Held t la lt w) (hhanding : Handing t la lt w)
    (hattending : Attending t la w) (hcoordinated : Coordinated (.tableSync t) lt w) (hstep : WorkerStep start lt w lt' w')
    (hbefore : lt'.phase = .failed → lt.phase = .failed ∨
      ∀ stored, w.store.getTableState t = some stored → stored.isReleased = false) :
    Held t la lt' w' := by
  have hnot := WorkerType.ne_apply hcoordinated.workerType
  have hactive := hcoordinated.active t rfl
  have hworker := hcoordinated.workerType
  have hpassed := hstep.passed_eq hnot
  -- a step that leaves the state of the table alone
  have hsame : SameTable t w w' → (lt'.phase = .failed → lt.phase = .failed) → Held t la lt' w' :=
    fun hsame hfailed => h.frame hsame id rfl rfl hfailed (by rw [hpassed]; exact fun _ => id)
  cases hstep
  case loop hstep =>
    have hphase := hstep.phase_eq
    cases hstep
    case syncDone tableId lsn schema hworker' hlive hstate hreached _ _ _ _ _ =>
      cases hworker.symm.trans hworker'
      have hengaged := hcoordinated.started hlive
      exact syncDone hattending (hactive (by simp [hengaged])) hstate hreached hengaged
    all_goals first
      | exact absurd ‹lt.workerType = .apply› hnot
      | exact hsame (.of_pool rfl rfl rfl rfl rfl) fun hf => hphase ▸ hf
  all_goals try exact absurd ‹lt.workerType = .apply› hnot
  case beginCopy tableId hworker' hlive hphase =>
    cases hworker.symm.trans hworker'
    have hact := hactive (by simp [hphase])
    rcases hcoordinated.starting t rfl (.inr hphase) with hpool | hpool | hpool
    all_goals exact copied hhanding hact hpool rfl rfl nofun
  case createSyncSlot tableId point hworker' hlive hphase _ =>
    cases hworker.symm.trans hworker'
    have hact := hactive (by simp [hphase])
    have hpool := hcoordinated.copying t rfl (.inl hphase)
    refine of_not_released (fun stored hs => not_released_of_pending hhanding hact hpool rfl hs)
      (fun state hs => ?_) (fun hl lsn payload => hhanding.not_listed hact hpool rfl hl) nofun
    cases hpool.symm.trans hs
    rfl
  case finishCopy tableId hworker' hlive hphase _ =>
    cases hworker.symm.trans hworker'
    exact copied hhanding (hactive (by simp [hphase])) (hcoordinated.copying t rfl (.inr hphase)) rfl
      rfl nofun
  case syncWait tableId hworker' hlive hphase =>
    cases hworker.symm.trans hworker'
    have hact := hactive (by simp [hphase])
    have hpool := hcoordinated.copied t rfl hphase
    refine of_not_released (fun stored hs => not_released_of_pending hhanding hact hpool rfl hs)
      (fun state hs => ?_) (fun hl lsn payload => hhanding.not_listed hact hpool rfl hl) nofun
    cases (WorkerStep.poolState_written hact).symm.trans hs
    rfl
  case storeError tableId e policy hworker' hlive hphase =>
    cases hworker.symm.trans hworker'
    refine h.storeError (hactive (by simp [hphase])) ((hbefore rfl).resolve_left ?_) hhanding
    simp [hphase]
  case rollback tableId previous store hworker' hlive hphase hrolled =>
    cases hworker.symm.trans hworker'
    exact h.rollback (hactive (by simp [hphase])) hphase hrolled
  case countAttempts tableId attempts hworker' =>
    exact hsame ⟨poolState_setRetryAttempts, by simp [isActive_setRetryAttempts], rfl, rfl, rfl, rfl⟩
      id
  case finish tableId hworker' hlive => exact hsame sameTable_finishWorker nofun
  all_goals first
    | exact hsame (.of_pool rfl rfl rfl rfl rfl) id
    | exact hsame (.of_pool rfl rfl rfl rfl rfl) nofun

/-! ### Steps of the surroundings -/

lemma environment (h : Held t la lt w) (hhanding : Handing t la lt w)
    (hactive : lt.phase ≠ .idle → w.isActive t = true) {action : Action}
    (hstep : System.environment w action = some w') : Held t la lt w' := by
  cases action with
  | turn => cases hstep
  | restart => cases hstep
  | cleanUp k count failed =>
    cases hstep
    cases failed <;> exact h.frame_world (.of_pool rfl rfl rfl rfl rfl) rfl
  | register tableId =>
    simp only [System.environment] at hstep
    split at hstep
    · rename_i hnone
      cases hstep
      by_cases ht : t = tableId
      · subst ht
        have hinit : ∀ stored, (w.store.updateTableState t .init).getTableState t = some stored →
            stored.isReleased = false := by simp [TableState.isReleased]
        refine ⟨fun stored hs hr => (by cases (hinit stored hs).symm.trans hr),
          fun hl lsn payload hmem => ?_, fun hf => ?_, fun hreleases => h.passed (.inr ?_)⟩
        · obtain ⟨stored, hs, -⟩ := h.listed hl lsn payload hmem
          cases hnone.symm.trans hs
        · have hknown := hhanding.known (hactive (by simp [hf]))
          simp [hnone] at hknown
        · rcases hreleases with ⟨stored, hs, hr⟩ | hpool
          · cases (hinit stored hs).symm.trans hr
          · exact hpool
      · exact h.frame_world (.of_pool rfl (by simp [ht])
          (by simp [Store.tableStateHistory_updateTableState, ht]) rfl rfl) rfl
    · cases hstep
  | _ => cases hstep; exact h.frame_world (.of_pool rfl rfl rfl rfl rfl) rfl

lemma restart (h : Held t la lt w) {ka kt : WorkerType} :
    Held t (.unstarted ka) (.unstarted kt) w.restart := by
  refine ⟨nofun, nofun, nofun, fun hreleases => h.passed (.inl ?_)⟩
  exact hreleases.resolve_right fun hpool => hpool.1.elim nofun nofun

end Held

/-- If no worker fails after its handover, what has been passed over comes before the handover. -/
lemma System.Reachable.held {wal : Wal} (hwal : config.wal = some wal)
    (hs : s.Reachable config System.FailsBeforeHandover) (t : TableId) :
    Held t (s.memory.loops .apply) (s.memory.loops (.tableSync t)) s.world := by
  refine hs.invariant (J := fun m => Held t (m.loops .apply) (m.loops (.tableSync t)) m.world) ?_ ?_
  · exact ⟨nofun, nofun, nofun, nofun⟩
  · intro s m' hs hm hmove hallowed
    have hcoordinated := hs.proceeds.coordinated
    have hhanding := hs.handing t
    have hattending := hs.attending hwal t
    cases hmove with
    | worker k step =>
      have hworker := (hcoordinated k).workerType
      cases k with
      | apply =>
        simpa using hm.workerStep_apply hhanding hattending (hcoordinated (.tableSync t)) hworker step
      | tableSync k =>
        by_cases hk : t = k
        · subst hk
          have hbefore := hallowed t
          simp only [Function.update_self] at hbefore
          simpa using hm.workerStep_sync hhanding hattending (hcoordinated (.tableSync t)) step hbefore
        · have hnot := WorkerType.ne_apply hworker
          simpa [hk] using hm.frame_world (step.sameTable hk hworker)
            (congrFun (step.passed_eq hnot) t)
    | environment action step =>
      exact hm.environment hhanding ((hcoordinated (.tableSync t)).active t rfl) step
    | restart => exact hm.restart
    | idle => exact hm

/-! ## The handover is complete -/

def World.HandedOver (w : World) (t : TableId) (h : PgLsn) : Prop :=
  (∃ payload, w.store.getTableState t = some (.syncDone h payload)) ∨
    w.store.getTableState t = some .ready ∧ w.handover t = some h

namespace World.HandedOver

variable {t : TableId} {h : PgLsn} {la la' lt lt' : ApplyLoop} {w w' : World}

lemma released (hw : w.HandedOver t h) :
    ∃ stored, w.store.getTableState t = some stored ∧ stored.isReleased = true := by
  rcases hw with ⟨payload, hs⟩ | ⟨hs, -⟩ <;> exact ⟨_, hs, rfl⟩

lemma handover_eq (hw : w.HandedOver t h) (hhanding : Handing t la lt w) :
    w.handover t = some h := by
  rcases hw with ⟨payload, hs⟩ | ⟨-, hhandover⟩
  · exact hhanding.store _ hs
  · exact hhandover

lemma frame (hw : w.HandedOver t h) (hsame : SameTable t w w') : w'.HandedOver t h := by
  unfold HandedOver
  rw [hsame.stored, hsame.handover]
  exact hw

lemma workerStep_apply (hw : w.HandedOver t h) (hhanding : Handing t la lt w)
    (hworker : la.workerType = .apply) {start : Option Wal} (hstep : WorkerStep start la w la' w') :
    w'.HandedOver t h ∨ la.phase = .invalid ∧ la'.phase = .cleared := by
  have hnot := WorkerType.ne_tableSync hworker
  have hsame : SameTable t w w' → w'.HandedOver t h ∨ la.phase = .invalid ∧ la'.phase = .cleared :=
    fun hsame => .inl (hw.frame hsame)
  cases hstep
  case loop hstep =>
    cases hstep with
    | setCatchup tableId snapshotLsn currentLsn => exact .inl hw
    | ready tableId lsn currentLsn payload active =>
      by_cases ht : t = tableId
      · subst ht
        exact .inl (.inr ⟨by simp [World.promote], hw.handover_eq hhanding⟩)
      · refine hsame (.of_pool ?_ ?_ ?_ rfl ?_)
        · cases active <;> simp [World.promote, setPoolState, ht]
        · simp [World.promote, ht]
        · simp [World.promote, Store.tableStateHistory_updateTableState, ht]
        · simp [World.promote, ht]
    | spawn => exact .inl hw
    | syncDone tableId lsn schema hsync => exact absurd hsync (hnot _)
    | _ => exact hsame (.of_pool rfl rfl rfl rfl rfl)
  case resetForResync hlive hphase => exact .inr ⟨hphase, rfl⟩
  all_goals first
    | exact absurd ‹la.workerType = _› (hnot _)
    | exact hsame (.of_pool rfl rfl rfl rfl rfl)

lemma workerStep_sync (hw : w.HandedOver t h) (hheld : Held t la lt w)
    (hhanding : Handing t la lt w) (hcoordinated : Coordinated (.tableSync t) lt w)
    {start : Option Wal} (hstep : WorkerStep start lt w lt' w')
    (hbefore : lt'.phase = .failed → lt.phase = .failed ∨
      ∀ stored, w.store.getTableState t = some stored → stored.isReleased = false) :
    w'.HandedOver t h := by
  have hnot := WorkerType.ne_apply hcoordinated.workerType
  have hactive := hcoordinated.active t rfl
  have hworker := hcoordinated.workerType
  obtain ⟨stored, hstored, hreleased⟩ := hw.released
  -- a worker that still has to hand its table over has not stored a handover
  have hpending : ∀ {state : TableState}, lt.phase ≠ .idle → w.poolState t = some state →
      state.isPending = true → w'.HandedOver t h := by
    intro state hidle hpool hp
    have hfalse := Held.not_released_of_pending hhanding (hactive hidle) hpool hp hstored
    cases hfalse.symm.trans hreleased
  have hsame : SameTable t w w' → w'.HandedOver t h := hw.frame
  cases hstep
  case loop hstep =>
    cases hstep
    case syncDone tableId lsn schema hworker' hlive hstate _ _ _ _ _ _ =>
      cases hworker.symm.trans hworker'
      exact hpending (by simp [hcoordinated.started hlive]) hstate rfl
    all_goals first
      | exact absurd ‹lt.workerType = .apply› hnot
      | exact hsame (.of_pool rfl rfl rfl rfl rfl)
  all_goals try exact absurd ‹lt.workerType = .apply› hnot
  case beginCopy tableId hworker' hlive hphase =>
    cases hworker.symm.trans hworker'
    rcases hcoordinated.starting t rfl (.inr hphase) with hpool | hpool | hpool
    all_goals exact hpending (by simp [hphase]) hpool rfl
  case createSyncSlot tableId point hworker' hlive hphase _ =>
    cases hworker.symm.trans hworker'
    exact hpending (by simp [hphase]) (hcoordinated.copying t rfl (.inl hphase)) rfl
  case finishCopy tableId hworker' hlive hphase _ =>
    cases hworker.symm.trans hworker'
    exact hpending (by simp [hphase]) (hcoordinated.copying t rfl (.inr hphase)) rfl
  case syncWait tableId hworker' hlive hphase =>
    cases hworker.symm.trans hworker'
    exact hpending (by simp [hphase]) (hcoordinated.copied t rfl hphase) rfl
  case storeError tableId e policy hworker' hlive hphase =>
    cases hworker.symm.trans hworker'
    have hfalse := (hbefore rfl).resolve_left (by simp [hphase]) stored hstored
    cases hfalse.symm.trans hreleased
  case rollback tableId previous store hworker' hlive hphase hrolled =>
    cases hworker.symm.trans hworker'
    cases ((hheld.failed hphase).1 stored hstored).symm.trans hreleased
  case countAttempts tableId attempts hworker' =>
    exact hsame ⟨poolState_setRetryAttempts, by simp [isActive_setRetryAttempts], rfl, rfl, rfl, rfl⟩
  case finish tableId hworker' hlive => exact hsame sameTable_finishWorker
  all_goals exact hsame (.of_pool rfl rfl rfl rfl rfl)

lemma environment (hw : w.HandedOver t h) {action : Action}
    (hstep : System.environment w action = some w') : w'.HandedOver t h := by
  obtain ⟨stored, hstored, -⟩ := hw.released
  cases action with
  | turn => cases hstep
  | restart => cases hstep
  | cleanUp k count failed =>
    cases hstep
    cases failed <;> exact hw.frame (.of_pool rfl rfl rfl rfl rfl)
  | register tableId =>
    simp only [System.environment] at hstep
    split at hstep <;> cases hstep
    rename_i hnone
    have ht : t ≠ tableId := by
      rintro rfl
      cases hnone.symm.trans hstored
    exact hw.frame (.of_pool rfl (by simp [ht])
      (by simp [Store.tableStateHistory_updateTableState, ht]) rfl rfl)
  | _ => cases hstep; exact hw.frame (.of_pool rfl rfl rfl rfl rfl)

end World.HandedOver

/-- A handover is complete as long as no worker fails after it. Whatever is stored as `SyncDone`, or
has become `Ready` since, has every earlier change in its copy or durable; the apply worker has
passed nothing over that comes after the handover, and would accept it wherever it looks; and this
stays so, through restarts and new connections, until all tables are to be copied again. -/
theorem handover_complete {config : Config} {wal : Wal} (hwal : config.wal = some wal) {s : System}
    (hs : s.Reachable config System.FailsBeforeHandover) {t : TableId} {h : PgLsn}
    (hhanded : s.world.HandedOver t h) :
    (∀ T ∈ wal.transactions, s.world.copyPoint t ≤ T.commitLsn → T.endLsn ≤ h →
      ∀ change ∈ T.changes, change.touches t = true → (T.commitLsn, change) ∈ s.world.synced t) ∧
    (∀ lsn, h ≤ lsn → lsn ∉ s.world.passed t ∧
      ∀ state, s.world.store.getTableState t = some state ∨ s.world.poolState t = some state →
        isStateReadyForChanges state lsn = true) ∧
    ∀ action s', s.step config action = some s' →
      System.FailsBeforeHandover s.memory s'.memory → s'.world.HandedOver t h ∨
        (s.memory.loops .apply).phase = .invalid ∧ (s'.memory.loops .apply).phase = .cleared := by
  have hhanding := hs.handing t
  have hheld := hs.held hwal t
  have hcoordinated := hs.proceeds.coordinated
  have hhandover := hhanded.handover_eq hhanding
  obtain ⟨stored, hstored, hreleased⟩ := hhanded.released
  refine ⟨(hs.sealed_ hwal t).complete h hhandover, fun lsn hle => ⟨fun hmem => ?_, fun state hs => ?_⟩,
    fun action s' hnext hallowed => ?_⟩
  · exact not_lt.2 hle (hheld.passed (.inl ⟨stored, hstored, hreleased⟩) h hhandover lsn hmem)
  · have hstate : state.isReleased = true ∧ s.world.Vouches t state := by
      rcases hs with hs | hs
      · cases hstored.symm.trans hs
        exact ⟨hreleased, hhanding.store _ hstored⟩
      · exact ⟨hheld.agree stored hstored hreleased state hs, hhanding.pool _ hs⟩
    cases state with
    | syncDone lsn' payload =>
      obtain rfl : lsn' = h := Option.some.inj (Eq.trans (Eq.symm hstate.2) hhandover)
      exact decide_eq_true hle
    | ready => rfl
    | _ => cases hstate.1
  · have hmove := (hs.proceeds.step hnext).2
    change s'.memory.world.HandedOver t h ∨ _
    generalize s'.memory = m' at hmove hallowed ⊢
    cases hmove with
    | worker k step =>
      have hworker := (hcoordinated k).workerType
      cases k with
      | apply => simpa using hhanded.workerStep_apply hhanding hworker step
      | tableSync k =>
        by_cases hk : t = k
        · subst hk
          have hbefore := hallowed t
          simp only [Function.update_self] at hbefore
          exact .inl (hhanded.workerStep_sync hheld hhanding (hcoordinated (.tableSync t)) step hbefore)
        · exact .inl (hhanded.frame (step.sameTable hk hworker))
    | environment action step => exact .inl (hhanded.environment step)
    | restart => exact .inl hhanded
    | idle => exact .inl hhanded

def System.failsBeforeHandover : Action → System → System → Bool
  | .turn (.tableSync t) _, s, s' =>
    decide ((s'.memory.loops (.tableSync t)).phase ≠ .failed) ||
      (s.world.store.getTableState t).all fun stored => !stored.isReleased
  | _, _, _ => true

lemma System.failsBeforeHandover_of_passes {action : Action} {s' : System}
    (hnext : s.step config action = some s') (h : failsBeforeHandover action s s' = true) :
    FailsBeforeHandover s.memory s'.memory := by
  intro t hfailed
  by_cases hturn : ∃ input, action = .turn (.tableSync t) input
  · obtain ⟨input, rfl⟩ := hturn
    right
    change ∀ stored, s.world.store.getTableState t = some stored → _
    simpa [failsBeforeHandover, hfailed, Option.all_eq_true] using h
  · rcases loops_eq_of_step hnext fun input heq => hturn ⟨input, heq⟩ with heq | heq
    · exact .inl (heq ▸ hfailed)
    · rw [heq] at hfailed
      cases hfailed

/-- The apply worker has passed over the first of two transactions, and would not pass over the
second one. -/
theorem handover_complete_followedUp :
    System.followedUp.world.HandedOver 1 20 ∧ System.followedUp.world.passed 1 = [15] ∧
      System.followedUp.world.copyPoint 1 = 10 ∧
      (15, .insert 1 []) ∈ System.followedUp.world.synced 1 ∧
      25 ∉ System.followedUp.world.passed 1 := by
  have hreachable : System.followedUp.Reachable (System.sampleConfig (some .twice))
      System.FailsBeforeHandover :=
    System.reachable_play_of_passes System.failsBeforeHandover_of_passes
      (System.reachable_play_of_passes System.failsBeforeHandover_of_passes .initial
        (by decide +kernel))
      (by decide +kernel)
  have hhanded : System.followedUp.world.HandedOver 1 20 := by
    exact .inl ⟨some ⟨.initial, [], []⟩, by decide +kernel⟩
  have hcomplete := handover_complete rfl hreachable hhanded
  refine ⟨hhanded, by decide +kernel, by decide +kernel, ?_, (hcomplete.2.1 25 (by decide)).1⟩
  exact hcomplete.1 ⟨15, 20, [.insert 1 []], by decide, by decide⟩ (List.mem_cons_self ..)
    (by decide +kernel) (by decide) _ (List.mem_cons_self ..) rfl

def System.caughtUp : System :=
  initial.play (sampleConfig (some .twice))
    [.register 1, .turn .apply { lsn := 5 }, .turn .apply { lsn := 5 },
      .turn .apply { branch := .streamMessage (.ok (.primaryKeepAlive 12 false)) },
      .turn (.tableSync 1) {}, .turn (.tableSync 1) { lsn := 10 }, .turn .apply {},
      .turn (.tableSync 1) {},
      .turn (.tableSync 1) { branch := .streamMessage (.ok (.xLogData 15 15 (.begin 15 0 0))) },
      .turn (.tableSync 1) { branch := .streamMessage (.ok (.xLogData 15 15 (.insert 1 []))) },
      .turn (.tableSync 1) { branch := .streamMessage (.ok (.xLogData 15 20 (.commit 0 15 20 0))) }]

/-- The table is handed over, but the worker cannot persist its checkpoint: the table is `Errored`,
to be retried. -/
def System.failedAfterHandover : System :=
  ((caughtUp.round (sampleConfig (some .twice)) (.tableSync 1)
    { branch := .flushResult (.ok .durable) } 10).round (sampleConfig (some .twice)) (.tableSync 1)
      { fault := some ⟨.sourceConnectionFailed, "Connection pool timed out"⟩ } 1).round
        (sampleConfig (some .twice)) (.tableSync 1) {} 5

def System.passedOver : System :=
  failedAfterHandover.play (sampleConfig (some .twice))
    [.turn .apply {},
      .turn .apply { branch := .streamMessage (.ok (.xLogData 15 15 (.begin 15 0 0))) },
      .turn .apply { branch := .streamMessage (.ok (.xLogData 15 15 (.insert 1 []))) },
      .turn .apply { branch := .streamMessage (.ok (.xLogData 15 20 (.commit 0 15 20 0))) },
      .turn .apply { branch := .streamMessage (.ok (.xLogData 25 25 (.begin 25 0 0))) },
      .turn .apply { branch := .streamMessage (.ok (.xLogData 25 25 (.insert 1 []))) },
      .turn .apply { branch := .streamMessage (.ok (.xLogData 25 30 (.commit 0 25 30 0))) }]

def System.rolledBack : System :=
  passedOver.round (sampleConfig (some .twice)) (.tableSync 1) {} 1

lemma System.reachable_passedOver :
    System.passedOver.Reachable (sampleConfig (some .twice)) AnyStep :=
  reachable_play (reachable_round (reachable_round (reachable_round (reachable_play .initial _) 10) 1)
    5) _

/-- The apply worker has passed over a transaction after the stored handover: it is lost. -/
theorem handover_complete_rolledBack :
    System.rolledBack.Reachable (System.sampleConfig (some .twice)) System.AnyStep ∧
      System.rolledBack.world.HandedOver 1 20 ∧ 25 ∈ System.rolledBack.world.passed 1 ∧
      System.rolledBack.world.applied 1 = [] ∧
      System.rolledBack.world.synced 1 =
        [(15, .begin 15 0 0), (15, .insert 1 []), (15, .commit 0 15 20 0)] := by
  refine ⟨System.reachable_round System.reachable_passedOver 1, ?_, by decide +kernel,
    by decide +kernel, by decide +kernel⟩
  exact .inl ⟨some ⟨.initial, [], []⟩, by decide +kernel⟩

end Etl
