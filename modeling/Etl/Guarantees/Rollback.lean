import Etl.Guarantees.Recovery

/-!
# Rolling a failed table back

A worker that fails notes the error as the state of its table, and takes it back before the next
attempt. As long as errors are written only over tables still to be copied, nothing is lost.
-/

namespace Etl

open World

/-- Errors are noted only over tables still to be copied, and no reset comes while a worker waits
for its next attempt. -/
def System.FailsWhileCopying (m m' : Memory) : Prop :=
  ∀ t, ((m'.loops (.tableSync t)).phase = .failed → (m.loops (.tableSync t)).phase = .failed ∨
      ∀ stored, m.world.store.getTableState t = some stored → stored.isCopyable = true) ∧
    ((m.loops (.tableSync t)).phase = .failed →
      ¬((m.loops .apply).phase = .invalid ∧ (m'.loops .apply).phase = .cleared))

def Recopied (t : TableId) (lt : ApplyLoop) (w : World) : Prop :=
  lt.phase = .failed →
    ∃ previous rest, w.store.tableStateHistory t = previous :: rest ∧ previous.isCopyable = true

namespace Recopied

variable {t : TableId} {la la' lt lt' : ApplyLoop} {w w' : World} {wal : Option Wal}

lemma frame (h : Recopied t lt w)
    (hhistory : w'.store.tableStateHistory t = w.store.tableStateHistory t)
    (hfailed : lt'.phase = .failed → lt.phase = .failed) : Recopied t lt' w' := by
  intro hf
  rw [hhistory]
  exact h (hfailed hf)

lemma workerStep_apply (h : Recopied t lt w) (hattending : Attending t la w)
    (hcoordinated : Coordinated (.tableSync t) lt w) (hworker : la.workerType = .apply)
    (hstep : WorkerStep wal la w la' w')
    (hkept : lt.phase = .failed → ¬(la.phase = .invalid ∧ la'.phase = .cleared)) :
    Recopied t lt w' := by
  have hnot := WorkerType.ne_tableSync hworker
  cases hstep
  case loop hstep =>
    cases hstep with
    | ready tableId lsn currentLsn payload active _ _ _ _ _ hobserved hstate =>
      by_cases ht : t = tableId
      · subst ht
        exact fun hf => absurd hf (hattending.not_failed hcoordinated hobserved hstate)
      · exact h.frame (by simp [World.promote, Store.tableStateHistory_updateTableState, ht]) id
    | syncDone tableId lsn schema hsync => exact absurd hsync (hnot _)
    | _ => exact h.frame rfl id
  case resetForResync hlive hphase => exact fun hf => absurd ⟨hphase, rfl⟩ (hkept hf)
  all_goals first
    | exact absurd ‹la.workerType = _› (hnot _)
    | exact h.frame rfl id

lemma workerStep_sync (h : Recopied t lt w) (hhanding : Handing t la lt w)
    (hcoordinated : Coordinated (.tableSync t) lt w) (hstep : WorkerStep wal lt w lt' w')
    (hbefore : lt'.phase = .failed → lt.phase = .failed ∨
      ∀ stored, w.store.getTableState t = some stored → stored.isCopyable = true) :
    Recopied t lt' w' := by
  have hnot := WorkerType.ne_apply hcoordinated.workerType
  have hworker := hcoordinated.workerType
  cases hstep
  case loop hstep =>
    have hphase := hstep.phase_eq
    cases hstep
    case syncDone tableId lsn schema hworker' hlive _ _ _ _ _ _ _ =>
      have hengaged := hcoordinated.started hlive
      exact fun hf => by cases hengaged.symm.trans hf
    all_goals first
      | exact absurd ‹lt.workerType = .apply› hnot
      | exact h.frame rfl fun hf => hphase ▸ hf
  all_goals try exact absurd ‹lt.workerType = .apply› hnot
  case storeError tableId e policy hworker' hlive hphase =>
    cases hworker.symm.trans hworker'
    intro _
    obtain ⟨stored, hstored⟩ :=
      Option.isSome_iff_exists.1 (hhanding.known (hcoordinated.active t rfl (by simp [hphase])))
    refine ⟨stored, w.store.tableStateHistory t, ?_,
      (hbefore rfl).resolve_left (by simp [hphase]) stored hstored⟩
    simp [setAndStore, TableState.asType, TableStateType.shouldStore,
      Store.tableStateHistory_updateTableState, hstored]
  all_goals first
    | exact h.frame rfl id
    | exact fun hf => by cases hf

lemma environment (h : Recopied t lt w) (hhanding : Handing t la lt w)
    (hactive : lt.phase ≠ .idle → w.isActive t = true) {action : Action}
    (hstep : System.environment w action = some w') : Recopied t lt w' := by
  cases action with
  | turn => cases hstep
  | restart => cases hstep
  | cleanUp k count failed =>
    cases hstep
    cases failed <;> exact h.frame rfl id
  | register tableId =>
    simp only [System.environment] at hstep
    split at hstep <;> cases hstep
    rename_i hnone
    by_cases ht : t = tableId
    · subst ht
      intro hf
      have hknown := hhanding.known (hactive (by simp [hf]))
      simp [hnone] at hknown
    · exact h.frame (by simp [Store.tableStateHistory_updateTableState, ht]) id
  | _ => cases hstep; exact h.frame rfl id

end Recopied

/-- If errors are noted only over tables still to be copied, a failed worker returns to such a
state. -/
lemma System.Reachable.recopied {config : Config} {wal : Wal} (hwal : config.wal = some wal)
    {s : System} (hs : s.Reachable config System.FailsWhileCopying) (t : TableId) :
    Recopied t (s.memory.loops (.tableSync t)) s.world := by
  refine hs.invariant (J := fun m => Recopied t (m.loops (.tableSync t)) m.world) nofun ?_
  intro s m' hs hm hmove hallowed
  have hcoordinated := hs.proceeds.coordinated
  have hhanding := hs.handing t
  cases hmove with
  | worker k step =>
    have hworker := (hcoordinated k).workerType
    cases k with
    | apply =>
      have hkept := (hallowed t).2
      simp only [Function.update_self] at hkept
      simpa using hm.workerStep_apply (hs.attending hwal t) (hcoordinated (.tableSync t)) hworker step
        hkept
    | tableSync k =>
      by_cases hk : t = k
      · subst hk
        have hbefore := (hallowed t).1
        simp only [Function.update_self] at hbefore
        simpa using hm.workerStep_sync hhanding (hcoordinated (.tableSync t)) step hbefore
      · simpa [hk] using hm.frame (step.sameTable hk hworker).history id
  | environment action step =>
    exact hm.environment hhanding ((hcoordinated (.tableSync t)).active t rfl) step
  | restart => exact nofun
  | idle => exact hm

/-! ## The step that rolls back -/

def System.RollsBack (t : TableId) (previous : TableState) (s s' : System) : Prop :=
  s.world.store.tableStateHistory t = previous :: s'.world.store.tableStateHistory t ∧
    s'.world.store.getTableState t = some previous

instance (t : TableId) (previous : TableState) (s s' : System) :
    Decidable (System.RollsBack t previous s s') :=
  inferInstanceAs (Decidable (_ ∧ _))

lemma WorkerStep.failed_of_pop {wal : Option Wal} {l l' : ApplyLoop} {w w' : World}
    (hstep : WorkerStep wal l w l' w') {t : TableId} {previous : TableState}
    (hpop : w.store.tableStateHistory t = previous :: w'.store.tableStateHistory t) :
    l.workerType = .tableSync t ∧ l.phase = .failed := by
  -- every other step keeps the history or adds to it
  have hgrows : ∀ added, w'.store.tableStateHistory t = added ++ w.store.tableStateHistory t →
      l.workerType = .tableSync t ∧ l.phase = .failed := by
    intro added hadded
    have hlength := congrArg List.length hpop
    rw [hadded] at hlength
    simp at hlength
    omega
  have hwrites : ∀ (tableId : TableId) (state : TableState),
      w'.store = (w.setAndStore tableId state).store →
        l.workerType = .tableSync t ∧ l.phase = .failed := by
    intro tableId state hstore
    rw [hstore] at hgrows
    by_cases hs : state.asType.shouldStore = true
    · by_cases ht : t = tableId
      · exact hgrows (w.store.getTableState t).toList
          (by simp [setAndStore, hs, Store.tableStateHistory_updateTableState, ht])
      · exact hgrows [] (by simp [setAndStore, hs, Store.tableStateHistory_updateTableState, ht])
    · exact hgrows [] (by simp [setAndStore, hs])
  cases hstep
  case loop hstep =>
    cases hstep
    case syncDone tableId lsn schema _ _ _ _ _ _ _ _ _ =>
      exact hwrites tableId (.ofSyncDone lsn schema) rfl
    case ready tableId lsn currentLsn payload active _ _ _ _ _ _ _ =>
      by_cases ht : t = tableId
      · exact hgrows (w.store.getTableState t).toList
          (by simp [World.promote, Store.tableStateHistory_updateTableState, ht])
      · exact hgrows [] (by simp [World.promote, Store.tableStateHistory_updateTableState, ht])
    all_goals exact hgrows [] rfl
  case resetForResync =>
    exact hgrows (w.store.getTableState t).toList Store.tableStateHistory_resetForResync
  case rollback tableId previous' store hworker hlive hphase hrolled =>
    obtain ⟨rest, -, -, hhistory⟩ := Store.rollbackTableState_eq_ok hrolled
    by_cases ht : t = tableId
    · exact ⟨ht ▸ hworker, hphase⟩
    · exact hgrows [] (by simp [World.rollback, hhistory, ht])
  all_goals first
    | exact hgrows [] rfl
    | exact hwrites _ _ rfl

/-- Error recovery loses nothing as long as errors are noted only over tables still to be copied.
Whenever a table is rolled back, it is copied again, or the apply worker has passed over nothing that
comes after its handover. -/
theorem rollback_loses_nothing {config : Config} {wal : Wal} (hwal : config.wal = some wal)
    {s s' : System} (hs : s.Reachable config System.FailsWhileCopying) {action : Action}
    (hnext : s.step config action = some s') {t : TableId} {previous : TableState}
    (hrolled : System.RollsBack t previous s s') :
    previous.isCopyable = true ∨
      ∀ h, s'.world.handover t = some h → ∀ lsn ∈ s'.world.passed t, lsn < h := by
  left
  obtain ⟨hpop, -⟩ := hrolled
  have hcoordinated := hs.proceeds.coordinated
  have hmove := (hs.proceeds.step hnext).2
  -- the worker of the table has failed
  have hfailed : (s.memory.loops (.tableSync t)).phase = .failed := by
    have hpop' : s.memory.world.store.tableStateHistory t =
      previous :: s'.memory.world.store.tableStateHistory t := hpop
    generalize s'.memory = m' at hmove hpop'
    have hsame : m'.world.store.tableStateHistory t = s.memory.world.store.tableStateHistory t →
        (s.memory.loops (.tableSync t)).phase = .failed := by
      intro hsame
      rw [hsame] at hpop'
      exact absurd hpop'.symm (List.cons_ne_self _ _)
    cases hmove with
    | worker k step =>
      obtain ⟨hworker, hphase⟩ := step.failed_of_pop hpop'
      obtain rfl := (hcoordinated k).workerType.symm.trans hworker
      exact hphase
    | environment action step =>
      refine hsame ?_
      cases action with
      | turn => cases step
      | restart => cases step
      | cleanUp k count failed =>
        cases step
        cases failed <;> rfl
      | register tableId =>
        simp only [System.environment] at step
        split at step <;> cases step
        rename_i hnone
        by_cases ht : t = tableId
        · subst ht
          simp [Store.tableStateHistory_updateTableState, hnone]
        · simp [Store.tableStateHistory_updateTableState, ht]
      | _ => cases step; rfl
    | restart => exact hsame rfl
    | idle => exact hsame rfl
  obtain ⟨previous', rest, hhistory, hcopyable⟩ := hs.recopied hwal t hfailed
  obtain ⟨rfl, -⟩ : previous' = previous ∧ rest = s'.world.store.tableStateHistory t := by
    simpa using hhistory.symm.trans hpop
  exact hcopyable

def System.failsWhileCopying : Action → System → System → Bool
  | .turn (.tableSync t) _, s, s' =>
    decide ((s'.memory.loops (.tableSync t)).phase ≠ .failed) ||
      decide ((s.memory.loops (.tableSync t)).phase = .failed) ||
      (s.world.store.getTableState t).all (·.isCopyable)
  | .turn .apply _, s, s' =>
    decide ¬((s.memory.loops .apply).phase = .invalid ∧ (s'.memory.loops .apply).phase = .cleared)
  | _, _, _ => true

lemma System.failsWhileCopying_of_passes {config : Config} {action : Action} {s s' : System}
    (hnext : s.step config action = some s') (h : failsWhileCopying action s s' = true) :
    FailsWhileCopying s.memory s'.memory := by
  intro t
  refine ⟨fun hfailed => ?_, fun _ ⟨hinvalid, hcleared⟩ => ?_⟩
  · by_cases hturn : ∃ input, action = .turn (.tableSync t) input
    · obtain ⟨input, rfl⟩ := hturn
      change _ ∨ ∀ stored, s.world.store.getTableState t = some stored → _
      simpa [failsWhileCopying, hfailed, Option.all_eq_true] using h
    · rcases loops_eq_of_step hnext fun input heq => hturn ⟨input, heq⟩ with heq | heq
      · exact .inl (heq ▸ hfailed)
      · rw [heq] at hfailed
        cases hfailed
  · by_cases hturn : ∃ input, action = .turn .apply input
    · obtain ⟨input, rfl⟩ := hturn
      simp [failsWhileCopying, hinvalid, hcleared] at h
    · rcases loops_eq_of_step hnext fun input heq => hturn ⟨input, heq⟩ with heq | heq
      · rw [heq, hinvalid] at hcleared
        cases hcleared
      · rw [heq] at hcleared
        cases hcleared

def System.copyStarted : System :=
  initial.play (sampleConfig (some .twice))
    [.register 1, .turn .apply { lsn := 5 }, .turn .apply { lsn := 5 },
      .turn .apply { branch := .streamMessage (.ok (.primaryKeepAlive 12 false)) },
      .turn (.tableSync 1) {}]

def System.failedCopy : System :=
  ((copyStarted.round (sampleConfig (some .twice)) (.tableSync 1) { lsn := 10 } 8).round
    (sampleConfig (some .twice)) (.tableSync 1)
      { fault := some ⟨.sourceConnectionFailed, "Connection refused"⟩ } 1).round
        (sampleConfig (some .twice)) (.tableSync 1) {} 5

def System.passedFailedCopy : System :=
  failedCopy.play (sampleConfig (some .twice))
    [.turn .apply { branch := .streamMessage (.ok (.xLogData 15 15 (.begin 15 0 0))) },
      .turn .apply { branch := .streamMessage (.ok (.xLogData 15 15 (.insert 1 []))) },
      .turn .apply { branch := .streamMessage (.ok (.xLogData 15 20 (.commit 0 15 20 0))) }]

/-- The copy that failed starts over. -/
theorem rollback_loses_nothing_failedCopy :
    ∃ s', System.passedFailedCopy.step (System.sampleConfig (some .twice)) (.turn (.tableSync 1) {}) =
        some s' ∧ System.RollsBack 1 .dataSync System.passedFailedCopy s' ∧
      System.passedFailedCopy.world.passed 1 = [15] ∧
      (TableState.isCopyable .dataSync = true ∨
        ∀ h, s'.world.handover 1 = some h → ∀ lsn ∈ s'.world.passed 1, lsn < h) := by
  have hreachable : System.passedFailedCopy.Reachable (System.sampleConfig (some .twice))
      System.FailsWhileCopying := by
    have hcheck := @System.failsWhileCopying_of_passes (System.sampleConfig (some .twice))
    refine System.reachable_play_of_passes hcheck (System.reachable_round_of_passes hcheck
      (System.reachable_round_of_passes hcheck (System.reachable_round_of_passes hcheck
        (System.reachable_play_of_passes hcheck .initial ?_) ?_) ?_) ?_) ?_
    all_goals decide +kernel
  obtain ⟨s', hnext, hrolled⟩ : ∃ s', System.passedFailedCopy.step
      (System.sampleConfig (some .twice)) (.turn (.tableSync 1) {}) = some s' ∧
        System.RollsBack 1 .dataSync System.passedFailedCopy s' :=
    by simpa [Option.any_eq_true] using (by decide +kernel : ((System.passedFailedCopy.step
      (System.sampleConfig (some .twice)) (.turn (.tableSync 1) {})).any
        fun s' => System.RollsBack 1 .dataSync System.passedFailedCopy s') = true)
  exact ⟨s', hnext, hrolled, by decide +kernel,
    rollback_loses_nothing rfl hreachable hnext hrolled⟩

/-- The worker that failed after its handover takes its table back to `SyncDone`, after the apply
worker has passed over a transaction that comes after the handover. -/
theorem rollback_loses_passedOver :
    System.passedOver.Reachable (System.sampleConfig (some .twice)) System.AnyStep ∧
    ∃ s' previous, System.passedOver.step (System.sampleConfig (some .twice))
        (.turn (.tableSync 1) {}) = some s' ∧ System.RollsBack 1 previous System.passedOver s' ∧
      previous.isCopyable = false ∧ s'.world.handover 1 = some 20 ∧ 25 ∈ s'.world.passed 1 := by
  refine ⟨System.reachable_passedOver, ?_⟩
  obtain ⟨s', hnext, hlost⟩ : ∃ s', System.passedOver.step
      (System.sampleConfig (some .twice)) (.turn (.tableSync 1) {}) = some s' ∧
        System.RollsBack 1 (.syncDone 20 (some ⟨.initial, [], []⟩)) System.passedOver s' ∧
        s'.world.handover 1 = some 20 ∧ 25 ∈ s'.world.passed 1 :=
    by simpa [Option.any_eq_true] using (by decide +kernel : ((System.passedOver.step
      (System.sampleConfig (some .twice)) (.turn (.tableSync 1) {})).any fun s' =>
        System.RollsBack 1 (.syncDone 20 (some ⟨.initial, [], []⟩)) System.passedOver s' ∧
          s'.world.handover 1 = some 20 ∧ 25 ∈ s'.world.passed 1) = true)
  exact ⟨s', _, hnext, hlost.1, rfl, hlost.2⟩

end Etl
