import Etl.Guarantees.Delivery
import Etl.Guarantees.TableStates

/-!
# The apply worker after a handover

What the apply worker writes for a table begins at or after the handover. The table becomes `Ready`
only when nothing before it can be sent any more, in this connection or a later one.
-/

namespace Etl

open World

lemma ApplyLoop.behind_of_position {wal : Wal} {session : Session} {l : ApplyLoop}
    (hpositioned : l.Positioned wal) (htracked : l.Tracked wal session)
    (hhandling : l.handling = none) {lsn : PgLsn}
    (hposition : l.settled = some lsn ∨ l.state.progress.lastReceivedLsn = lsn) :
    l.Behind wal l.produced.length lsn := by
  rcases hposition with hsettled | rfl
  · exact (hpositioned.settled lsn hsettled).1.mono
      (hpositioned.covered_le.trans hpositioned.dispatched_le)
  · intro T hT hstart hnot
    rw [List.take_length] at hnot
    rcases htracked.pending_or_open hT hstart hnot with hpending | ⟨-, hcommitting⟩
    · exact htracked.received T hpending
    · simp [ApplyLoop.committing, hhandling] at hcommitting

/-! ## The apply worker's side -/

/-- A position the apply worker will not start before, whatever happens to its slot. -/
def World.Anchors (w : World) (lsn : PgLsn) : Prop :=
  (∃ c, w.store.replicationCheckpoints .apply = some c ∧ lsn ≤ c) ∨
    ∀ slot, w.slots .apply = some slot → slot.invalidated = true ∨ lsn ≤ slot.consistentPoint

/-- The checkpoint may have grown, and the slot may have moved, been invalidated or lost. -/
structure World.SameAnchor (t : TableId) (w w' : World) : Prop where
  handover : w'.handover t = w.handover t
  promoted : w'.promoted t = w.promoted t
  applied : w'.applied t = w.applied t
  horizon : w.horizon ≤ w'.horizon
  checkpoint : ∀ c, w.store.replicationCheckpoints .apply = some c →
    ∃ c', w'.store.replicationCheckpoints .apply = some c' ∧ c ≤ c'
  slots : ∀ slot', w'.slots .apply = some slot' → ∃ slot, w.slots .apply = some slot ∧
    slot'.consistentPoint = slot.consistentPoint ∧
      (slot.invalidated = true → slot'.invalidated = true)

lemma World.SameAnchor.of_eq {t : TableId} {w w' : World} (hhandover : w'.handover t = w.handover t)
    (hpromoted : w'.promoted t = w.promoted t) (happlied : w'.applied t = w.applied t)
    (hhorizon : w'.horizon = w.horizon)
    (hcheckpoint : w'.store.replicationCheckpoints .apply = w.store.replicationCheckpoints .apply)
    (hslots : w'.slots .apply = w.slots .apply) : SameAnchor t w w' where
  handover := hhandover
  promoted := hpromoted
  applied := happlied
  horizon := hhorizon.ge
  checkpoint c hc := ⟨c, hcheckpoint.trans hc, le_rfl⟩
  slots slot hs := ⟨slot, hslots.symm.trans hs, rfl, id⟩

structure Anchored (wal : Wal) (t : TableId) (la : ApplyLoop) (w : World) : Prop where
  horizon : ∀ lsn, w.handover t = some lsn → lsn ≤ w.horizon
  seen : la.live = true → ∀ c, la.checkpointSeen = some c →
    ∃ c', w.store.replicationCheckpoints .apply = some c' ∧ c ≤ c'
  anchors : w.promoted t = true → ∀ lsn, w.handover t = some lsn → w.Anchors lsn
  sighted : la.phase = .sighted → w.promoted t = true → ∀ lsn, w.handover t = some lsn →
    lsn ≤ la.startLsn ∨ (∃ c, w.store.replicationCheckpoints .apply = some c ∧ lsn ≤ c) ∨
      ∀ slot, w.slots .apply = some slot → slot.invalidated = true
  probed : la.phase = .probed → w.promoted t = true → ∀ lsn, w.handover t = some lsn →
    lsn ≤ la.startLsn ∨ ∃ c, w.store.replicationCheckpoints .apply = some c ∧ lsn ≤ c
  resolved : la.phase = .resolved → w.promoted t = true → ∀ lsn, w.handover t = some lsn →
    lsn ≤ la.startLsn
  /-- Nothing still to be committed comes before the handover. -/
  floor : la.live = true → w.promoted t = true → ∀ lsn, w.handover t = some lsn →
    la.Behind wal la.produced.length lsn
  applied : ∀ lsn ∈ w.applied t, ∃ handover, w.handover t = some handover ∧ handover ≤ lsn

namespace Anchored

variable {wal : Wal} {session : Session} {t : TableId} {la la' lt lt' : ApplyLoop} {w w' : World}

lemma frame (h : Anchored wal t la w) (hsame : SameAnchor t w w')
    (hlive : la'.live = true → la.live = true)
    (hseen : la'.checkpointSeen = la.checkpointSeen ∨
      la'.checkpointSeen = w.store.replicationCheckpoints .apply)
    (hphase : la'.phase = la.phase) (hstart : la'.startLsn = la.startLsn)
    (hproduced : ∀ lsn, la.Behind wal la.produced.length lsn →
      la'.Behind wal la'.produced.length lsn) : Anchored wal t la' w' := by
  obtain ⟨hhandover, hpromoted, happlied, hhorizon, hcheckpoint, hslots⟩ := hsame
  have hchecked : ∀ lsn, (∃ c, w.store.replicationCheckpoints .apply = some c ∧ lsn ≤ c) →
      ∃ c, w'.store.replicationCheckpoints .apply = some c ∧ lsn ≤ c := by
    rintro lsn ⟨c, hc, hle⟩
    obtain ⟨c', hc', hle'⟩ := hcheckpoint c hc
    exact ⟨c', hc', hle.trans hle'⟩
  refine ⟨?_, ?_, ?_, ?_, ?_, ?_, ?_, ?_⟩
  · rw [hhandover]
    exact fun lsn hl => (h.horizon lsn hl).trans hhorizon
  · intro hl c hc
    rcases hseen with hseen | hseen
    · exact hchecked c (h.seen (hlive hl) c (hseen ▸ hc))
    · exact hcheckpoint c (hseen ▸ hc)
  · rw [hpromoted, hhandover]
    intro hp lsn hlsn
    refine (h.anchors hp lsn hlsn).imp (hchecked lsn) fun hbefore slot' hs' => ?_
    obtain ⟨slot, hs, hpoint, hinvalid⟩ := hslots slot' hs'
    rw [hpoint]
    exact (hbefore slot hs).imp_left hinvalid
  · rw [hphase, hpromoted, hhandover, hstart]
    intro hf hp lsn hlsn
    refine (h.sighted hf hp lsn hlsn).imp_right (Or.imp (hchecked lsn) fun hbefore slot' hs' => ?_)
    obtain ⟨slot, hs, -, hinvalid⟩ := hslots slot' hs'
    exact hinvalid (hbefore slot hs)
  · rw [hphase, hpromoted, hhandover, hstart]
    exact fun hf hp lsn hlsn => (h.probed hf hp lsn hlsn).imp_right (hchecked lsn)
  · rw [hphase, hpromoted, hhandover, hstart]
    exact h.resolved
  · rw [hpromoted, hhandover]
    exact fun hl hp lsn hlsn => hproduced lsn (h.floor (hlive hl) hp lsn hlsn)
  · rw [happlied, hhandover]
    exact h.applied

lemma frame_world (h : Anchored wal t la w) (hsame : SameAnchor t w w') : Anchored wal t la w' :=
  h.frame hsame id (.inl rfl) rfl rfl fun _ => id

variable {lsn : PgLsn}

lemma le_of_open (h : Anchored wal t la w) (hlive : la.live = true)
    (htracked : la.Tracked wal session) (hpromoted : w.promoted t = true) {handover : PgLsn}
    (hhandover : w.handover t = some handover) (htx : la.tx = some lsn) : handover ≤ lsn := by
  obtain ⟨T, hT, rfl, hstart⟩ := htracked.exists_of_open htx
  refine h.floor hlive hpromoted handover hhandover T hT hstart ?_
  rw [List.take_length]
  exact htracked.not_committed_of_open htx

/-! ### Steps of the apply loop -/

lemma decide (h : Anchored wal t la w) (hhanding : Handing t la lt w) (hlive : la.live = true)
    (htracked : la.Tracked wal session) {tableId : TableId} (htx : la.tx = some lsn)
    {state : Option TableState}
    (hread : w.poolState tableId = state ∧ state.isSome ∨ w.store.getTableState tableId = state) :
    Anchored wal t la
      (w.recordDecision tableId lsn (state.any fun s => isStateReadyForChanges s lsn)) := by
  refine ⟨h.horizon, h.seen, h.anchors, h.sighted, h.probed, h.resolved, h.floor, ?_⟩
  intro lsn' hmem
  by_cases hold : lsn' ∈ w.applied t
  · exact h.applied lsn' hold
  · -- the decision just made: the table has been handed over, at or before the transaction
    simp only [recordDecision] at hmem
    split_ifs at hmem with hready
    · by_cases ht : t = tableId
      · subst ht
        simp only [Function.update_self, List.mem_cons, hold, or_false] at hmem
        subst hmem
        obtain _ | found := state
        · cases hready
        have hvouches : w.Vouches t found :=
          hread.elim (fun hs => hhanding.pool found hs.1) fun hs => hhanding.store found hs
        have hfound : isStateReadyForChanges found lsn' = true := hready
        cases found with
        | syncDone handover payload => exact ⟨handover, hvouches, of_decide_eq_true hfound⟩
        | ready =>
          obtain ⟨handover, hhandover⟩ := Option.isSome_iff_exists.1 (hhanding.promoted hvouches)
          exact ⟨handover, hhandover, h.le_of_open hlive htracked hvouches hhandover htx⟩
        | _ => cases hfound
      · simp only [Function.update_of_ne ht] at hmem
        exact absurd hmem hold
    · exact absurd hmem hold

lemma promote (h : Anchored wal t la w) (hhanding : Handing t la lt w) (hlive : la.live = true)
    (hphase : la.phase = .engaged) (hpositioned : la.Positioned wal)
    (htracked : la.Tracked wal session) (hhandling : la.handling = none) {tableId : TableId} {syncDoneLsn currentLsn : PgLsn}
    {payload : Option StoredTableDecodingState} {active : Bool}
    (hposition : la.settled = some currentLsn ∨ la.state.progress.lastReceivedLsn = currentLsn)
    (hcan : canTransitionToReady currentLsn la.checkpointSeen syncDoneLsn
      (hasMaterializedDecodingState (la.tableDecodingStates tableId)))
    (hstate : if active then w.poolState tableId = some (.syncDone syncDoneLsn payload)
      else (tableId, .syncDone syncDoneLsn payload) ∈ la.listed) :
    Anchored wal t la (w.promote tableId active) := by
  by_cases ht : t = tableId
  · subst ht
    have hhandover : w.handover t = some syncDoneLsn := by
      cases active with
      | true => exact hhanding.pool _ hstate
      | false => exact (hhanding.listed hlive _ _ hstate).1
    simp only [canTransitionToReady, Bool.and_eq_true, decide_eq_true_eq, Option.any_eq_true] at hcan
    obtain ⟨⟨-, hcurrent⟩, c, hseen, hle⟩ := hcan
    obtain ⟨c', hc', hle'⟩ := h.seen hlive c hseen
    have heq : ∀ lsn, (w.promote t active).handover t = some lsn → lsn = syncDoneLsn :=
      fun lsn hlsn => Option.some.inj (hlsn.symm.trans hhandover)
    refine ⟨h.horizon, h.seen, fun _ lsn hlsn => ?_, ?_, ?_, ?_, fun _ _ lsn hlsn => ?_, h.applied⟩
    · rw [heq lsn hlsn]
      exact .inl ⟨c', hc', hle.trans hle'⟩
    · simp [hphase]
    · simp [hphase]
    · simp [hphase]
    · rw [heq lsn hlsn]
      exact fun T hT hstart hnot => hcurrent.trans
        (ApplyLoop.behind_of_position hpositioned htracked hhandling hposition T hT hstart hnot)
  · exact h.frame_world (.of_eq rfl (by simp [World.promote, ht]) rfl rfl rfl rfl)

variable {worker : WorkerType}

lemma persist (h : Anchored wal t la w) :
    Anchored wal t la { w with store := w.store.upsertReplicationCheckpoint worker lsn } := by
  refine h.frame_world ⟨rfl, rfl, rfl, le_rfl, fun c hc => ?_, fun slot hs => ⟨slot, hs, rfl, id⟩⟩
  rw [Store.replicationCheckpoints_upsert]
  split
  · rename_i hworker
    subst hworker
    simp only [hc]
    exact ⟨_, rfl, le_max_left _ _⟩
  · exact ⟨c, hc, le_rfl⟩

lemma confirmFlush (h : Anchored wal t la w)
    {delivered : Bool} : Anchored wal t la (w.confirmFlush worker lsn delivered) := by
  refine h.frame_world ⟨rfl, rfl, rfl, le_rfl, fun c hc => ⟨c, hc, le_rfl⟩, fun slot' hs' => ?_⟩
  by_cases hworker : worker = .apply
  · subst hworker
    simp only [World.confirmFlush, Function.update_self, Option.map_eq_some_iff] at hs'
    obtain ⟨slot, hs, rfl⟩ := hs'
    refine ⟨slot, hs, ?_⟩
    split <;> exact ⟨rfl, id⟩
  · exact ⟨slot', by simpa [World.confirmFlush, Ne.symm hworker] using hs', rfl, id⟩

lemma loopStep_apply (h : Anchored wal t la w) (hhanding : Handing t la lt w)
    (hcoordinated : Coordinated .apply la w)
    (htracked : la.live = true → la.Positioned wal ∧ ∃ session, la.Tracked wal session)
    (hstep : LoopStep la w la' w') : Anchored wal t la' w' := by
  have hworker := hcoordinated.workerType
  have hlive := hstep.live_of_live
  have hrefl : ∀ w, SameAnchor t w w := fun _ => .of_eq rfl rfl rfl rfl rfl rfl
  cases hstep with
  | push p x =>
    refine h.frame (.of_eq rfl rfl rfl rfl rfl rfl) hlive (.inl rfl) rfl rfl fun lsn hbehind => ?_
    have htake : (la.push p x).produced.take la.produced.length =
        la.produced.take la.produced.length := ApplyLoop.take_of_append rfl le_rfl
    have hstart : (la.push p x).startLsn = la.startLsn := rfl
    refine (hbehind.congr hstart htake).mono ?_
    · simp [ApplyLoop.push]
  | persist => exact h.persist
  | status =>
    exact h.confirmFlush.frame (hrefl _) hlive (.inl rfl) rfl rfl fun _ => id
  | readCheckpoint =>
    rw [hworker]
    exact h.frame (hrefl w) hlive (.inr rfl) rfl rfl fun _ => id
  | beginCleanup =>
    rw [hworker]
    exact h.frame (hrefl w) hlive (.inr rfl) rfl rfl fun _ => id
  | decide tableId lsn state _ hlive' htx _ _ _ _ hread =>
    obtain ⟨-, session, htracked⟩ := htracked hlive'
    exact (h.decide hhanding hlive' htracked htx (hread.imp (fun h => ⟨h.1, h.2.1⟩) And.left)).frame (hrefl _) hlive
      (.inl rfl) rfl rfl fun _ => id
  | ready tableId syncDoneLsn currentLsn payload active _ hlive' hposition hhandling hcan _ hstate =>
    obtain ⟨hpositioned, session, htracked⟩ := htracked hlive'
    exact h.promote hhanding hlive' (hcoordinated.started hlive') hpositioned htracked hhandling
      hposition hcan hstate
  | syncDone tableId lsn schema hsync => cases hworker.symm.trans hsync
  | _ => exact h.frame (.of_eq rfl rfl rfl rfl rfl rfl) hlive (.inl rfl) rfl rfl fun _ => id

/-! ### Steps around the apply loop -/

lemma of_dead (h : Anchored wal t la w) (hsame : w'.handover t = w.handover t ∧
      w'.promoted t = w.promoted t ∧ w'.applied t = w.applied t ∧ w'.horizon = w.horizon)
    (hlive : la'.live = false)
    (hanchors : w.promoted t = true → ∀ lsn, w.handover t = some lsn → w'.Anchors lsn)
    (hsighted : la'.phase ≠ .sighted) (hprobed : la'.phase ≠ .probed)
    (hresolved : la'.phase ≠ .resolved) : Anchored wal t la' w' := by
  obtain ⟨hhandover, hpromoted, happlied, hhorizon⟩ := hsame
  refine ⟨?_, fun hl => ?_, ?_, fun hp => absurd hp hsighted, fun hp => absurd hp hprobed,
    fun hp => absurd hp hresolved, fun hl => ?_, ?_⟩
  · rw [hhandover, hhorizon]
    exact h.horizon
  · simp [hlive] at hl
  · rw [hpromoted, hhandover]
    exact hanchors
  · simp [hlive] at hl
  · rw [happlied, hhandover]
    exact h.applied

lemma slotFound (h : Anchored wal t la w) {slot : Slot} (hlive : la.live = false)
    (hfound : w.slots .apply = some slot) (hpoint : slot.consistentPoint ≤ slot.confirmed) :
    Anchored wal t { la with phase := .sighted, startLsn := slot.confirmed } w := by
  refine ⟨h.horizon, fun hl => (nomatch hlive.symm.trans hl), h.anchors, fun _ hp lsn hlsn => ?_, nofun,
    nofun, fun hl => (nomatch hlive.symm.trans hl), h.applied⟩
  rcases h.anchors hp lsn hlsn with hchecked | hslots
  · exact .inr (.inl hchecked)
  · rcases hslots slot hfound with hinvalid | hle
    · refine .inr (.inr fun slot' hs' => ?_)
      cases hfound.symm.trans hs'
      exact hinvalid
    · exact .inl (hle.trans hpoint)

lemma slotValid (h : Anchored wal t la w) {slot : Slot} (hlive : la.live = false)
    (hphase : la.phase = .sighted) (hfound : w.slots .apply = some slot)
    (hvalid : slot.invalidated = false) : Anchored wal t { la with phase := .probed } w := by
  refine ⟨h.horizon, fun hl => (nomatch hlive.symm.trans hl), h.anchors, nofun, fun _ hp lsn hlsn => ?_,
    nofun, fun hl => (nomatch hlive.symm.trans hl), h.applied⟩
  rcases h.sighted hphase hp lsn hlsn with hstart | hchecked | hinvalid
  · exact .inl hstart
  · exact .inr hchecked
  · exact nomatch hvalid.symm.trans (hinvalid slot hfound)

lemma resolve (h : Anchored wal t la w) (hlive : la.live = false) (hphase : la.phase = .probed) :
    Anchored wal t
      { la with
        phase := .resolved
        startLsn := match w.store.replicationCheckpoints .apply with
          | some checkpoint => max checkpoint la.startLsn
          | none => la.startLsn } w := by
  refine ⟨h.horizon, fun hl => (nomatch hlive.symm.trans hl), h.anchors, nofun, nofun,
    fun _ hp lsn hlsn => ?_, fun hl => (nomatch hlive.symm.trans hl), h.applied⟩
  rcases h.probed hphase hp lsn hlsn with hstart | ⟨c, hc, hle⟩
  · cases w.store.replicationCheckpoints .apply with
    | none => exact hstart
    | some c => exact hstart.trans (le_max_right _ _)
  · simp only [hc]
    exact hle.trans (le_max_left _ _)

lemma createSlot (h : Anchored wal t la w) {point : PgLsn} (hlive : la.live = false)
    (hbeyond : w.horizon ≤ point) :
    Anchored wal t { la with phase := .resolved, startLsn := point } (w.createSlot .apply point) := by
  refine ⟨h.horizon, fun hl => (nomatch hlive.symm.trans hl), fun _ lsn hlsn => .inr fun slot hs => ?_,
    nofun, nofun, fun _ _ lsn hlsn => (h.horizon lsn hlsn).trans hbeyond,
    fun hl => (nomatch hlive.symm.trans hl), h.applied⟩
  simp only [World.createSlot, Function.update_self, Option.some.injEq] at hs
  subst hs
  exact .inr ((h.horizon lsn hlsn).trans hbeyond)

variable {start : Option Wal}

lemma startApply (h : Anchored wal t la w) (hphase : la.phase = .resolved) :
    Anchored wal t (la.startLoop start la.startLsn (fun _ => none) 0) (w.reconnect la.startLsn) := by
  refine ⟨h.horizon, nofun, h.anchors, nofun, nofun, nofun, fun _ hp lsn hlsn => ?_, h.applied⟩
  exact fun T _ hstart _ => (h.resolved hphase hp lsn hlsn).trans hstart

lemma workerStep_apply (h : Anchored wal t la w) (hhanding : Handing t la lt w)
    (hcoordinated : Coordinated .apply la w)
    (htracked : la.live = true → la.Positioned wal ∧ ∃ session, la.Tracked wal session)
    (hpoint : ∀ slot, w.slots .apply = some slot → slot.consistentPoint ≤ slot.confirmed) (hstep : WorkerStep start la w la' w') : Anchored wal t la' w' := by
  have hnot := WorkerType.ne_tableSync hcoordinated.workerType
  have hsame : w.handover t = w.handover t ∧ w.promoted t = w.promoted t ∧
    w.applied t = w.applied t ∧ w.horizon = w.horizon := ⟨rfl, rfl, rfl, rfl⟩
  cases hstep
  case loop hstep => exact h.loopStep_apply hhanding hcoordinated htracked hstep
  all_goals try exact absurd ‹la.workerType = _› (hnot _)
  case leave => exact h.of_dead hsame rfl h.anchors nofun nofun nofun
  case retry =>
    exact h.frame (.of_eq rfl rfl rfl rfl rfl rfl) id (.inl rfl) rfl rfl fun _ => id
  case launch _ hlive => exact h.of_dead hsame hlive h.anchors nofun nofun nofun
  case slotMissing _ hlive _ _ => exact h.of_dead hsame hlive h.anchors nofun nofun nofun
  case slotFound slot _ hlive _ hfound => exact h.slotFound hlive hfound (hpoint slot hfound)
  case slotValid slot _ hlive hphase hvalid hfound => exact h.slotValid hlive hphase hfound hvalid
  case slotInvalid slot _ hlive _ _ _ => exact h.of_dead hsame hlive h.anchors nofun nofun nofun
  case dropCheckpoint _ hlive hphase =>
    refine h.of_dead hsame hlive (fun _ _ _ => .inr fun slot hs => ?_) nofun nofun nofun
    exact nomatch (hcoordinated.slotless rfl hphase).symm.trans hs
  case resetForResync _ hlive hphase =>
    refine h.of_dead hsame hlive (fun _ _ _ => .inr fun slot hs => .inl ?_) nofun nofun nofun
    exact hcoordinated.invalid rfl hphase slot hs
  case dropInvalidSlot _ hlive hphase =>
    refine h.of_dead hsame hlive (fun _ _ _ => .inr fun slot hs => ?_) ?_ ?_ ?_
    · simp [World.deleteSlot] at hs
    all_goals simp [hphase]
  case createSlot point _ hlive _ _ hbeyond => exact h.createSlot hlive hbeyond
  case resolve _ hlive hphase => exact h.resolve hlive hphase
  case startApply _ _ hphase => exact h.startApply hphase

/-! ### Steps of the other workers and of the surroundings -/

lemma handOver (h : Anchored wal t la w) (hnone : w.handover t = none)
    (hpromoted : w.promoted t = true → (w.handover t).isSome) {schema : ReplicatedTableSchema} :
    Anchored wal t la ((w.setAndStore t (.ofSyncDone lsn schema)).recordHandover t lsn) := by
  have hnot : ¬ w.promoted t = true := fun hp => by simpa [hnone] using hpromoted hp
  refine ⟨fun lsn' hlsn => ?_, h.seen, fun hp => absurd hp hnot, fun _ hp => absurd hp hnot,
    fun _ hp => absurd hp hnot, fun _ hp => absurd hp hnot, fun _ hp => absurd hp hnot,
    fun lsn' hmem => ?_⟩
  · simp only [recordHandover, Function.update_self, Option.some.injEq] at hlsn
    exact hlsn ▸ le_max_right _ _
  · obtain ⟨handover, hhandover, -⟩ := h.applied lsn' hmem
    cases hnone.symm.trans hhandover

lemma recordCopy (h : Anchored wal t la w) (hsame : SameDelivery .apply w w') :
    Anchored wal t la (w'.recordCopy t lsn) := by
  have hnot : ¬ (w'.recordCopy t lsn).promoted t = true := by simp [World.recordCopy]
  refine ⟨fun lsn' hlsn => ?_, ?_, fun hp => absurd hp hnot, fun _ hp => absurd hp hnot,
    fun _ hp => absurd hp hnot, fun _ hp => absurd hp hnot, fun _ hp => absurd hp hnot, ?_⟩
  · simp [World.recordCopy] at hlsn
  · change _ → ∀ c, _ → ∃ c', w'.store.replicationCheckpoints .apply = some c' ∧ c ≤ c'
    rw [hsame.checkpoint]
    exact h.seen
  · simp [World.recordCopy]

lemma workerStep_sync (h : Anchored wal t la w) {k : TableId} {l l' : ApplyLoop}
    (hcoordinated : Coordinated (.tableSync k) l w) (hhanding : t = k → Handing t la l w) (hstep : WorkerStep start l w l' w') : Anchored wal t la w' := by
  have hworker := hcoordinated.workerType
  have hnot := WorkerType.ne_apply hworker
  have hdelivery := hstep.sameDelivery (Ne.symm hnot)
  -- a step that does not concern the handover
  have hsame : w'.handover t = w.handover t → w'.promoted t = w.promoted t →
      w'.applied t = w.applied t → w.horizon ≤ w'.horizon → Anchored wal t la w' := by
    intro hhandover hpromoted happlied hhorizon
    refine h.frame_world ⟨hhandover, hpromoted, happlied, hhorizon, fun c hc => ?_, fun slot hs => ?_⟩
    · exact ⟨c, hdelivery.checkpoint.trans hc, le_rfl⟩
    · exact ⟨slot, hdelivery.slots.symm.trans hs, rfl, id⟩
  cases hstep
  case loop hstep =>
    cases hstep
    case syncDone tableId lsn schema hworker' hlive hstate _ _ _ _ _ _ =>
      cases hworker.symm.trans hworker'
      by_cases ht : t = k
      · subst ht
        have hdone : l.done = false := by
          refine Bool.eq_false_iff.2 fun hdone => ?_
          rcases hcoordinated.handedOver t rfl hlive hdone with hs | ⟨_, _, hs⟩ <;>
            cases hstate.symm.trans hs
        exact h.handOver ((hhanding rfl).unhanded (.inr (.inr (.inr ⟨hlive, hdone⟩))))
          (hhanding rfl).promoted
      · exact hsame (by simp [recordHandover, ht, setAndStore, setPoolState]) rfl rfl
          (le_max_left _ _)
    all_goals first
      | exact absurd ‹l.workerType = .apply› hnot
      | exact hsame rfl rfl rfl le_rfl
  case createSyncSlot tableId point hworker' _ _ _ =>
    by_cases ht : t = tableId
    · subst ht
      have hsame' : SameDelivery .apply w (w.createSlot (.tableSync t) point) :=
        ⟨hdelivery.owed, hdelivery.slots, hdelivery.checkpoint⟩
      exact h.recordCopy hsame'
    · refine hsame ?_ ?_ ?_ le_rfl <;> simp [World.recordCopy, World.createSlot, ht]
  all_goals exact hsame rfl rfl rfl le_rfl

lemma updateSlot (h : Anchored wal t la w) (k : WorkerType) {f : Slot → Option Slot}
    (hf : ∀ slot slot', f slot = some slot' → slot'.consistentPoint = slot.consistentPoint ∧
      (slot.invalidated = true → slot'.invalidated = true)) :
    Anchored wal t la (w.updateSlot k f) := by
  refine h.frame_world ⟨rfl, rfl, rfl, le_rfl, fun c hc => ⟨c, hc, le_rfl⟩, fun slot' hs' => ?_⟩
  by_cases hk : k = .apply
  · subst hk
    simp only [World.updateSlot, Function.update_self, Option.bind_eq_some_iff] at hs'
    obtain ⟨slot, hs, hfs⟩ := hs'
    exact ⟨slot, hs, hf slot slot' hfs⟩
  · exact ⟨slot', by simpa [World.updateSlot, Ne.symm hk] using hs', rfl, id⟩

lemma environment (h : Anchored wal t la w) {action : Action}
    (hstep : System.environment w action = some w') : Anchored wal t la w' := by
  have hsame : ∀ store : Store, store.replicationCheckpoints = w.store.replicationCheckpoints →
      SameAnchor t w { w with store := store } := fun store hstore =>
    .of_eq rfl rfl rfl rfl (by rw [hstore]) rfl
  cases action with
  | turn => cases hstep
  | restart => cases hstep
  | shutdown => cases hstep; exact h.frame_world (.of_eq rfl rfl rfl rfl rfl rfl)
  | regress k lsn =>
    cases hstep
    refine h.updateSlot k ?_
    rintro slot _ ⟨⟩
    exact ⟨rfl, id⟩
  | invalidate k =>
    cases hstep
    refine h.updateSlot k ?_
    rintro slot _ ⟨⟩
    exact ⟨rfl, fun _ => rfl⟩
  | loseSlot k => cases hstep; exact h.updateSlot k nofun
  | cleanUp k count failed =>
    cases hstep
    cases failed <;> exact h.frame_world (.of_eq rfl rfl rfl rfl rfl rfl)
  | setMetadata tableId metadata => cases hstep; exact h.frame_world (hsame _ rfl)
  | register tableId =>
    simp only [System.environment] at hstep
    split at hstep
    · cases hstep
      exact h.frame_world (hsame _ rfl)
    · cases hstep

lemma restart (h : Anchored wal t la w) : Anchored wal t (.unstarted worker) w.restart :=
  ⟨h.horizon, nofun, h.anchors, nofun, nofun, nofun, nofun, h.applied⟩

end Anchored

/-- What the apply worker may still be sent comes after the handover of each `Ready` table. -/
lemma System.Reachable.anchored {config : Config} {wal : Wal} (hwal : config.wal = some wal)
    {Allowed : Memory → Memory → Prop} {s : System} (hs : s.Reachable config Allowed) (t : TableId) :
    Anchored wal t (s.memory.loops .apply) s.world := by
  refine hs.invariant (J := fun m => Anchored wal t (m.loops .apply) m.world) ?_ ?_
  · exact ⟨nofun, nofun, nofun, nofun, nofun, nofun, nofun, nofun⟩
  · intro s m' hs hm hmove _
    have hcoordinated := hs.proceeds.coordinated
    have hhanding := hs.handing t
    cases hmove with
    | worker k step =>
      cases k with
      | apply =>
        simp only [Function.update_self]
        refine hm.workerStep_apply hhanding (hcoordinated .apply) (fun hlive => ?_)
          (hs.owing hwal .apply).slot step
        obtain ⟨session, -, htracked⟩ := hs.tracked hwal .apply hlive
        exact ⟨hs.positioned hwal .apply hlive, session, htracked⟩
      | tableSync k =>
        refine (hm.workerStep_sync (hcoordinated (.tableSync k)) ?_ step)
        rintro rfl
        exact hhanding
    | environment action step => exact hm.environment step
    | restart => exact hm.restart
    | idle => exact hm

/-! ## Tables that become `Ready` -/

lemma hasMaterializedDecodingState_iff {state : Option TableDecodingState} :
    hasMaterializedDecodingState state = true ↔ ∃ schema, state = some (.withSchema schema) := by
  rcases state with _ | (_ | _) <;> simp [hasMaterializedDecodingState]

lemma WorkerStep.ready_of_becomes {start : Option Wal} {l l' : ApplyLoop} {w w' : World} {t : TableId}
    (hstep : WorkerStep start l w l' w') (hworker : l.workerType = .apply)
    (hbefore : w.store.getTableState t ≠ some .ready)
    (hafter : w'.store.getTableState t = some .ready) :
    l.live = true ∧ ∃ (syncDoneLsn currentLsn : PgLsn) (payload : Option StoredTableDecodingState)
        (active : Bool),
      canTransitionToReady currentLsn l.checkpointSeen syncDoneLsn
        (hasMaterializedDecodingState (l.tableDecodingStates t)) = true ∧
      if active then w.poolState t = some (.syncDone syncDoneLsn payload)
        else (t, .syncDone syncDoneLsn payload) ∈ l.listed := by
  have hnot := WorkerType.ne_tableSync hworker
  cases hstep
  case loop hstep =>
    cases hstep
    case ready tableId syncDoneLsn currentLsn payload active _ hlive _ _ hcan _ hstate =>
      by_cases ht : t = tableId
      · subst ht
        exact ⟨hlive, syncDoneLsn, currentLsn, payload, active, hcan, hstate⟩
      · simp only [World.promote, Store.getTableState_updateTableState, if_neg ht] at hafter
        exact absurd hafter hbefore
    all_goals first
      | exact absurd ‹l.workerType = .tableSync _› (hnot _)
      | exact absurd hafter hbefore
  case resetForResync =>
    simp [Store.getTableState_resetForResync] at hafter
  all_goals first
    | exact absurd ‹l.workerType = .tableSync _› (hnot _)
    | exact absurd hafter hbefore

/-- When a table becomes `Ready`, the checkpoint of the apply worker has passed its handover and the
connection has a decoder for it. From then on the apply worker starts at or after the handover, and
what it applies to the table comes at or after it. -/
theorem ready_restart_safe {config : Config} {wal : Wal} (hwal : config.wal = some wal) {s : System}
    (hs : s.Reachable config System.AnyStep) (t : TableId) :
    (∀ h payload, s.world.store.getTableState t = some (.syncDone h payload) ∨
      s.world.poolState t = some (.syncDone h payload) → s.world.handover t = some h) ∧
    (∀ input s', s.step config (.turn .apply input) = some s' →
      s.world.store.getTableState t ≠ some .ready → s'.world.store.getTableState t = some .ready →
      ∃ h c schema, s.world.handover t = some h ∧
        s.world.store.replicationCheckpoints .apply = some c ∧ h ≤ c ∧
        (s.memory.loops .apply).tableDecodingStates t = some (.withSchema schema)) ∧
    ((s.memory.loops .apply).phase = .resolved → s.world.store.getTableState t = some .ready →
      ∃ h, s.world.handover t = some h ∧ h ≤ (s.memory.loops .apply).startLsn) ∧
    ∀ lsn ∈ s.world.applied t, ∃ h, s.world.handover t = some h ∧ h ≤ lsn := by
  have hhanding := hs.handing t
  have hanchored := hs.anchored hwal t
  refine ⟨fun h payload hstate => ?_, fun input s' hnext hbefore hafter => ?_,
    fun hphase hready => ?_, hanchored.applied⟩
  · exact hstate.elim (hhanding.store _) (hhanding.pool _)
  · rcases hs.proceeds.turn hnext with hstep | hsame
    · obtain ⟨hlive, h, currentLsn, payload, active, hcan, hstate⟩ :=
        hstep.ready_of_becomes (hs.proceeds.coordinated .apply).workerType hbefore hafter
      have hhandover : s.world.handover t = some h := by
        cases active with
        | true => exact hhanding.pool _ hstate
        | false => exact (hhanding.listed hlive _ _ hstate).1
      simp only [canTransitionToReady, Bool.and_eq_true, decide_eq_true_eq, Option.any_eq_true]
        at hcan
      obtain ⟨⟨hdecoder, -⟩, seen, hseen, hle⟩ := hcan
      obtain ⟨c, hc, hle'⟩ := hanchored.seen hlive seen hseen
      obtain ⟨schema, hschema⟩ := hasMaterializedDecodingState_iff.1 hdecoder
      exact ⟨h, c, schema, hhandover, hc, hle.trans hle', hschema⟩
    · rw [hsame] at hafter
      exact absurd hafter hbefore
  · have hpromoted : s.world.promoted t = true := hhanding.store _ hready
    obtain ⟨h, hhandover⟩ := Option.isSome_iff_exists.1 (hhanding.promoted hpromoted)
    exact ⟨h, hhandover, hanchored.resolved hphase hpromoted h hhandover⟩

def Wal.twice : Wal :=
  ⟨[⟨15, 20, [.insert 1 []], fifteen_lt_twenty, by decide⟩, ⟨25, 30, [.insert 1 []], by decide, by decide⟩],
    by decide⟩

def System.handedOver : System :=
  initial.play (sampleConfig (some .twice))
    [.register 1, .turn .apply { lsn := 5 }, .turn .apply { lsn := 5 },
      .turn .apply { branch := .streamMessage (.ok (.primaryKeepAlive 12 false)) },
      .turn (.tableSync 1) {}, .turn (.tableSync 1) { lsn := 10 }, .turn .apply {},
      .turn (.tableSync 1) {},
      .turn (.tableSync 1) { branch := .streamMessage (.ok (.xLogData 15 15 (.begin 15 0 0))) },
      .turn (.tableSync 1) { branch := .streamMessage (.ok (.xLogData 15 15 (.insert 1 []))) },
      .turn (.tableSync 1) { branch := .streamMessage (.ok (.xLogData 15 20 (.commit 0 15 20 0))) },
      .turn (.tableSync 1) { branch := .flushResult (.ok .durable) }]

def System.followedUp : System :=
  handedOver.play (sampleConfig (some .twice))
    [.turn .apply {},
      .turn .apply { branch := .streamMessage (.ok (.xLogData 15 15 (.begin 15 0 0))) },
      .turn .apply { branch := .streamMessage (.ok (.xLogData 15 15 (.insert 1 []))) },
      .turn .apply { branch := .streamMessage (.ok (.xLogData 15 20 (.commit 0 15 20 0))) },
      .turn .apply { branch := .batchDeadline },
      .turn .apply { branch := .flushResult (.ok .durable) },
      .turn .apply { branch := .streamMessage (.ok (.xLogData 25 25 (.begin 25 0 0))) },
      .turn .apply { branch := .streamMessage (.ok (.xLogData 25 25 (.insert 1 []))) },
      .turn .apply { branch := .streamMessage (.ok (.xLogData 25 30 (.commit 0 25 30 0))) },
      .turn .apply { branch := .batchDeadline }]

def System.almostReady : System :=
  followedUp.round (sampleConfig (some .twice)) .apply { branch := .flushResult (.ok .durable) } 12

lemma System.reachable_followedUp :
    System.followedUp.Reachable (sampleConfig (some .twice)) AnyStep :=
  reachable_play (reachable_play .initial _) _

/-- The table becomes `Ready` with the next step. -/
theorem ready_restart_safe_almostReady :
    ∃ s', System.almostReady.step (System.sampleConfig (some .twice))
        (.turn .apply { branch := .flushResult (.ok .durable) }) = some s' ∧
      s'.world.store.getTableState 1 = some .ready ∧ System.almostReady.world.applied 1 = [25] ∧
      ∃ h c schema, System.almostReady.world.handover 1 = some h ∧
        System.almostReady.world.store.replicationCheckpoints .apply = some c ∧ h ≤ c ∧
        (System.almostReady.memory.loops .apply).tableDecodingStates 1 =
          some (.withSchema schema) := by
  obtain ⟨s', hnext, hready⟩ : ∃ s', System.almostReady.step (System.sampleConfig (some .twice))
      (.turn .apply { branch := .flushResult (.ok .durable) }) = some s' ∧
        s'.world.store.getTableState 1 = some .ready :=
    by simpa [Option.any_eq_true] using (by decide +kernel : ((System.almostReady.step
      (System.sampleConfig (some .twice)) (.turn .apply { branch := .flushResult (.ok .durable) })).any
        fun s' => s'.world.store.getTableState 1 = some .ready) = true)
  refine ⟨s', hnext, hready, by decide +kernel, ?_⟩
  exact (ready_restart_safe rfl (System.reachable_round System.reachable_followedUp 12) 1).2.1 _ _
    hnext (by decide +kernel) hready

/-- In every run, the store, the table's worker and the tables an apply worker has listed give a
handover the same position. The store has none of the states that live in memory only, and while
the worker has not handed over, it has one from which a restart copies the table again. -/
theorem tableState_views_agree {config : Config} {Allowed : Memory → Memory → Prop} {s : System}
    (hs : s.Reachable config Allowed) (t : TableId) {stored : TableState}
    (hstored : s.world.store.getTableState t = some stored) :
    stored.asType.shouldStore = true ∧
      (∀ lsn payload, stored = .syncDone lsn payload → ∀ lsn' payload',
        s.world.poolState t = some (.syncDone lsn' payload') ∨
            (s.memory.loops .apply).live = true ∧
              (t, .syncDone lsn' payload') ∈ (s.memory.loops .apply).listed →
          lsn' = lsn) ∧
      (s.world.isActive t = true → ∀ state, s.world.poolState t = some state →
        state.isPending = true → stored.isCopyable = true) := by
  have hviews := hs.handing t
  refine ⟨hviews.durable stored hstored, ?_, fun hactive state hpool hpending =>
    hviews.copyable hactive state hpool hpending stored hstored⟩
  rintro lsn payload rfl lsn' payload' hother
  have hhandover : s.world.handover t = some lsn := hviews.store _ hstored
  have hother : s.world.handover t = some lsn' := by
    rcases hother with hpool | ⟨hlive, hlisted⟩
    · exact hviews.pool _ hpool
    · exact (hviews.listed hlive lsn' payload' hlisted).1
  exact Option.some.inj (hother.symm.trans hhandover)

theorem tableState_views_agree_followedUp : ∃ stored,
    System.followedUp.world.store.getTableState 1 = some stored ∧
      stored.asType.shouldStore = true := by
  obtain ⟨stored, hstored⟩ := Option.isSome_iff_exists.1
    (by decide +kernel : (System.followedUp.world.store.getTableState 1).isSome = true)
  exact ⟨stored, hstored, (tableState_views_agree System.reachable_followedUp 1 hstored).1⟩

end Etl
