import Etl.Runtime.System

/-!
# A loop and its connection

The transactions that are buffered, the current one and those still to be sent make up the stream
from the start position on, in commit order.
-/

namespace Etl

namespace Wal

def from_ (wal : Wal) (start : PgLsn) : List Transaction := (Session.begin wal start).pending

variable {wal : Wal} {start : PgLsn} {t t' : Transaction}

lemma mem_from_ : t ∈ wal.from_ start ↔ t ∈ wal.transactions ∧ start ≤ t.commitLsn :=
  Session.mem_pending_begin

lemma ordered_from_ (wal : Wal) (start : PgLsn) :
    (wal.from_ start).Pairwise fun a b => a.endLsn ≤ b.commitLsn :=
  wal.ordered.sublist List.filter_sublist

lemma ordered_cases (ht : t ∈ wal.transactions) (ht' : t' ∈ wal.transactions) :
    t = t' ∨ t.endLsn ≤ t'.commitLsn ∨ t'.endLsn ≤ t.commitLsn := by
  let R : Transaction → Transaction → Prop :=
    fun a b => a.endLsn ≤ b.commitLsn ∨ b.endLsn ≤ a.commitLsn
  have : Std.Symm R := ⟨fun _ _ h => h.symm⟩
  have hordered : wal.transactions.Pairwise R := wal.ordered.imp .inl
  by_cases heq : t = t'
  · exact .inl heq
  · exact .inr (hordered.forall ht ht' heq)

lemma eq_of_commitLsn_eq (ht : t ∈ wal.transactions) (ht' : t' ∈ wal.transactions)
    (h : t.commitLsn = t'.commitLsn) : t = t' := by
  have hlt := t.commit_lt_end
  have hlt' := t'.commit_lt_end
  rcases ordered_cases ht ht' with heq | hle | hle
  · exact heq
  · order
  · order

lemma endLsn_le_of_commitLsn_lt (ht : t ∈ wal.transactions) (ht' : t' ∈ wal.transactions)
    (h : t.commitLsn < t'.commitLsn) : t.endLsn ≤ t'.commitLsn := by
  have hlt' := t'.commit_lt_end
  rcases ordered_cases ht ht' with rfl | hle | hle
  · order
  · exact hle
  · order

end Wal

namespace ApplyLoop

variable {l l' : ApplyLoop} {w w' : World} {wal : Wal} {session : Session}

def committing (l : ApplyLoop) : List PgLsn :=
  match l.handling with
  | some (.commit _ commitLsn _ _) => [commitLsn]
  | _ => []

structure Tracked (wal : Wal) (session : Session) (l : ApplyLoop) : Prop where
  /-- Every transaction has been committed, is being committed, or is still to come. -/
  stream : ∃ sent, wal.from_ l.startLsn = sent ++ session.pending ∧
    sent.map (·.commitLsn) = committedOf l.produced ++ l.committing
  /-- Inside a transaction the server has it open, or its COMMIT is in hand. -/
  inside : ∀ lsn, l.tx = some lsn → session.openTx = none ∧ l.committing = [lsn] ∨
    session.openTx.isSome ∧ l.committing = [] ∧
      ∃ t rest, session.pending = t :: rest ∧ t.commitLsn = lsn
  outside : l.tx = none → session.openTx = none ∧ l.committing = []
  received : ∀ t ∈ session.pending, l.state.progress.lastReceivedLsn ≤ t.commitLsn
  /-- The transaction of the COMMIT in hand ends where the message says. -/
  commit : ∀ flags commitLsn endLsn timestamp,
    l.handling = some (.commit flags commitLsn endLsn timestamp) →
      endLsn ≤ l.state.progress.lastReceivedLsn ∧
        ∃ t ∈ wal.transactions, t.commitLsn = commitLsn ∧ t.endLsn = endLsn
  /-- Nothing is produced outside a transaction. -/
  produced : ∀ p ∈ l.produced, ∃ lsn, p.tx = some lsn ∧
    (lsn ∈ committedOf l.produced ∨ l.tx = some lsn)
  /-- Nothing is produced for a transaction after its COMMIT. -/
  closed : l.produced.Pairwise fun q p => ∀ lsn, q.event.committed? = some lsn → p.tx ≠ some lsn
  /-- What has been committed has been received. -/
  committed : ∀ t ∈ wal.transactions, t.commitLsn ∈ committedOf l.produced →
    t.endLsn ≤ l.state.progress.lastReceivedLsn

lemma tracked_startLoop (l : ApplyLoop) (startLsn : PgLsn)
    (decoders : TableId → Option TableDecodingState) (target : PgLsn) :
    Tracked wal (Session.begin wal startLsn) (l.startLoop (some wal) startLsn decoders target) where
  stream := ⟨[], rfl, rfl⟩
  inside _ h := nomatch h
  outside _ := ⟨rfl, rfl⟩
  received _ ht := (Session.mem_pending_begin.1 ht).2
  commit _ _ _ _ h := nomatch h
  produced _ h := nomatch h
  closed := .nil
  committed _ _ h := nomatch h

namespace Tracked

variable {t : Transaction}

lemma pending_subset (h : Tracked wal session l) (ht : t ∈ session.pending) :
    t ∈ wal.transactions ∧ l.startLsn ≤ t.commitLsn := by
  obtain ⟨sent, hstream, -⟩ := h.stream
  exact Wal.mem_from_.1 (hstream ▸ List.mem_append_right _ ht)

lemma pending_or_open (h : Tracked wal session l) (ht : t ∈ wal.transactions)
    (hstart : l.startLsn ≤ t.commitLsn) (hnot : t.commitLsn ∉ committedOf l.produced) :
    t ∈ session.pending ∨ l.tx = some t.commitLsn ∧ l.committing = [t.commitLsn] := by
  obtain ⟨sent, hstream, hsent⟩ := h.stream
  rcases List.mem_append.1 (hstream ▸ Wal.mem_from_.2 ⟨ht, hstart⟩) with hmem | hmem
  · right
    have hmap : t.commitLsn ∈ committedOf l.produced ++ l.committing :=
      hsent ▸ List.mem_map_of_mem hmem
    have hcommitting := (List.mem_append.1 hmap).resolve_left hnot
    cases htx : l.tx with
    | none =>
      rw [(h.outside htx).2] at hcommitting
      cases hcommitting
    | some lsn =>
      rcases h.inside lsn htx with ⟨-, hc⟩ | ⟨-, hc, -⟩
      · rw [hc, List.mem_singleton] at hcommitting
        exact ⟨by rw [hcommitting], by rw [hc, hcommitting]⟩
      · rw [hc] at hcommitting
        cases hcommitting
  · exact .inl hmem

lemma endLsn_le_of_sent (h : Tracked wal session l) {t' : Transaction}
    (ht : t ∈ wal.transactions) (hsent : t.commitLsn ∈ committedOf l.produced ++ l.committing)
    (hpending : t' ∈ session.pending) : t.endLsn ≤ t'.commitLsn := by
  obtain ⟨sent, hstream, hmap⟩ := h.stream
  rw [← hmap] at hsent
  obtain ⟨t₀, ht₀, heq⟩ := List.mem_map.1 hsent
  have hord := wal.ordered_from_ l.startLsn
  rw [hstream] at hord
  have hmem₀ : t₀ ∈ wal.transactions :=
    (Wal.mem_from_.1 (hstream ▸ List.mem_append_left _ ht₀)).1
  rw [← Wal.eq_of_commitLsn_eq hmem₀ ht heq]
  exact (List.pairwise_append.1 hord).2.2 t₀ ht₀ t' hpending

lemma endLsn_le_of_committing (h : Tracked wal session l) {t' : Transaction}
    (ht : t ∈ wal.transactions) (ht' : t' ∈ wal.transactions)
    (hcommitted : t.commitLsn ∈ committedOf l.produced) (hcommitting : t'.commitLsn ∈ l.committing) :
    t.endLsn ≤ t'.commitLsn := by
  obtain ⟨sent, hstream, hmap⟩ := h.stream
  have hord := (List.pairwise_append.1 (hstream ▸ wal.ordered_from_ l.startLsn)).1
  have hlsns : (sent.map (·.commitLsn)).Pairwise (· < ·) :=
    List.pairwise_map.2 (hord.imp fun h => lt_of_lt_of_le (Transaction.commit_lt_end _) h)
  rw [hmap] at hlsns
  exact Wal.endLsn_le_of_commitLsn_lt ht ht'
    ((List.pairwise_append.1 hlsns).2.2 _ hcommitted _ hcommitting)

lemma not_committed_of_pending (h : Tracked wal session l)
    (ht : t ∈ session.pending) : t.commitLsn ∉ committedOf l.produced ++ l.committing := fun hmem =>
  absurd (h.endLsn_le_of_sent (h.pending_subset ht).1 hmem ht) (not_le.2 t.commit_lt_end)

lemma received_le (h : Tracked wal session l) {walStart walEnd : PgLsn}
    (hstart : ∀ t ∈ session.pending, walStart ≤ t.commitLsn)
    (hend : ∀ t ∈ session.pending, walEnd ≤ t.commitLsn) :
    ∀ t ∈ session.pending,
      max (max l.state.progress.lastReceivedLsn walStart) walEnd ≤ t.commitLsn := fun t ht =>
  max_le (max_le (h.received t ht) (hstart t ht)) (hend t ht)

lemma receive_inner (h : Tracked wal session l) (hrest : l.AtRest) {session' : Session}
    (hpending : session'.pending = session.pending)
    (hopen : session'.openTx.isSome = session.openTx.isSome) {walStart walEnd : PgLsn}
    {data : LogicalReplicationMessage} (hinner : data.isBoundary = false)
    (hstart : ∀ t ∈ session.pending, walStart ≤ t.commitLsn)
    (hend : ∀ t ∈ session.pending, walEnd ≤ t.commitLsn) :
    Tracked wal session' (l.receive (.xLogData walStart walEnd data)) := by
  have hcommitting : (l.receive (.xLogData walStart walEnd data)).committing = l.committing := by
    simp only [committing, hrest.handling]
    cases data <;> first | rfl | cases hinner
  have htx : (l.receive (.xLogData walStart walEnd data)).tx = l.tx := by
    cases data <;> first | rfl | cases hinner
  have hnone : session'.openTx = none ↔ session.openTx = none := by
    cases hs : session.openTx <;> cases hs' : session'.openTx <;> simp [hs, hs'] at hopen ⊢
  exact
    { stream := by
        rw [hpending, hcommitting]
        exact h.stream
      inside := by
        rw [htx, hpending, hopen, hcommitting, hnone]
        exact h.inside
      outside := by
        rw [htx, hcommitting, hnone]
        exact h.outside
      received := by
        rw [hpending]
        exact h.received_le hstart hend
      commit := by
        rintro flags commitLsn endLsn timestamp ⟨⟩
        cases hinner
      produced := by
        rw [htx]
        exact h.produced
      closed := h.closed
      committed := fun t ht hmem => (h.committed t ht hmem).trans
        ((le_max_left _ _).trans (le_max_left _ _)) }

lemma receive (h : Tracked wal session l) (hrest : l.AtRest) {m : ReplicationMessage}
    {session' : Session} (hdeliver : session.Delivers m session') :
    Tracked wal session' (l.receive m) := by
  have hcommitting : l.committing = [] := by simp [committing, hrest.handling]
  cases hdeliver with
  | keepAlive reach =>
    exact
      { stream := by
          have hstream := h.stream
          rw [hcommitting] at hstream
          exact hstream
        inside := fun lsn htx => (h.inside lsn htx).imp
          (fun hc => absurd (hcommitting.symm.trans hc.2) (by simp)) (fun hc => ⟨hc.1, rfl, hc.2.2⟩)
        outside := fun htx => ⟨(h.outside htx).1, rfl⟩
        received := fun t ht => max_le (h.received t ht) (reach t ht)
        commit := nofun
        produced := h.produced
        closed := h.closed
        committed := fun t ht hmem => (h.committed t ht hmem).trans (le_max_left _ _) }
  | @begin walStart walEnd timestamp xid t rest pending closed reachStart reachEnd =>
    have htx : l.tx = none := by
      by_contra hsome
      obtain ⟨lsn, hlsn⟩ := Option.ne_none_iff_exists'.1 hsome
      rcases h.inside lsn hlsn with ⟨-, hc⟩ | ⟨hopen, -⟩
      · rw [hcommitting] at hc
        cases hc
      · rw [closed] at hopen
        cases hopen
    exact
      { stream := by
          have hstream := h.stream
          rw [hcommitting, pending] at hstream
          exact hstream
        inside := by
          rintro lsn ⟨⟩
          exact .inr ⟨rfl, rfl, t, rest, rfl, rfl⟩
        outside := nofun
        received := pending ▸ h.received_le reachStart reachEnd
        commit := nofun
        produced := fun p hp => by
          obtain ⟨lsn, hlsn, hmem⟩ := h.produced p hp
          refine ⟨lsn, hlsn, .inl (hmem.resolve_right ?_)⟩
          rw [htx]
          nofun
        closed := h.closed
        committed := fun t ht hmem => (h.committed t ht hmem).trans
          ((le_max_left _ _).trans (le_max_left _ _)) }
  | @commit walStart timestamp flags t rest pending opened reachStart =>
    have hmem : t ∈ session.pending := pending ▸ List.mem_cons_self
    have htx : l.tx = some t.commitLsn := by
      cases hlsn : l.tx with
      | none =>
        rw [(h.outside hlsn).1] at opened
        cases opened
      | some lsn =>
        rcases h.inside lsn hlsn with ⟨hclosed, -⟩ | ⟨-, -, t₀, rest₀, hpending, rfl⟩
        · rw [hclosed] at opened
          cases opened
        · rw [pending] at hpending
          cases hpending
          rfl
    obtain ⟨sent, hstream, hsent⟩ := h.stream
    have hlast : max (max l.state.progress.lastReceivedLsn walStart) t.endLsn = t.endLsn := by
      have hlt := t.commit_lt_end
      have hle := h.received t hmem
      rw [max_eq_right]
      exact max_le (by order) reachStart
    exact
      { stream := by
          refine ⟨sent ++ [t], hstream.trans (by simp [pending]), ?_⟩
          rw [List.map_append, hsent, hcommitting, List.append_nil]
          rfl
        inside := by
          intro lsn hlsn
          obtain rfl : t.commitLsn = lsn := Option.some.inj (htx.symm.trans hlsn)
          exact .inl ⟨rfl, rfl⟩
        outside := fun hnone => nomatch htx.symm.trans hnone
        received := fun t' ht' => by
          have hord := wal.ordered_from_ l.startLsn
          rw [hstream, pending] at hord
          have hle := (List.pairwise_cons.1 (List.pairwise_append.1 hord).2.1).1 t' ht'
          exact hlast.trans_le hle
        commit := by
          rintro _ _ _ _ ⟨⟩
          exact ⟨hlast.ge, t, (h.pending_subset hmem).1, rfl, rfl⟩
        produced := h.produced
        closed := h.closed
        committed := fun t' ht' hmem' => (h.committed t' ht' hmem').trans
          ((le_max_left _ _).trans (le_max_left _ _)) }
  | @change walStart walEnd data rest hchange opened reachStart reachEnd =>
    let session' : Session := { session with openTx := some rest }
    have hpending : session'.pending = session.pending := rfl
    have hopen : session'.openTx.isSome = session.openTx.isSome := by simp [session', opened]
    refine h.receive_inner hrest hpending hopen ?_ reachStart reachEnd
    cases data <;> first | rfl | cases hchange
  | @auxiliary walStart walEnd data isOpen relation reachStart reachEnd =>
    refine h.receive_inner hrest rfl rfl ?_ reachStart reachEnd
    rcases relation with hmem | ⟨b, rfl⟩
    · simp only [List.mem_cons, List.not_mem_nil, or_false] at hmem
      rcases hmem with rfl | rfl <;> rfl
    · rfl
  | foreign closed foreignTag reachStart reachEnd =>
    exact h.receive_inner hrest rfl rfl rfl reachStart reachEnd

variable {lsn : PgLsn}

lemma not_committed_of_open (h : Tracked wal session l) (htx : l.tx = some lsn) :
    lsn ∉ committedOf l.produced := by
  intro hmem
  rcases h.inside lsn htx with ⟨-, hcommitting⟩ | ⟨-, -, t, rest, hpending, rfl⟩
  · obtain ⟨sent, hstream, hmap⟩ := h.stream
    obtain ⟨t, ht, rfl⟩ := List.mem_map.1 (hmap ▸ List.mem_append_left l.committing hmem)
    have ht' := (Wal.mem_from_.1 (hstream ▸ List.mem_append_left session.pending ht)).1
    exact absurd (h.endLsn_le_of_committing ht' ht' hmem (by simp [hcommitting]))
      (not_le.2 t.commit_lt_end)
  · exact h.not_committed_of_pending (t := t) (by simp [hpending]) (List.mem_append_left _ hmem)

lemma exists_of_open (h : Tracked wal session l) (htx : l.tx = some lsn) :
    ∃ t ∈ wal.transactions, t.commitLsn = lsn ∧ l.startLsn ≤ lsn := by
  rcases h.inside lsn htx with ⟨-, hcommitting⟩ | ⟨-, -, t, rest, hpending, rfl⟩
  · obtain ⟨sent, hstream, hmap⟩ := h.stream
    have hmem : lsn ∈ sent.map (·.commitLsn) := by
      rw [hmap, hcommitting]
      simp
    obtain ⟨t, ht, rfl⟩ := List.mem_map.1 hmem
    obtain ⟨hwal, hstart⟩ := Wal.mem_from_.1 (hstream ▸ List.mem_append_left session.pending ht)
    exact ⟨t, hwal, rfl, hstart⟩
  · obtain ⟨hwal, hstart⟩ := h.pending_subset (t := t) (by simp [hpending])
    exact ⟨t, hwal, rfl, hstart⟩

lemma startLsn_le_of_open (h : Tracked wal session l) (htx : l.tx = some lsn) :
    l.startLsn ≤ lsn := by
  obtain ⟨_, -, -, hstart⟩ := h.exists_of_open htx
  exact hstart

variable {p : Produced}

lemma closed_push (h : Tracked wal session l) (htx : p.tx = l.tx) (x : Inert) :
    (l.push p x).produced.Pairwise fun q p => ∀ lsn, q.event.committed? = some lsn →
      p.tx ≠ some lsn := by
  refine List.pairwise_append.2 ⟨h.closed, List.pairwise_singleton _ _, ?_⟩
  intro q hq p' hp' lsn hlsn hsame
  rw [List.mem_singleton.1 hp', htx] at hsame
  exact h.not_committed_of_open hsame (List.mem_filterMap.2 ⟨q, hq, hlsn⟩)

lemma committing_eq_nil {data : LogicalReplicationMessage} (hhandling : l.handling = some data)
    (hdata : ∀ flags commitLsn endLsn timestamp, data ≠ .commit flags commitLsn endLsn timestamp) :
    l.committing = [] := by
  simp only [committing, hhandling]
  cases data <;> first | rfl | exact absurd rfl (hdata _ _ _ _)

lemma push_inner (h : Tracked wal session l) {x : Inert}
    (hcommitting : l.committing = []) (htx : p.tx = l.tx) (hinside : l.tx.isSome)
    (hnone : p.event.committed? = none) : Tracked wal session (l.push p x) := by
  have hcommitted : committedOf (l.push p x).produced = committedOf l.produced := by
    simp [ApplyLoop.push, committedOf, hnone]
  have htx' : (l.push p x).tx = l.tx := by simp [ApplyLoop.push, hnone]
  exact
    { stream := by
        rw [hcommitted]
        have hstream := h.stream
        rw [hcommitting] at hstream
        exact hstream
      inside := fun lsn hlsn => by
        have hin := h.inside lsn (htx' ▸ hlsn)
        rw [hcommitting] at hin
        exact hin
      outside := fun hnone' => by
        rw [htx'] at hnone'
        rw [hnone'] at hinside
        cases hinside
      received := h.received
      commit := by rintro _ _ _ _ ⟨⟩
      produced := fun q hq => by
        rw [hcommitted, htx']
        rcases List.mem_append.1 hq with hq | hq
        · exact h.produced q hq
        · rw [List.mem_singleton.1 hq, htx]
          obtain ⟨lsn, hlsn⟩ := Option.isSome_iff_exists.1 hinside
          exact ⟨lsn, hlsn, .inr hlsn⟩
      closed := h.closed_push htx x
      committed := by
        rw [hcommitted]
        exact h.committed }

lemma push_commit (h : Tracked wal session l) {x : Inert} {flags timestamp : Int}
    {endLsn : PgLsn} (hhandling : l.handling = some (.commit flags lsn endLsn timestamp))
    (hp : p.tx = l.tx) (htx : l.tx = some lsn) (hevent : p.event.committed? = some lsn) :
    Tracked wal session (l.push p x) := by
  have hcommitting : l.committing = [lsn] := by simp [committing, hhandling]
  have hcommitted : committedOf (l.push p x).produced = committedOf l.produced ++ [lsn] := by
    simp [ApplyLoop.push, committedOf, hevent]
  have hopen : session.openTx = none := by
    rcases h.inside lsn htx with ⟨hopen, -⟩ | ⟨-, hnil, -⟩
    · exact hopen
    · rw [hcommitting] at hnil
      cases hnil
  obtain ⟨hreceived, t, ht, hlsn, hend⟩ := h.commit _ _ _ _ hhandling
  exact
    { stream := by
        obtain ⟨sent, hstream, hsent⟩ := h.stream
        refine ⟨sent, hstream, ?_⟩
        rw [hsent, hcommitted, hcommitting]
        exact (List.append_nil _).symm
      inside := by simp [ApplyLoop.push, hevent]
      outside := fun _ => ⟨hopen, rfl⟩
      received := h.received
      commit := by rintro _ _ _ _ ⟨⟩
      produced := fun q hq => by
        rw [hcommitted]
        rcases List.mem_append.1 hq with hq | hq
        · obtain ⟨c, hc, hmem | hmem⟩ := h.produced q hq
          · exact ⟨c, hc, .inl (List.mem_append_left _ hmem)⟩
          · rw [htx] at hmem
            cases hmem
            exact ⟨lsn, hc, .inl (by simp)⟩
        · rw [List.mem_singleton.1 hq, hp]
          exact ⟨lsn, htx, .inl (by simp)⟩
      closed := h.closed_push hp x
      committed := fun t' ht' hmem => by
        rw [hcommitted] at hmem
        rcases List.mem_append.1 hmem with hmem | hmem
        · exact h.committed t' ht' hmem
        · rw [Wal.eq_of_commitLsn_eq ht' ht ((List.mem_singleton.1 hmem).trans hlsn.symm), hend]
          exact hreceived }

lemma step (h : Tracked wal session l) (hsession : l.session = some session)
    (hstep : LoopStep l w l' w') : ∃ session', l'.session = some session' ∧ Tracked wal session' l' := by
  cases hstep with
  | receive m _ _ hrest haccepted =>
    simp only [accepts, hsession] at haccepted
    obtain ⟨session', hdeliver⟩ := Option.isSome_iff_exists.1 haccepted
    exact ⟨session', by simp [ApplyLoop.receive, sessionAfter, hsession, hdeliver],
      h.receive hrest (Session.delivers_of_deliver hdeliver)⟩
  | push p x _ hsource htx hinside _ _ _ _ hbegins hbegun hcommitted =>
    refine ⟨session, hsession, ?_⟩
    cases hevent : p.event.committed? with
    | some lsn =>
      obtain ⟨htx', -, flags, endLsn, timestamp, hsrc, -⟩ := hcommitted lsn hevent
      exact h.push_commit (hsource.trans (congrArg some hsrc)) htx htx' hevent
    | none =>
      refine h.push_inner (committing_eq_nil hsource ?_) htx hinside hevent
      intro flags commitLsn endLsn timestamp hsrc
      rcases hbegins (by rw [hsrc]; rfl) with hb | hb
      · obtain ⟨lsn, hlsn⟩ := Option.isSome_iff_exists.1 hb
        obtain ⟨-, _, _, hsrc'⟩ := hbegun lsn hlsn
        rw [hsrc] at hsrc'
        cases hsrc'
      · rw [hevent] at hb
        cases hb
  | skip data hhandling _ hinner =>
    have hcommitting : l.committing = [] := by
      refine committing_eq_nil hhandling ?_
      rintro _ _ _ _ rfl
      cases hinner
    refine ⟨session, hsession, ?_, ?_, fun htx => ⟨(h.outside htx).1, rfl⟩, h.received, nofun,
      h.produced, h.closed, h.committed⟩
    · have hstream := h.stream
      rw [hcommitting] at hstream
      exact hstream
    · have hinside := h.inside
      rw [hcommitting] at hinside
      exact hinside
  | _ =>
    exact ⟨session, hsession, h.stream, h.inside, h.outside, h.received, h.commit, h.produced,
      h.closed, h.committed⟩

end Tracked

end ApplyLoop

lemma System.Reachable.tracked {config : Config} {wal : Wal} (hwal : config.wal = some wal)
    {Allowed : Memory → Memory → Prop} {s : System} (hs : s.Reachable config Allowed)
    (worker : WorkerType) (hlive : (s.memory.loops worker).live = true) :
    ∃ session, (s.memory.loops worker).session = some session ∧
      ApplyLoop.Tracked wal session (s.memory.loops worker) := by
  refine hs.loop_invariant (J := fun l => l.live = true → ∃ session, l.session = some session ∧
    ApplyLoop.Tracked wal session l) worker (fun _ h => nomatch h) ?_ ?_ ?_ hlive
  · intro l startLsn decoders target _
    rw [hwal]
    exact ⟨_, rfl, l.tracked_startLoop startLsn decoders target⟩
  · intro s worker l' w' _ hinv hstep hlive'
    obtain ⟨session, hsession, h⟩ := hinv (hstep.live_of_live hlive')
    exact h.step hsession hstep
  · rintro l _ hinv ⟨live, phase, attempts, startLsn, copySchema, hlive, rfl⟩ hlive'
    obtain ⟨hbefore, rfl⟩ := hlive hlive'
    obtain ⟨session, hsession, h⟩ := hinv hbefore
    exact ⟨session, hsession, h.stream, h.inside, h.outside, h.received, h.commit, h.produced,
      h.closed, h.committed⟩

end Etl
