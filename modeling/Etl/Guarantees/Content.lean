import Etl.Guarantees.Tracking

/-!
# What a loop makes of a transaction

Each event belongs to one change of one transaction, at a place and with a sequence key that depend
on the transaction alone. A table-sync loop skips no change of its table.
-/

namespace Etl

open ApplyLoop

def LogicalReplicationMessage.isBegin : LogicalReplicationMessage → Bool
  | .begin .. => true
  | _ => false

namespace Produced

def rank (p : Produced) (t : Transaction) : Nat :=
  if p.source.isBegin then 0 else 1 + (t.changes.take p.index).countP (·.isKeyed)

structure Of (p : Produced) (t : Transaction) : Prop where
  tx : p.tx = some t.commitLsn
  place : p.source.isChange = true → t.changes[p.index]? = some p.source
  keyed : p.event.eventSequenceKey?.isSome = p.source.isKeyed
  key : ∀ key, p.event.eventSequenceKey? = some key →
    key = ⟨t.commitLsn, min (p.rank t) (2 ^ 64 - 1)⟩

end Produced

namespace ApplyLoop

variable {l l' : ApplyLoop} {w w' : World} {wal : Wal} {session session' : Session} {t : Transaction}

def inHand (l : ApplyLoop) : List LogicalReplicationMessage :=
  l.handling.toList.filter (·.isChange)

structure Within (session : Session) (l : ApplyLoop) (t : Transaction) : Prop where
  changes : l.txMessages.filter (·.isChange) ++ l.inHand ++ session.openTx.getD [] = t.changes
  fresh : l.handling.any (·.isBegin) = true → l.txMessages = []
  counted : l.txMessages.countP (·.isKeyed) = (if l.handling.any (·.isBegin) then 0 else 1) +
    (l.txMessages.filter (·.isChange)).countP (·.isKeyed)

structure Recorded (wal : Wal) (l : ApplyLoop) : Prop where
  of : ∀ p ∈ l.produced, ∃ t ∈ wal.transactions, p.Of t
  ordered : l.produced.Pairwise fun q p => ∀ a b, q.tx = some a → p.tx = some b → a ≤ b
  increasing : l.produced.Pairwise fun q p => q.source.isKeyed = true → p.source.isKeyed = true →
    ∀ t ∈ wal.transactions, q.tx = some t.commitLsn → p.tx = some t.commitLsn → q.rank t < p.rank t
  /-- A table-sync loop produces an event for each change of its table. -/
  kept : ∀ tableId, l.workerType = .tableSync tableId → ∀ t ∈ wal.transactions,
    t.commitLsn ∈ committedOf l.produced → ∀ i data, t.changes[i]? = some data →
      data.touches tableId = true →
        ∃ p ∈ l.produced, p.tx = some t.commitLsn ∧ p.index = i ∧ p.source = data

structure Content (wal : Wal) (session : Session) (l : ApplyLoop) : Prop where
  within : ∀ lsn, l.tx = some lsn → ∃ t ∈ wal.transactions, t.commitLsn = lsn ∧ Within session l t
  below : ∀ q ∈ l.produced, q.source.isKeyed = true → ∀ t ∈ wal.transactions,
    l.tx = some t.commitLsn → q.tx = some t.commitLsn → q.rank t < l.txMessages.countP (·.isKeyed)
  kept : ∀ tableId, l.workerType = .tableSync tableId → ∀ lsn, l.tx = some lsn → ∀ i data,
    (l.txMessages.filter (·.isChange))[i]? = some data → data.touches tableId = true →
      ∃ p ∈ l.produced, p.tx = some lsn ∧ p.index = i ∧ p.source = data

variable {data : LogicalReplicationMessage}

lemma countP_isKeyed (h : data.isBoundary = false ∨ data.isBegin = true) :
    [data].countP (·.isKeyed) = (if data.isBegin then 1 else 0) +
      ([data].filter (·.isChange)).countP (·.isKeyed) := by
  cases data <;> first | rfl | simp [LogicalReplicationMessage.isBoundary, LogicalReplicationMessage.isBegin] at h

lemma Within.handle (h : Within session l t)
    (hhandling : l.handling = some data) (hdata : data.isBoundary = false ∨ data.isBegin = true) :
    Within session (l.handle data) t := by
  have hhand : l.inHand = [data].filter (·.isChange) := by simp [inHand, hhandling]
  constructor
  · have hchanges := h.changes
    rw [hhand] at hchanges
    simpa [ApplyLoop.handle, inHand] using hchanges
  · exact nofun
  · have hcounted := h.counted
    have hkeyed := countP_isKeyed hdata
    simp only [hhandling, Option.any_some] at hcounted
    simp only [ApplyLoop.handle, List.countP_append, List.filter_append, Option.any_none,
      Bool.false_eq_true, if_false]
    split_ifs at hcounted hkeyed <;> omega

lemma Within.place (h : Within session l t)
    (hhandling : l.handling = some data) (hchange : data.isChange = true) :
    t.changes[l.txMessages.countP (·.isChange)]? = some data := by
  rw [← h.changes, List.countP_eq_length_filter]
  simp [inHand, hhandling, hchange]

lemma Within.take (h : Within session l t) :
    t.changes.take (l.txMessages.countP (·.isChange)) = l.txMessages.filter (·.isChange) := by
  rw [← h.changes, List.countP_eq_length_filter, List.append_assoc, List.take_left]

lemma Within.of (h : Within session l t) {p : Produced} (hsource : l.handling = some p.source)
    (htx : p.tx = some t.commitLsn) (hindex : p.index = l.txMessages.countP (·.isChange))
    (hkeyed : p.event.eventSequenceKey?.isSome = p.source.isKeyed)
    (hkey : ∀ key, p.event.eventSequenceKey? = some key →
      p.tx = some key.commitLsn ∧ key.txOrdinal = ordinalAfter l.txMessages) :
    p.rank t = l.txMessages.countP (·.isKeyed) ∧ p.Of t := by
  have hrank : p.rank t = l.txMessages.countP (·.isKeyed) := by
    have hcounted := h.counted
    have hfresh := h.fresh
    rw [hsource, Option.any_some] at hcounted hfresh
    unfold Produced.rank
    split_ifs with hbegin
    · simp [hfresh hbegin]
    · rw [hindex, h.take, hcounted, if_neg hbegin]
  refine ⟨hrank, htx, fun hchange => hindex ▸ h.place hsource hchange, hkeyed, fun key hk => ?_⟩
  obtain ⟨hcommit, hordinal⟩ := hkey key hk
  rw [htx] at hcommit
  rw [hrank]
  cases key
  simp_all [ordinalAfter]

lemma Within.receive_data (h : Within session l t) (hhandling : l.handling = none)
    {walStart walEnd : PgLsn} (hdata : data.isBegin = false)
    (hopen : session.openTx.getD [] = [data].filter (·.isChange) ++ session'.openTx.getD []) :
    Within session' (l.receive (.xLogData walStart walEnd data)) t := by
  have hmessages : (l.receive (.xLogData walStart walEnd data)).txMessages = l.txMessages := by
    cases data <;> first | rfl | cases hdata
  have hchanges := h.changes
  have hcounted := h.counted
  simp only [inHand, hhandling, Option.toList_none, List.filter_nil, List.append_nil] at hchanges
  rw [hopen, ← List.append_assoc] at hchanges
  rw [hhandling] at hcounted
  refine ⟨?_, fun hbegin => ?_, ?_⟩
  · rw [hmessages]
    exact hchanges
  · rw [show (l.receive (.xLogData walStart walEnd data)).handling = some data from rfl,
      Option.any_some, hdata] at hbegin
    cases hbegin
  · rw [hmessages, show (l.receive (.xLogData walStart walEnd data)).handling = some data from rfl,
      Option.any_some, hdata]
    exact hcounted

lemma Within.receive (h : Within session l t) (hhandling : l.handling = none)
    {m : ReplicationMessage} (hdeliver : session.Delivers m session')
    (hopen : session.openTx.isSome) : Within session' (l.receive m) t := by
  cases hdeliver with
  | keepAlive =>
    have hchanges := h.changes
    have hcounted := h.counted
    rw [hhandling] at hcounted
    refine ⟨?_, nofun, hcounted⟩
    rw [inHand, hhandling] at hchanges
    exact hchanges
  | begin hpending hclosed => simp [hclosed] at hopen
  | commit hpending hopened => exact h.receive_data hhandling rfl (by rw [hopened]; rfl)
  | @change _ _ data rest hchange hopened =>
    refine h.receive_data hhandling ?_ (by simp [hopened, hchange])
    cases data <;> first | rfl | cases hchange
  | @auxiliary _ _ data hisOpen hdata =>
    have hnot : data.isBegin = false ∧ data.isChange = false := by
      rcases hdata with hdata | ⟨b, rfl⟩
      · simp only [List.mem_cons, List.not_mem_nil, or_false] at hdata
        rcases hdata with rfl | rfl <;> exact ⟨rfl, rfl⟩
      · exact ⟨rfl, rfl⟩
    exact h.receive_data hhandling hnot.1 (by simp [hnot.2])
  | foreign hclosed => simp [hclosed] at hopen

lemma Tracked.isSome_openTx (h : Tracked wal session l) (hhandling : l.handling = none)
    {lsn : PgLsn} (htx : l.tx = some lsn) : session.openTx.isSome := by
  rcases h.inside lsn htx with ⟨-, hcommitting⟩ | ⟨hopen, -⟩
  · simp [committing, hhandling] at hcommitting
  · exact hopen

lemma Tracked.tx_receive (h : Tracked wal session l) (hsession : l.session = some session)
    (hhandling : l.handling = none) {m : ReplicationMessage} (haccepted : l.accepts m = true)
    {lsn : PgLsn} (htx : l.tx = some lsn) : (l.receive m).tx = some lsn := by
  have hopen := h.isSome_openTx hhandling htx
  simp only [accepts, hsession] at haccepted
  obtain ⟨session', hdeliver⟩ := Option.isSome_iff_exists.1 haccepted
  cases Session.delivers_of_deliver hdeliver with
  | begin _ hclosed => simp [hclosed] at hopen
  | @change _ _ data _ hchange => cases data <;> first | exact htx | cases hchange
  | @auxiliary _ _ data _ hdata =>
    rcases hdata with hdata | ⟨body, rfl⟩
    · simp only [List.mem_cons, List.not_mem_nil, or_false] at hdata
      rcases hdata with rfl | rfl <;> exact htx
    · exact htx
  | _ => exact htx

lemma Tracked.lt_of_open (h : Tracked wal session l) {a b : PgLsn}
    (ha : a ∈ committedOf l.produced) (hb : l.tx = some b) : a < b := by
  obtain ⟨sent, hstream, hmap⟩ := h.stream
  obtain ⟨t, ht, rfl⟩ := List.mem_map.1 (hmap ▸ List.mem_append_left l.committing ha)
  have htwal := (Wal.mem_from_.1 (hstream ▸ List.mem_append_left session.pending ht)).1
  rcases h.inside b hb with ⟨-, hcommitting⟩ | ⟨-, -, t', rest, hpending, rfl⟩
  · have hmem : b ∈ sent.map (·.commitLsn) := by
      rw [hmap, hcommitting]
      simp
    obtain ⟨t', ht', rfl⟩ := List.mem_map.1 hmem
    have htwal' := (Wal.mem_from_.1 (hstream ▸ List.mem_append_left session.pending ht')).1
    exact t.commit_lt_end.trans_le (h.endLsn_le_of_committing htwal htwal' ha (by simp [hcommitting]))
  · exact t.commit_lt_end.trans_le
      (h.endLsn_le_of_sent htwal (List.mem_append_left _ ha) (by simp [hpending]))

namespace Content

lemma receive_inner (h : Content wal session l) (htracked : Tracked wal session l)
    (hhandling : l.handling = none) {m : ReplicationMessage} (hdeliver : session.Delivers m session')
    (htx : (l.receive m).tx = l.tx) (hmessages : (l.receive m).txMessages = l.txMessages) :
    Content wal session' (l.receive m) := by
  refine ⟨?_, ?_, ?_⟩
  · intro lsn hlsn
    rw [htx] at hlsn
    obtain ⟨t, ht, hcommit, hwithin⟩ := h.within lsn hlsn
    exact ⟨t, ht, hcommit, hwithin.receive hhandling hdeliver (htracked.isSome_openTx hhandling hlsn)⟩
  · rw [htx, hmessages]
    exact h.below
  · rw [htx, hmessages]
    exact h.kept

lemma receive (h : Content wal session l) (htracked : Tracked wal session l)
    (hhandling : l.handling = none) {m : ReplicationMessage}
    (hdeliver : session.Delivers m session') : Content wal session' (l.receive m) := by
  have hinner := h.receive_inner htracked hhandling hdeliver
  cases hdeliver with
  | @begin _ _ _ _ t rest hpending hclosed =>
    have hmem : t ∈ session.pending := by simp [hpending]
    have hnone : l.tx = none := by
      by_contra htx
      obtain ⟨lsn, htx⟩ := Option.ne_none_iff_exists'.1 htx
      simpa [hclosed] using htracked.isSome_openTx hhandling htx
    refine ⟨?_, ?_, ?_⟩
    · rintro lsn ⟨⟩
      exact ⟨t, (htracked.pending_subset hmem).1, rfl, rfl, fun _ => rfl, rfl⟩
    · intro q hq _ t' _ htx hqtx
      -- nothing has been produced for the transaction yet
      have hcommit : t.commitLsn = t'.commitLsn := Option.some.inj htx
      obtain ⟨lsn, hlsn, hcommitted | hopen⟩ := htracked.produced q hq
      · obtain rfl : lsn = t.commitLsn := by simpa [hqtx, hcommit] using hlsn.symm
        exact absurd (List.mem_append_left _ hcommitted) (htracked.not_committed_of_pending hmem)
      · simp [hnone] at hopen
    · intro tableId _ lsn _ i data hi
      cases hi
  | keepAlive => exact hinner rfl rfl
  | commit => exact hinner rfl rfl
  | foreign => exact hinner rfl rfl
  | @change _ _ data rest hchange => cases data <;> first | exact hinner rfl rfl | cases hchange
  | @auxiliary _ _ data hopen hdata =>
    rcases hdata with hdata | ⟨b, rfl⟩
    · simp only [List.mem_cons, List.not_mem_nil, or_false] at hdata
      rcases hdata with rfl | rfl <;> exact hinner rfl rfl
    · exact hinner rfl rfl

lemma change_cases {messages : List LogicalReplicationMessage} {data other : LogicalReplicationMessage}
    {i : Nat} (hi : ((messages ++ [data]).filter (·.isChange))[i]? = some other) :
    (messages.filter (·.isChange))[i]? = some other ∨
      other = data ∧ i = messages.countP (·.isChange) := by
  rw [List.filter_append, List.getElem?_append] at hi
  split_ifs at hi with hlt
  · exact .inl hi
  · right
    have hmem := List.mem_of_getElem? hi
    simp only [List.mem_filter, List.mem_singleton] at hmem
    obtain ⟨rfl, hchange⟩ := hmem
    have hlen := (List.getElem?_eq_some_iff.1 hi).1
    simp only [List.filter_cons, hchange, if_true, List.filter_nil, List.length_singleton] at hlen
    rw [List.countP_eq_length_filter]
    exact ⟨rfl, by omega⟩

lemma skip (h : Content wal session l) {data : LogicalReplicationMessage}
    (hhandling : l.handling = some data) (hinner : data.isBoundary = false)
    (hskipped : ∀ tableId, l.workerType = .tableSync tableId → data.touches tableId = false) :
    Content wal session (l.handle data) := by
  refine ⟨?_, ?_, ?_⟩
  · intro lsn hlsn
    obtain ⟨t, ht, hcommit, hwithin⟩ := h.within lsn hlsn
    exact ⟨t, ht, hcommit, hwithin.handle hhandling (.inl hinner)⟩
  · intro q hq hkeyed t ht htx hqtx
    refine (h.below q hq hkeyed t ht htx hqtx).trans_le ?_
    simp [ApplyLoop.handle]
  · intro tableId hworker lsn hlsn i other hi htouches
    rcases change_cases hi with hi | ⟨rfl, -⟩
    · exact h.kept tableId hworker lsn hlsn i other hi htouches
    · simp [hskipped tableId hworker] at htouches

lemma push (h : Content wal session l) {p : Produced} {x : Inert}
    (hsource : l.handling = some p.source) (htx : p.tx = l.tx)
    (hindex : p.index = l.txMessages.countP (·.isChange))
    (hrank : ∀ t ∈ wal.transactions, l.tx = some t.commitLsn →
      p.rank t = l.txMessages.countP (·.isKeyed))
    (hinner : p.event.committed? = none → p.source.isBoundary = false ∨ p.source.isBegin = true) :
    Content wal session (l.push p x) := by
  cases hevent : p.event.committed? with
  | some lsn =>
    have hnone : (l.push p x).tx = none := by simp [ApplyLoop.push, hevent]
    refine ⟨?_, ?_, ?_⟩ <;> simp [hnone]
  | none =>
    have hsame : (l.push p x).tx = l.tx := by simp [ApplyLoop.push, hevent]
    refine ⟨?_, ?_, ?_⟩ <;> rw [hsame]
    · intro lsn hlsn
      obtain ⟨t, ht, hcommit, hwithin⟩ := h.within lsn hlsn
      obtain ⟨hchanges, hfresh, hcounted⟩ := hwithin.handle hsource (hinner hevent)
      exact ⟨t, ht, hcommit, hchanges, hfresh, hcounted⟩
    · intro q hq hkeyed t ht htx' hqtx
      have hmessages : (l.push p x).txMessages = l.txMessages ++ [p.source] := rfl
      rw [hmessages, List.countP_append]
      rcases List.mem_append.1 hq with hq | hq
      · have hlt := h.below q hq hkeyed t ht htx' hqtx
        omega
      · rw [List.mem_singleton.1 hq] at hkeyed ⊢
        simp [hrank t ht htx', hkeyed]
    · intro tableId hworker lsn hlsn i data hi htouches
      rcases change_cases hi with hi | ⟨rfl, hplace⟩
      · obtain ⟨q, hq, hrest⟩ := h.kept tableId hworker lsn hlsn i data hi htouches
        exact ⟨q, List.mem_append_left _ hq, hrest⟩
      · exact ⟨p, List.mem_append_right _ (by simp), htx.trans hlsn, hindex.trans hplace.symm, rfl⟩

end Content

lemma Recorded.push (h : Recorded wal l) (hcontent : Content wal session l)
    (htracked : Tracked wal session l) {p : Produced} {x : Inert} (htx : p.tx = l.tx)
    (hof : ∃ t ∈ wal.transactions, p.Of t)
    (hrank : ∀ t ∈ wal.transactions, l.tx = some t.commitLsn →
      p.rank t = l.txMessages.countP (·.isKeyed))
    (hcommitted : ∀ lsn, p.event.committed? = some lsn → l.tx = some lsn ∧
      ∃ flags endLsn timestamp, l.handling = some (.commit flags lsn endLsn timestamp)) :
    Recorded wal (l.push p x) := by
  refine ⟨?_, ?_, ?_, ?_⟩
  · intro q hq
    rcases List.mem_append.1 hq with hq | hq
    · exact h.of q hq
    · exact List.mem_singleton.1 hq ▸ hof
  · refine List.pairwise_append.2 ⟨h.ordered, List.pairwise_singleton _ _, ?_⟩
    intro q hq p' hp' a b ha hb
    rw [List.mem_singleton.1 hp', htx] at hb
    obtain ⟨lsn, hlsn, hmem | hopen⟩ := htracked.produced q hq
    · obtain rfl : lsn = a := Option.some.inj (hlsn.symm.trans ha)
      exact (htracked.lt_of_open hmem hb).le
    · rw [hb] at hopen
      exact (Option.some.inj (ha.symm.trans (hlsn.trans hopen.symm))).le
  · refine List.pairwise_append.2 ⟨h.increasing, List.pairwise_singleton _ _, ?_⟩
    intro q hq p' hp' hqkeyed _ t ht hqtx hptx
    rw [List.mem_singleton.1 hp'] at hptx ⊢
    rw [htx] at hptx
    rw [hrank t ht hptx]
    exact hcontent.below q hq hqkeyed t ht hptx hqtx
  · intro tableId hworker t ht hmem i data hi htouches
    have hlift : (∃ q ∈ l.produced, q.tx = some t.commitLsn ∧ q.index = i ∧ q.source = data) →
        ∃ q ∈ (l.push p x).produced, q.tx = some t.commitLsn ∧ q.index = i ∧ q.source = data :=
      fun ⟨q, hq, hrest⟩ => ⟨q, List.mem_append_left _ hq, hrest⟩
    have hsplit : t.commitLsn ∈ committedOf l.produced ∨ p.event.committed? = some t.commitLsn := by
      simpa [committedOf, ApplyLoop.push, List.filterMap_append, or_and_right, exists_or] using hmem
    refine hlift (hsplit.elim (fun hold => h.kept tableId hworker t ht hold i data hi htouches) ?_)
    -- the COMMIT comes after every change of the transaction
    intro hnew
    obtain ⟨hopen, flags, endLsn, timestamp, hhandling⟩ := hcommitted _ hnew
    obtain ⟨t', ht', hcommit, hwithin⟩ := hcontent.within _ hopen
    obtain rfl := Wal.eq_of_commitLsn_eq ht' ht hcommit
    have hclosed : session.openTx = none := by
      rcases htracked.inside _ hopen with ⟨hclosed, -⟩ | ⟨-, hnil, -⟩
      · exact hclosed
      · simp [committing, hhandling] at hnil
    have hhand : l.inHand = [] := by
      rw [inHand, hhandling]
      rfl
    refine hcontent.kept tableId hworker _ hopen i data ?_ htouches
    rw [← hi, ← hwithin.changes, hhand, hclosed]
    simp

lemma Content.step (h : Content wal session l) (hrecorded : Recorded wal l)
    (htracked : Tracked wal session l) (hsession : l.session = some session)
    (hstep : LoopStep l w l' w') :
    ∃ session', l'.session = some session' ∧ Content wal session' l' ∧ Recorded wal l' := by
  cases hstep with
  | receive m _ _ hrest haccepted =>
    simp only [accepts, hsession] at haccepted
    obtain ⟨session', hdeliver⟩ := Option.isSome_iff_exists.1 haccepted
    exact ⟨session', by simp [ApplyLoop.receive, sessionAfter, hsession, hdeliver],
      h.receive htracked hrest.handling (Session.delivers_of_deliver hdeliver),
      hrecorded.of, hrecorded.ordered, hrecorded.increasing, hrecorded.kept⟩
  | push p x _ hsource htx hinside hindex hkeyed hkey _ hbegins hbegun hcommitted =>
    obtain ⟨lsn, hlsn⟩ := Option.isSome_iff_exists.1 hinside
    obtain ⟨t, ht, rfl, hwithin⟩ := h.within lsn hlsn
    obtain ⟨hrank, hof⟩ := hwithin.of hsource (htx.trans hlsn) hindex hkeyed
      fun key hk => ⟨htx.trans (hkey key hk).1, (hkey key hk).2⟩
    have hranks : ∀ t' ∈ wal.transactions, l.tx = some t'.commitLsn →
        p.rank t' = l.txMessages.countP (·.isKeyed) := by
      intro t' ht' htx'
      obtain rfl := Wal.eq_of_commitLsn_eq ht ht' (Option.some.inj (hlsn.symm.trans htx'))
      exact hrank
    refine ⟨session, hsession, h.push hsource htx hindex hranks fun hevent => ?_,
      hrecorded.push h htracked htx ⟨t, ht, hof⟩ hranks fun lsn hevent => ?_⟩
    · cases hboundary : p.source.isBoundary with
      | false => exact .inl rfl
      | true =>
        rcases hbegins hboundary with hb | hb
        · obtain ⟨lsn, hb⟩ := Option.isSome_iff_exists.1 hb
          obtain ⟨-, _, _, hsrc⟩ := hbegun lsn hb
          exact .inr (by rw [hsrc]; rfl)
        · simp [hevent] at hb
    · obtain ⟨hopen, -, flags, endLsn, timestamp, hsrc, -⟩ := hcommitted lsn hevent
      exact ⟨hopen, flags, endLsn, timestamp, hsrc ▸ hsource⟩
  | skip data hhandling _ hinner hskipped =>
    exact ⟨session, hsession, h.skip hhandling hinner hskipped,
      hrecorded.of, hrecorded.ordered, hrecorded.increasing, hrecorded.kept⟩
  | _ =>
    exact ⟨session, hsession, ⟨fun lsn hlsn => by
        obtain ⟨t, ht, hcommit, hchanges, hfresh, hcounted⟩ := h.within lsn hlsn
        exact ⟨t, ht, hcommit, hchanges, hfresh, hcounted⟩, h.below, h.kept⟩,
      hrecorded.of, hrecorded.ordered, hrecorded.increasing, hrecorded.kept⟩

lemma Recorded.step_of_dead (h : Recorded wal l) (hlive : l.live = false)
    (hstep : LoopStep l w l' w') : Recorded wal l' := by
  cases hstep with
  | push _ _ hlive' => simp [hlive] at hlive'
  | _ => exact ⟨h.of, h.ordered, h.increasing, h.kept⟩

end ApplyLoop

lemma System.Reachable.recorded {config : Config} {wal : Wal} (hwal : config.wal = some wal)
    {Allowed : Memory → Memory → Prop} {s : System} (hs : s.Reachable config Allowed)
    (worker : WorkerType) : Recorded wal (s.memory.loops worker) := by
  have hnil : ∀ l : ApplyLoop, l.produced = [] → Recorded wal l := by
    intro l hl
    constructor <;> simp [hl, committedOf]
  refine (hs.loop_invariant (J := fun l => Recorded wal l ∧ (l.live = true →
    ∃ session, l.session = some session ∧ Content wal session l)) worker
    (fun _ => ⟨hnil _ rfl, fun h => by cases h⟩) ?_ ?_ ?_).1
  · intro l startLsn decoders target
    refine ⟨hnil _ rfl, fun _ => ⟨Session.begin wal startLsn, by rw [hwal]; rfl, ?_⟩⟩
    exact ⟨fun _ h => (by cases h), fun _ h => (by cases h), fun _ _ _ h => (by cases h)⟩
  · rintro s worker l' w' hs ⟨hrecorded, hcontent⟩ hstep
    cases hlive : (s.memory.loops worker).live with
    | false =>
      refine ⟨hrecorded.step_of_dead hlive hstep, fun h => ?_⟩
      simp [hstep.live_of_live h] at hlive
    | true =>
      obtain ⟨session, hsession, hcontent⟩ := hcontent hlive
      obtain ⟨session₀, hsession₀, htracked⟩ := hs.tracked hwal worker hlive
      obtain rfl : session₀ = session := Option.some.inj (hsession₀.symm.trans hsession)
      obtain ⟨session', hsession', hcontent', hrecorded'⟩ :=
        hcontent.step hrecorded htracked hsession hstep
      exact ⟨hrecorded', fun _ => ⟨session', hsession', hcontent'⟩⟩
  · rintro l _ ⟨hrecorded, hcontent⟩ ⟨_, _, _, _, _, hlive, rfl⟩
    refine ⟨⟨hrecorded.of, hrecorded.ordered, hrecorded.increasing, hrecorded.kept⟩, fun h => ?_⟩
    obtain ⟨session, hsession, hcontent⟩ := hcontent (hlive h).1
    refine ⟨session, hsession, fun lsn hlsn => ?_, hcontent.below, hcontent.kept⟩
    obtain ⟨t, ht, hcommit, hchanges, hfresh, hcounted⟩ := hcontent.within lsn hlsn
    exact ⟨t, ht, hcommit, hchanges, hfresh, hcounted⟩

/-! ## Sequence keys -/

def ApplyLoop.sequenceKeys (l : ApplyLoop) : List EventSequenceKey :=
  (l.produced.flatMap (·.events)).filterMap (·.eventSequenceKey?)

lemma Produced.filterMap_events (p : Produced) :
    p.events.filterMap (·.eventSequenceKey?) = p.event.eventSequenceKey?.toList := by
  have hrelation : ∀ r, (Event.relation r).eventSequenceKey? = none := fun _ => rfl
  unfold events
  cases p.relation <;> cases hkey : p.event.eventSequenceKey? <;> simp [hkey, hrelation]

lemma ApplyLoop.sequenceKeys_eq (l : ApplyLoop) :
    l.sequenceKeys = l.produced.filterMap (·.event.eventSequenceKey?) := by
  unfold sequenceKeys
  induction l.produced with
  | nil => rfl
  | cons p rest ih =>
    rw [List.flatMap_cons, List.filterMap_append, ih, p.filterMap_events]
    cases hkey : p.event.eventSequenceKey? <;> simp [hkey]

lemma ApplyLoop.Recorded.pairwise_sequenceKeys {wal : Wal} {l : ApplyLoop} (h : Recorded wal l)
    (hbound : ∀ t ∈ wal.transactions, t.changes.countP (·.isKeyed) + 2 < 2 ^ 64) :
    (l.sequenceKeys.map (·.asU128)).Pairwise (· < ·) := by
  rw [sequenceKeys_eq, List.pairwise_map, List.pairwise_filterMap]
  refine (h.ordered.and h.increasing).imp_of_mem ?_
  rintro q p hq hp ⟨hordered, hincreasing⟩ a ha b hb
  obtain ⟨t, ht, hqt⟩ := h.of q hq
  obtain ⟨t', ht', hpt⟩ := h.of p hp
  have hqkeyed : q.source.isKeyed = true := by rw [← hqt.keyed, ha]; rfl
  have hpkeyed : p.source.isKeyed = true := by rw [← hpt.keyed, hb]; rfl
  obtain rfl := hqt.key a ha
  obtain rfl := hpt.key b hb
  refine EventSequenceKey.asU128_lt (by simp) (by simp) ?_
  rcases (hordered _ _ hqt.tx hpt.tx).lt_or_eq with hlt | heq
  · exact .inl hlt
  · -- in one transaction the ordinals are the ranks
    obtain rfl := Wal.eq_of_commitLsn_eq ht ht' heq
    have hrank := hincreasing hqkeyed hpkeyed t ht hqt.tx hpt.tx
    have hle : p.rank t ≤ t.changes.countP (·.isKeyed) + 1 := by
      unfold Produced.rank
      have := (List.take_sublist p.index t.changes).countP_le (p := fun c => c.isKeyed)
      split_ifs <;> omega
    have hlt := hbound t ht
    refine .inr ⟨rfl, ?_⟩
    simp only
    omega

/-- Along one run of a loop the packed sequence keys of the emitted events grow strictly, if no
transaction has 2^64 keyed events or more. And two loops that receive the same transaction, in two
runs or in one, make the same message into an event with the same key, whatever they skip. -/
theorem sequenceKeys_order_and_identify (wal : Wal) :
    ((∀ t ∈ wal.transactions, t.changes.countP (·.isKeyed) + 2 < 2 ^ 64) →
      ∀ (config : Config) (s : System), config.wal = some wal →
        s.Reachable config System.AnyStep → ∀ worker,
          ((s.memory.loops worker).sequenceKeys.map (·.asU128)).Pairwise (· < ·)) ∧
    ∀ (config config' : Config) (s s' : System), config.wal = some wal → config'.wal = some wal →
      s.Reachable config System.AnyStep → s'.Reachable config' System.AnyStep →
        ∀ worker worker', ∀ p ∈ (s.memory.loops worker).produced,
          ∀ p' ∈ (s'.memory.loops worker').produced, p.tx = p'.tx → p.index = p'.index →
            p.source.isChange = true → p'.source.isChange = true →
              p.source = p'.source ∧
                p.event.eventSequenceKey? = p'.event.eventSequenceKey? := by
  refine ⟨fun hbound config s hwal hs worker =>
    (hs.recorded hwal worker).pairwise_sequenceKeys hbound, ?_⟩
  intro config config' s s' hwal hwal' hs hs' worker worker' p hp p' hp' htx hindex hchange hchange'
  obtain ⟨t, ht, hpt⟩ := (hs.recorded hwal worker).of p hp
  obtain ⟨t', ht', hpt'⟩ := (hs'.recorded hwal' worker').of p' hp'
  obtain rfl : t = t' := Wal.eq_of_commitLsn_eq ht ht'
    (Option.some.inj (hpt.tx.symm.trans (htx.trans hpt'.tx)))
  have hsource : p.source = p'.source := by
    have hplace := hpt.place hchange
    rw [hindex, hpt'.place hchange'] at hplace
    exact (Option.some.inj hplace).symm
  refine ⟨hsource, ?_⟩
  have hrank : p.rank t = p'.rank t := by rw [Produced.rank, Produced.rank, hsource, hindex]
  have hsome : p.event.eventSequenceKey?.isSome = p'.event.eventSequenceKey?.isSome := by
    rw [hpt.keyed, hpt'.keyed, hsource]
  cases hkey : p.event.eventSequenceKey? with
  | none =>
    rw [hkey] at hsome
    exact (Option.not_isSome_iff_eq_none.1 (by simp [← hsome])).symm
  | some key =>
    rw [hkey] at hsome
    obtain ⟨key', hkey'⟩ := Option.isSome_iff_exists.1 hsome.symm
    rw [hkey', hpt.key key hkey, hpt'.key key' hkey', hrank]

def Wal.twoTables : Wal :=
  ⟨[⟨15, 20, [.insert 2 [], .insert 1 []], fifteen_lt_twenty, by decide⟩], by simp⟩

def System.copyAndFollow : List Action :=
  [.turn .apply { lsn := 5 }, .turn .apply { lsn := 5 },
    .turn .apply { branch := .streamMessage (.ok (.primaryKeepAlive 12 false)) },
    .turn (.tableSync 1) {}, .turn (.tableSync 1) { lsn := 10 }, .turn .apply {},
    .turn (.tableSync 1) {},
    .turn (.tableSync 1) { branch := .streamMessage (.ok (.xLogData 15 15 (.begin 15 0 0))) },
    .turn (.tableSync 1) { branch := .streamMessage (.ok (.xLogData 15 15 (.insert 2 []))) },
    .turn (.tableSync 1) { branch := .streamMessage (.ok (.xLogData 15 15 (.insert 1 []))) }]

def System.skippedChange : System :=
  initial.play (sampleConfig (some .twoTables)) (.register 1 :: copyAndFollow)

def System.skippedTwice : System :=
  skippedChange.play (sampleConfig (some .twoTables)) (.restart :: copyAndFollow)

/-- The change of the other table counts, although no event is made of it; and the row gets the same
key when it is replayed. -/
theorem sequenceKeys_skippedTwice :
    (System.skippedChange.memory.loops (.tableSync 1)).sequenceKeys = [⟨15, 0⟩, ⟨15, 2⟩] ∧
      (System.skippedTwice.memory.loops (.tableSync 1)).produced.length = 2 ∧
      ((System.skippedTwice.memory.loops (.tableSync 1)).sequenceKeys.map (·.asU128)).Pairwise
        (· < ·) ∧
      ∀ p ∈ (System.skippedChange.memory.loops (.tableSync 1)).produced,
        ∀ p' ∈ (System.skippedTwice.memory.loops (.tableSync 1)).produced, p.tx = p'.tx →
          p.index = p'.index → p.source.isChange = true → p'.source.isChange = true →
            p.event.eventSequenceKey? = p'.event.eventSequenceKey? := by
  have hs : System.skippedChange.Reachable (System.sampleConfig (some .twoTables)) System.AnyStep :=
    System.reachable_play .initial _
  have hs' : System.skippedTwice.Reachable (System.sampleConfig (some .twoTables)) System.AnyStep :=
    System.reachable_play hs _
  obtain ⟨horder, hidentify⟩ := sequenceKeys_order_and_identify .twoTables
  refine ⟨by decide +kernel, by decide +kernel, horder (by decide) _ _ rfl hs' _, ?_⟩
  exact fun p hp p' hp' htx hindex hchange hchange' =>
    (hidentify _ _ _ _ rfl rfl hs hs' _ _ p hp p' hp' htx hindex hchange hchange').2

end Etl
