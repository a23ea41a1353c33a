import Etl.Event

/-!
# The logical replication server

A `Wal` is the committed transactions of the source. A connection is sent, whole and in commit
order, those whose commit record starts at or after its start, with auxiliary messages in between. A
keepalive reports no position beyond the commit record of a transaction that is still to be sent.
-/

namespace Etl

def LogicalReplicationMessage.isChange : LogicalReplicationMessage → Bool
  | .insert .. | .update .. | .delete .. | .truncate .. | .message .. => true
  | _ => false

structure Transaction where
  commitLsn : PgLsn
  endLsn : PgLsn
  changes : List LogicalReplicationMessage
  commit_lt_end : commitLsn < endLsn
  isChange_of_mem : ∀ c ∈ changes, c.isChange
deriving DecidableEq

structure Wal where
  transactions : List Transaction
  ordered : transactions.Pairwise fun a b => a.endLsn ≤ b.commitLsn

structure Session where
  /-- The transactions whose COMMIT has not been sent. -/
  pending : List Transaction
  /-- The changes still to be sent after a BEGIN. -/
  openTx : Option (List LogicalReplicationMessage)
deriving DecidableEq

namespace Session

def begin (wal : Wal) (start : PgLsn) : Session :=
  ⟨wal.transactions.filter fun t => start ≤ t.commitLsn, none⟩

def reaches (s : Session) (lsn : PgLsn) : Bool :=
  s.pending.all fun t => lsn ≤ t.commitLsn

/-- `none` if the server never sends the message here. -/
def deliver (s : Session) : ReplicationMessage → Option Session
  | .primaryKeepAlive walEnd _ => if s.reaches walEnd then some s else none
  | .xLogData walStart walEnd data =>
    match data with
    | .begin finalLsn _ _ =>
      match s.pending, s.openTx with
      | t :: _, none =>
        if finalLsn = t.commitLsn ∧ s.reaches walStart ∧ s.reaches walEnd then
          some { s with openTx := some t.changes }
        else none
      | _, _ => none
    | .commit _ commitLsn endLsn _ =>
      match s.pending, s.openTx with
      | t :: rest, some [] =>
        if commitLsn = t.commitLsn ∧ endLsn = t.endLsn ∧ walStart ≤ t.endLsn ∧ walEnd = t.endLsn
        then some ⟨rest, none⟩
        else none
      | _, _ => none
    | data =>
      if s.reaches walStart ∧ s.reaches walEnd then
        match s.openTx with
        | none =>
          -- outside a transaction only messages of other producers are sent
          match data with
          | .message body => if body.tag = ddlMessageTag then none else some s
          | _ => none
        | some changes =>
          if data.isChange then
            match changes with
            | c :: rest => if data = c then some { s with openTx := some rest } else none
            | [] => none
          else some s
      else none

lemma reaches_iff {s : Session} {lsn : PgLsn} :
    s.reaches lsn ↔ ∀ t ∈ s.pending, lsn ≤ t.commitLsn := by
  simp [reaches]

@[simp] lemma mem_pending_begin {wal : Wal} {start : PgLsn} {t : Transaction} :
    t ∈ (begin wal start).pending ↔ t ∈ wal.transactions ∧ start ≤ t.commitLsn := by
  simp [begin]

inductive Delivers (s : Session) : ReplicationMessage → Session → Prop
  | keepAlive {walEnd : PgLsn} {reply : Bool} (reach : ∀ t ∈ s.pending, walEnd ≤ t.commitLsn) :
      Delivers s (.primaryKeepAlive walEnd reply) s
  | begin {walStart walEnd : PgLsn} {timestamp : Int} {xid : Nat} {t : Transaction}
      {rest : List Transaction} (pending : s.pending = t :: rest) (closed : s.openTx = none)
      (reachStart : ∀ t ∈ s.pending, walStart ≤ t.commitLsn)
      (reachEnd : ∀ t ∈ s.pending, walEnd ≤ t.commitLsn) :
      Delivers s (.xLogData walStart walEnd (.begin t.commitLsn timestamp xid))
        ⟨t :: rest, some t.changes⟩
  | commit {walStart : PgLsn} {timestamp flags : Int} {t : Transaction}
      {rest : List Transaction} (pending : s.pending = t :: rest) (opened : s.openTx = some [])
      (reachStart : walStart ≤ t.endLsn) :
      Delivers s (.xLogData walStart t.endLsn (.commit flags t.commitLsn t.endLsn timestamp))
        ⟨rest, none⟩
  | change {walStart walEnd : PgLsn} {data : LogicalReplicationMessage}
      {rest : List LogicalReplicationMessage} (change : data.isChange)
      (opened : s.openTx = some (data :: rest))
      (reachStart : ∀ t ∈ s.pending, walStart ≤ t.commitLsn)
      (reachEnd : ∀ t ∈ s.pending, walEnd ≤ t.commitLsn) :
      Delivers s (.xLogData walStart walEnd data) { s with openTx := some rest }
  | auxiliary {walStart walEnd : PgLsn} {data : LogicalReplicationMessage}
      (isOpen : s.openTx.isSome) (relation : data ∈ [.origin, .typeInfo] ∨ ∃ b, data = .relation b)
      (reachStart : ∀ t ∈ s.pending, walStart ≤ t.commitLsn)
      (reachEnd : ∀ t ∈ s.pending, walEnd ≤ t.commitLsn) :
      Delivers s (.xLogData walStart walEnd data) s
  | foreign {walStart walEnd : PgLsn} {body : MessageBody} (closed : s.openTx = none)
      (foreignTag : body.tag ≠ ddlMessageTag)
      (reachStart : ∀ t ∈ s.pending, walStart ≤ t.commitLsn)
      (reachEnd : ∀ t ∈ s.pending, walEnd ≤ t.commitLsn) :
      Delivers s (.xLogData walStart walEnd (.message body)) s

lemma delivers_of_deliver {s s' : Session} {m : ReplicationMessage}
    (h : s.deliver m = some s') : s.Delivers m s' := by
  obtain ⟨pending, openTx⟩ := s
  cases m with
  | primaryKeepAlive walEnd reply =>
    simp only [deliver, Option.ite_none_right_eq_some, Option.some.injEq, reaches_iff] at h
    obtain ⟨hreach, rfl⟩ := h
    exact .keepAlive hreach
  | xLogData walStart walEnd data =>
    cases data with
    | begin finalLsn timestamp xid =>
      rcases pending with _ | ⟨t, rest⟩ <;> rcases openTx with _ | changes <;>
        simp only [deliver, reduceCtorEq, Option.ite_none_right_eq_some, Option.some.injEq,
          reaches_iff] at h
      obtain ⟨⟨rfl, hstart, hend⟩, rfl⟩ := h
      exact .begin rfl rfl hstart hend
    | commit flags commitLsn endLsn timestamp =>
      rcases pending with _ | ⟨t, rest⟩ <;> rcases openTx with _ | (_ | ⟨c, changes⟩) <;>
        simp only [deliver, reduceCtorEq, Option.ite_none_right_eq_some, Option.some.injEq] at h
      obtain ⟨⟨rfl, rfl, hstart, rfl⟩, rfl⟩ := h
      exact .commit rfl rfl hstart
    | relation | origin | typeInfo =>
      rcases openTx with _ | changes <;>
        simp only [deliver, Option.ite_none_right_eq_some, Option.some.injEq, reaches_iff,
          LogicalReplicationMessage.isChange, reduceCtorEq, and_false, Bool.false_eq_true,
          if_false] at h
      obtain ⟨⟨hstart, hend⟩, rfl⟩ := h
      exact .auxiliary rfl (by simp) hstart hend
    | message body =>
      rcases openTx with _ | (_ | ⟨c, changes⟩) <;>
        simp only [deliver, Option.ite_none_right_eq_some, Option.ite_none_left_eq_some,
          Option.some.injEq, reaches_iff, LogicalReplicationMessage.isChange, reduceCtorEq,
          and_false, if_true] at h
      · obtain ⟨⟨hstart, hend⟩, htag, rfl⟩ := h
        exact .foreign rfl htag hstart hend
      · obtain ⟨⟨hstart, hend⟩, rfl, rfl⟩ := h
        exact .change rfl rfl hstart hend
    | insert | update | delete | truncate =>
      rcases openTx with _ | (_ | ⟨c, changes⟩) <;>
        simp only [deliver, Option.ite_none_right_eq_some, Option.some.injEq, reaches_iff,
          LogicalReplicationMessage.isChange, reduceCtorEq, and_false, if_true] at h
      obtain ⟨⟨hstart, hend⟩, rfl, rfl⟩ := h
      exact .change rfl rfl hstart hend

end Session

end Etl
