import Mathlib
import Etl.Lib.Text

/-!
# WAL positions and schema snapshot identifiers

`SnapshotId` orders schema versions by commit LSN and then by message LSN. Both have a text form in
the store, `X/Y` in hexadecimal and `c:m` in decimal.
-/

namespace Etl

structure PgLsn where
  val : Fin (2 ^ 64)
deriving DecidableEq, Repr

namespace PgLsn

instance : LinearOrder PgLsn :=
  LinearOrder.lift' PgLsn.val (fun a b h => by cases a; cases b; simpa using h)

instance (n : Nat) : OfNat PgLsn n := ⟨⟨Fin.ofNat _ n⟩⟩

instance : Inhabited PgLsn := ⟨0⟩

def toNat (l : PgLsn) : Nat := l.val

def ofNat? (n : Nat) : Option PgLsn :=
  if h : n < 2 ^ 64 then some ⟨⟨n, h⟩⟩ else none

def max : PgLsn := ⟨⟨2 ^ 64 - 1, by norm_num⟩⟩

lemma le_max (l : PgLsn) : l ≤ max :=
  Fin.le_def.mpr (Nat.le_sub_one_of_lt l.val.isLt)

lemma zero_le (l : PgLsn) : 0 ≤ l := Fin.zero_le l.val

@[simp] lemma toNat_mk (n : Nat) (h : n < 2 ^ 64) : toNat ⟨⟨n, h⟩⟩ = n := rfl

@[simp] lemma ofNat?_toNat (l : PgLsn) : ofNat? l.toNat = some l := by
  simp [ofNat?, toNat]

/-- `u64::from_str_radix`: an optional plus sign, digits, no overflow. -/
def parseU64? (b : Nat) (cs : List Char) : Option PgLsn :=
  let digits := match cs with
    | '+' :: rest => rest
    | _ => cs
  (Text.parse? b digits).bind ofNat?

lemma parseU64?_eq {b : Nat} {cs : List Char} (h : '+' ∉ cs) :
    parseU64? b cs = (Text.parse? b cs).bind ofNat? := by
  unfold parseU64?
  split
  · exact absurd List.mem_cons_self h
  · rfl

lemma parseU64?_render {b : Nat} (hb2 : 2 ≤ b) (hb : b ≤ 16) (l : PgLsn) :
    parseU64? b (Text.render b l.toNat) = some l := by
  rw [parseU64?_eq (Text.notMem_render hb2 hb (by simp [Text.digitVal?]) _),
    Text.parse?_render hb2 hb, Option.bind_some, ofNat?_toNat]

lemma map_parseU64?_render (n : Fin (2 ^ 64)) :
    (parseU64? 10 (Text.render 10 n)).map PgLsn.val = some n := by
  rw [show (n : Nat) = toNat ⟨n⟩ from rfl, parseU64?_render (by norm_num) (by norm_num)]
  rfl

def toText (l : PgLsn) : List Char :=
  Text.render 16 (l.toNat / 2 ^ 32) ++ '/' :: Text.render 16 (l.toNat % 2 ^ 32)

/-- Read `X/Y`; bits shifted beyond the upper half are lost, as in the driver. -/
def ofText? (cs : List Char) : Option PgLsn := do
  let (hi, lo) ← Text.splitOnce? '/' cs
  let hi ← parseU64? 16 hi
  let lo ← parseU64? 16 lo
  ofNat? ((hi.toNat <<< 32) % 2 ^ 64 ||| lo.toNat)

lemma ofText?_toText (l : PgLsn) : ofText? l.toText = some l := by
  have hlt : l.toNat < 2 ^ 64 := l.val.isLt
  have hhi : l.toNat / 2 ^ 32 < 2 ^ 64 := by omega
  have hlo : l.toNat % 2 ^ 32 < 2 ^ 64 := by omega
  have half : ∀ (n : Nat) (hn : n < 2 ^ 64),
      parseU64? 16 (Text.render 16 n) = some ⟨⟨n, hn⟩⟩ := fun n hn =>
    parseU64?_render (by decide) (by decide) ⟨⟨n, hn⟩⟩
  have hsplit : Text.splitOnce? '/' l.toText = some (Text.render 16 (l.toNat / 2 ^ 32),
      Text.render 16 (l.toNat % 2 ^ 32)) :=
    Text.splitOnce?_append _ _ (Text.notMem_render (by decide) (by decide) (by decide) _)
  have hjoin : (l.toNat / 2 ^ 32) <<< 32 % 2 ^ 64 ||| l.toNat % 2 ^ 32 = l.toNat := by
    have hlow : l.toNat % 2 ^ 32 < 2 ^ 32 := Nat.mod_lt _ (by norm_num)
    rw [Nat.mod_eq_of_lt (by rw [Nat.shiftLeft_eq]; omega), ← Nat.shiftLeft_add_eq_or_of_lt hlow,
      Nat.shiftLeft_eq]
    omega
  rw [ofText?, hsplit]
  simp only [Option.bind_eq_bind, Option.bind_some, half _ hhi, half _ hlo, toNat_mk, hjoin,
    ofNat?_toNat]

end PgLsn

structure SnapshotId where
  commitLsn : PgLsn
  messageLsn : PgLsn
deriving DecidableEq, Repr

namespace SnapshotId

def key (s : SnapshotId) : PgLsn ×ₗ PgLsn := toLex (s.commitLsn, s.messageLsn)

lemma key_injective : Function.Injective key := by
  rintro ⟨c, m⟩ ⟨c', m'⟩ h
  simpa [key] using h

instance : LinearOrder SnapshotId := LinearOrder.lift' key key_injective

def initial : SnapshotId := ⟨0, 0⟩

def max : SnapshotId := ⟨PgLsn.max, PgLsn.max⟩

def atLsn (lsn : PgLsn) : SnapshotId := ⟨lsn, PgLsn.max⟩

lemma le_def (s s' : SnapshotId) :
    s ≤ s' ↔ s.commitLsn < s'.commitLsn ∨
      s.commitLsn = s'.commitLsn ∧ s.messageLsn ≤ s'.messageLsn :=
  Prod.Lex.toLex_le_toLex

lemma le_atLsn_iff (s : SnapshotId) (lsn : PgLsn) : s ≤ atLsn lsn ↔ s.commitLsn ≤ lsn := by
  have := PgLsn.le_max s.messageLsn
  rw [le_def, le_iff_lt_or_eq (a := s.commitLsn)]
  simp [atLsn, this]

lemma le_max (s : SnapshotId) : s ≤ max :=
  (le_atLsn_iff s PgLsn.max).mpr (PgLsn.le_max _)

def toText (s : SnapshotId) : List Char :=
  Text.render 10 s.commitLsn.toNat ++ ':' :: Text.render 10 s.messageLsn.toNat

def ofText? (cs : List Char) : Option SnapshotId := do
  let (commitLsn, messageLsn) ← Text.splitOnce? ':' cs
  if ':' ∈ messageLsn then none
  else
    let commitLsn ← PgLsn.parseU64? 10 commitLsn
    let messageLsn ← PgLsn.parseU64? 10 messageLsn
    some ⟨commitLsn, messageLsn⟩

lemma splitOnce?_toText (s : SnapshotId) :
    Text.splitOnce? ':' s.toText =
      some (Text.render 10 s.commitLsn.toNat, Text.render 10 s.messageLsn.toNat) :=
  Text.splitOnce?_append _ _ (Text.notMem_render (by decide) (by decide) (by decide) _)

lemma ofText?_toText (s : SnapshotId) : ofText? s.toText = some s := by
  have hcolon : ':' ∉ Text.render 10 s.messageLsn.toNat :=
    Text.notMem_render (by decide) (by decide) (by decide) _
  simp [ofText?, splitOnce?_toText, hcolon, PgLsn.parseU64?_render]

lemma toText_injective : Function.Injective toText := fun s s' h =>
  Option.some.inj (by rw [← ofText?_toText s, h, ofText?_toText s'])

end SnapshotId

end Etl
