import Mathlib
import Etl.Lib.NumeralOrder
import Etl.Postgres.Lsn

/-!
# Offset tokens

Positions are texts that are compared as texts. That is sound for tokens without an upper-case digit
(`ordersLike_iff_no_upper`), which `new` builds; `fromStr` lets upper-case digits through.
-/

namespace Etl.Snowflake

structure OffsetToken where
  text : List Char
deriving DecidableEq, Repr

namespace OffsetToken

instance : LinearOrder OffsetToken :=
  LinearOrder.lift' OffsetToken.text (fun a b h => by cases a; cases b; simpa using h)

def new (commitLsn : PgLsn) (txOrdinal : Fin (2 ^ 64)) : OffsetToken :=
  ⟨Text.lowerHex 16 commitLsn.toNat ++ '/' :: Text.lowerHex 16 txOrdinal⟩

def zero : OffsetToken := ⟨"0000000000000000/0000000000000000".toList⟩

def decode (token : OffsetToken) : Option (PgLsn × Fin (2 ^ 64)) := do
  let (lsnHex, ordHex) ← Text.splitOnce? '/' token.text
  let lsn ← PgLsn.parseU64? 16 lsnHex
  let ord ← PgLsn.parseU64? 16 ordHex
  return (lsn, ord.val)

def isAsciiHexdigit (c : Char) : Bool :=
  '0' ≤ c && c ≤ '9' || 'a' ≤ c && c ≤ 'f' || 'A' ≤ c && c ≤ 'F'

def isCanonicalOffsetToken (s : List Char) : Bool :=
  match Text.splitOnce? '/' s with
  | none => false
  | some (lsnHex, ordinalHex) =>
    lsnHex.length == 16 && ordinalHex.length == 16 && lsnHex.all isAsciiHexdigit &&
      ordinalHex.all isAsciiHexdigit

def fromStr (s : List Char) : Option OffsetToken :=
  if isCanonicalOffsetToken s then
    let token := OffsetToken.mk s
    token.decode.map fun _ => token
  else none

/-! ## The parts of a token -/

lemma isAsciiHexdigit_iff {c : Char} :
    isAsciiHexdigit c = true ↔ (Text.digitVal? 16 c).isSome := by
  have hle : ∀ a b : Char, a ≤ b ↔ a.toNat ≤ b.toNat := fun _ _ => Iff.rfl
  simp only [isAsciiHexdigit, Bool.or_eq_true, Bool.and_eq_true, decide_eq_true_eq, hle,
    Char.reduceToNat]
  grind [Text.digitVal?]

structure Parts (token : OffsetToken) (lsnHex ordinalHex : List Char) : Prop where
  text : token.text = lsnHex ++ '/' :: ordinalHex
  lsn_length : lsnHex.length = 16
  ordinal_length : ordinalHex.length = 16
  lsn_digits : ∀ c ∈ lsnHex, (Text.digitVal? 16 c).isSome
  ordinal_digits : ∀ c ∈ ordinalHex, (Text.digitVal? 16 c).isSome

lemma parseU64?_digits {cs : List Char} (hlen : cs.length = 16)
    (h : ∀ c ∈ cs, (Text.digitVal? 16 c).isSome) :
    ∃ v : Fin (2 ^ 64), PgLsn.parseU64? 16 cs = some ⟨v⟩ ∧ (v : ℕ) = Text.value 16 cs := by
  have hne : cs ≠ [] := by rintro rfl; simp at hlen
  have hlt : Text.value 16 cs < 2 ^ 64 := by
    have := Text.value_lt (b := 16) (by norm_num) cs
    rw [hlen] at this
    norm_num at this ⊢
    exact this
  have hplus : '+' ∉ cs := fun hmem => absurd (h _ hmem) (by simp [Text.digitVal?])
  refine ⟨⟨Text.value 16 cs, hlt⟩, ?_, rfl⟩
  rw [PgLsn.parseU64?_eq hplus, Text.parse?_eq_value hne h, Option.bind_some, PgLsn.ofNat?,
    dif_pos hlt]

variable {token : OffsetToken} {lsnHex ordinalHex : List Char}

lemma Parts.slash_notMem (h : Parts token lsnHex ordinalHex) : '/' ∉ lsnHex := fun hmem =>
  absurd (h.lsn_digits _ hmem) (by simp [Text.digitVal?])

lemma Parts.decode (h : Parts token lsnHex ordinalHex) :
    ∃ p, token.decode = some p ∧ p.1.toNat = Text.value 16 lsnHex ∧
      (p.2 : ℕ) = Text.value 16 ordinalHex := by
  obtain ⟨v, hv, hvalue⟩ := parseU64?_digits h.lsn_length h.lsn_digits
  obtain ⟨w, hw, hwalue⟩ := parseU64?_digits h.ordinal_length h.ordinal_digits
  refine ⟨(⟨v⟩, w), ?_, hvalue, hwalue⟩
  rw [OffsetToken.decode, h.text, Text.splitOnce?_append _ _ h.slash_notMem]
  simp [hv, hw]

lemma parts_new (commitLsn : PgLsn) (txOrdinal : Fin (2 ^ 64)) :
    Parts (new commitLsn txOrdinal) (Text.lowerHex 16 commitLsn.toNat)
      (Text.lowerHex 16 txOrdinal) where
  text := rfl
  lsn_length := Text.length_lowerHex (by have := commitLsn.val.isLt; norm_num at this ⊢; exact this)
  ordinal_length := Text.length_lowerHex (by have := txOrdinal.isLt; norm_num at this ⊢; exact this)
  lsn_digits := fun _ hc => (Text.isLowerHex_of_mem_lowerHex hc).1
  ordinal_digits := fun _ hc => (Text.isLowerHex_of_mem_lowerHex hc).1

@[simp] lemma decode_new (commitLsn : PgLsn) (txOrdinal : Fin (2 ^ 64)) :
    (new commitLsn txOrdinal).decode = some (commitLsn, txOrdinal) := by
  obtain ⟨⟨lsn, ordinal⟩, hdecode, hlsn, hordinal⟩ := (parts_new commitLsn txOrdinal).decode
  rw [Text.value_lowerHex (by norm_num)] at hlsn hordinal
  obtain rfl : lsn = commitLsn := by
    cases lsn; cases commitLsn
    exact congrArg PgLsn.mk (Fin.ext hlsn)
  obtain rfl : ordinal = txOrdinal := Fin.ext hordinal
  exact hdecode

lemma fromStr_eq_some_iff {s : List Char} :
    fromStr s = some token ↔ token.text = s ∧ ∃ lsnHex ordinalHex, Parts token lsnHex ordinalHex := by
  constructor
  · intro h
    unfold fromStr at h
    split at h
    · next hcanonical =>
      obtain ⟨p, -, rfl⟩ := Option.map_eq_some_iff.1 h
      refine ⟨rfl, ?_⟩
      unfold isCanonicalOffsetToken at hcanonical
      split at hcanonical
      · cases hcanonical
      · next lsnHex ordinalHex hsplit =>
        simp only [Bool.and_eq_true, beq_iff_eq, List.all_eq_true, isAsciiHexdigit_iff]
          at hcanonical
        obtain ⟨⟨⟨hlsn, hordinal⟩, hlsnDigits⟩, hordinalDigits⟩ := hcanonical
        exact ⟨lsnHex, ordinalHex, Text.eq_append_of_splitOnce? hsplit, hlsn, hordinal,
          hlsnDigits, hordinalDigits⟩
    · cases h
  · rintro ⟨rfl, lsnHex, ordinalHex, h⟩
    have hcanonical : isCanonicalOffsetToken token.text = true := by
      rw [isCanonicalOffsetToken, h.text, Text.splitOnce?_append _ _ h.slash_notMem]
      simp only [Bool.and_eq_true, beq_iff_eq, List.all_eq_true, isAsciiHexdigit_iff]
      exact ⟨⟨⟨h.lsn_length, h.ordinal_length⟩, h.lsn_digits⟩, h.ordinal_digits⟩
    obtain ⟨p, hp, -⟩ := h.decode
    simp [fromStr, hcanonical, hp]

/-! ## Tokens and positions -/

def Obtained (token : OffsetToken) : Prop :=
  (∃ commitLsn txOrdinal, token = new commitLsn txOrdinal) ∨ ∃ s, fromStr s = some token

def OrdersLike (s t : OffsetToken) : Prop :=
  ∃ p q, s.decode = some p ∧ t.decode = some q ∧ (s < t ↔ toLex p < toLex q) ∧ (s = t ↔ p = q)

def NoUpper (token : OffsetToken) : Prop := ∀ c ∈ token.text, c.isUpper = false

lemma Obtained.parts (h : token.Obtained) : ∃ lsnHex ordinalHex, Parts token lsnHex ordinalHex := by
  obtain ⟨commitLsn, txOrdinal, rfl⟩ | ⟨s, hs⟩ := h
  · exact ⟨_, _, parts_new commitLsn txOrdinal⟩
  · exact (fromStr_eq_some_iff.1 hs).2

lemma noUpper_new (commitLsn : PgLsn) (txOrdinal : Fin (2 ^ 64)) :
    (new commitLsn txOrdinal).NoUpper := by
  intro c hc
  simp only [new, List.mem_append, List.mem_cons] at hc
  obtain hc | rfl | hc := hc
  · exact (Text.isLowerHex_of_mem_lowerHex hc).2
  · rfl
  · exact (Text.isLowerHex_of_mem_lowerHex hc).2

lemma NoUpper.eq_new (hupper : token.NoUpper) (h : Parts token lsnHex ordinalHex) :
    ∃ commitLsn txOrdinal, token = new commitLsn txOrdinal := by
  obtain ⟨⟨commitLsn, txOrdinal⟩, -, hlsn, hordinal⟩ := h.decode
  have hlower : ∀ cs : List Char, (∀ c ∈ cs, (Text.digitVal? 16 c).isSome) → (∀ c ∈ cs, c ∈ token.text) →
      ∀ c ∈ cs, Text.IsLowerHex c := fun cs hdigits hsub c hc =>
    ⟨hdigits c hc, hupper c (hsub c hc)⟩
  have hlsnHex := Text.lowerHex_value (by rintro rfl; simpa using h.lsn_length)
    (hlower lsnHex h.lsn_digits (by simp +contextual [h.text]))
  have hordinalHex := Text.lowerHex_value (by rintro rfl; simpa using h.ordinal_length)
    (hlower ordinalHex h.ordinal_digits (by simp +contextual [h.text]))
  rw [h.lsn_length, ← hlsn] at hlsnHex
  rw [h.ordinal_length, ← hordinal] at hordinalHex
  refine ⟨commitLsn, txOrdinal, ?_⟩
  rw [OffsetToken.mk.injEq, new, hlsnHex, hordinalHex, ← h.text]

lemma lowerHex_lt_iff (m n : Fin (2 ^ 64)) :
    Text.lowerHex 16 m < Text.lowerHex 16 n ↔ m < n := by
  have hlen : ∀ k : Fin (2 ^ 64), (Text.lowerHex 16 k).length = 16 := fun k =>
    (parts_new 0 k).ordinal_length
  rw [Text.lt_iff_value_lt (by norm_num) Text.lt_iff_digit_lt ((hlen m).trans (hlen n).symm)
    (fun _ => Text.isLowerHex_of_mem_lowerHex) (fun _ => Text.isLowerHex_of_mem_lowerHex),
    Text.value_lowerHex (by norm_num), Text.value_lowerHex (by norm_num), Fin.lt_def]

lemma lowerHex_inj {m n : Fin (2 ^ 64)} :
    Text.lowerHex 16 m = Text.lowerHex 16 n ↔ m = n := by
  refine ⟨fun h => Fin.ext ?_, fun h => by rw [h]⟩
  rw [← Text.value_lowerHex (Nat.succ_pos 15) m, h, Text.value_lowerHex (by norm_num)]

lemma ordersLike_new (lsn lsn' : PgLsn) (ord ord' : Fin (2 ^ 64)) :
    OrdersLike (new lsn ord) (new lsn' ord') := by
  refine ⟨(lsn, ord), (lsn', ord'), decode_new lsn ord, decode_new lsn' ord', ?_, ?_⟩
  · have hlen := (parts_new lsn ord).lsn_length.trans (parts_new lsn' ord').lsn_length.symm
    have hlsn : Text.lowerHex 16 lsn.toNat < Text.lowerHex 16 lsn'.toNat ↔ lsn < lsn' :=
      lowerHex_lt_iff lsn.val lsn'.val
    have hlsnEq : Text.lowerHex 16 lsn.toNat = Text.lowerHex 16 lsn'.toNat ↔ lsn = lsn' := by
      cases lsn; cases lsn'
      exact lowerHex_inj.trans (PgLsn.mk.injEq _ _ ▸ Iff.rfl)
    rw [Prod.Lex.toLex_lt_toLex]
    calc new lsn ord < new lsn' ord'
        ↔ Text.lowerHex 16 lsn.toNat < Text.lowerHex 16 lsn'.toNat ∨
            Text.lowerHex 16 lsn.toNat = Text.lowerHex 16 lsn'.toNat ∧
              '/' :: Text.lowerHex 16 ord < '/' :: Text.lowerHex 16 ord' :=
          Text.append_lt_append_iff hlen
      _ ↔ lsn < lsn' ∨ lsn = lsn' ∧ ord < ord' := by
          rw [hlsn, hlsnEq, List.cons_lt_cons_iff, lowerHex_lt_iff]
          simp
  · constructor
    · intro h
      have hdecode := congrArg decode h
      simpa using hdecode
    · rintro ⟨⟩
      rfl

/-- The tokens `tokens` and all those built from positions compare like their positions exactly if
none of `tokens` has an upper-case digit; a built token is read back from its text. -/
theorem ordersLike_iff_no_upper (tokens : Set OffsetToken) (h : ∀ t ∈ tokens, t.Obtained) :
    (∀ lsn ord, fromStr (new lsn ord).text = some (new lsn ord)) ∧
      ((∀ s t, (s ∈ tokens ∨ ∃ lsn ord, s = new lsn ord) →
        (t ∈ tokens ∨ ∃ lsn ord, t = new lsn ord) → OrdersLike s t) ↔
        ∀ t ∈ tokens, t.NoUpper) := by
  refine ⟨fun lsn ord => fromStr_eq_some_iff.2 ⟨rfl, _, _, parts_new lsn ord⟩, ?_, ?_⟩
  · -- a token and the one built from its position stand for the same position
    intro hall t ht
    obtain ⟨lsnHex, ordinalHex, hparts⟩ := (h t ht).parts
    obtain ⟨⟨lsn, ord⟩, hdecode, -⟩ := hparts.decode
    obtain ⟨p, q, hp, hq, -, heq⟩ := hall t (new lsn ord) (.inl ht) (.inr ⟨lsn, ord, rfl⟩)
    rw [hdecode, Option.some.injEq] at hp
    rw [decode_new, Option.some.injEq] at hq
    rw [heq.2 (hp.symm.trans hq)]
    exact noUpper_new lsn ord
  · intro hlower s t hs ht
    have hnew : ∀ u, (u ∈ tokens ∨ ∃ lsn ord, u = new lsn ord) → ∃ lsn ord, u = new lsn ord := by
      rintro u (hu | hu)
      · obtain ⟨lsnHex, ordinalHex, hparts⟩ := (h u hu).parts
        exact (hlower u hu).eq_new hparts
      · exact hu
    obtain ⟨lsn, ord, rfl⟩ := hnew s hs
    obtain ⟨lsn', ord', rfl⟩ := hnew t ht
    exact ordersLike_new lsn lsn' ord ord'

def upperTen : OffsetToken := ⟨"000000000000000A/0000000000000000".toList⟩

lemma parts_upperTen : Parts upperTen "000000000000000A".toList "0000000000000000".toList :=
  ⟨rfl, rfl, rfl, by simp [Text.digitVal?], by simp [Text.digitVal?]⟩

theorem ordersLike_iff_no_upper_ten :
    (∀ t ∈ ({new 10 0} : Set OffsetToken), t.Obtained) ∧ OrdersLike (new 10 0) (new 11 0) := by
  have hobtained : ∀ t ∈ ({new 10 0} : Set OffsetToken), t.Obtained := by
    rintro _ rfl
    exact .inl ⟨10, 0, rfl⟩
  refine ⟨hobtained, (ordersLike_iff_no_upper _ hobtained).2.2 ?_ _ _ (.inl rfl)
    (.inr ⟨11, 0, rfl⟩)⟩
  rintro _ rfl
  exact noUpper_new 10 0

/-- The upper-case token is accepted and stands for the position 10, but is another token than
the one built from that position. -/
theorem fromStr_upperTen :
    fromStr upperTen.text = some upperTen ∧ upperTen.decode = some (10, 0) ∧
      (new 10 0).decode = some (10, 0) ∧ upperTen < new 10 0 ∧ ¬OrdersLike upperTen (new 10 0) := by
  have haccepted := fromStr_eq_some_iff.2 ⟨rfl, _, _, parts_upperTen⟩
  have hdecode : upperTen.decode = some (10, 0) := by decide +kernel
  have htext : new 10 0 = ⟨"000000000000000a/0000000000000000".toList⟩ := by
    simp only [new, PgLsn.toNat, Text.lowerHex, List.leftpad]
    simp
    rfl
  have hlt : upperTen < new 10 0 := by
    rw [htext]
    decide +kernel
  refine ⟨haccepted, hdecode, decode_new 10 0, hlt, ?_⟩
  rintro ⟨p, q, hp, hq, -, heq⟩
  rw [hdecode, Option.some.injEq] at hp
  rw [decode_new, Option.some.injEq] at hq
  exact hlt.ne (heq.2 (hp.symm.trans hq))

end OffsetToken

end Etl.Snowflake
