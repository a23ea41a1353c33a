import Etl.Postgres.DefaultExpression

/-!
# Normalising default expressions

One turn takes off an optional cast and parentheses (`turn_cases`), so only wrappers are removed
(`wrapped_normalizeFrom`), until none is left (`normalizePostgresExpression_idem`).
-/

namespace Etl.DefaultExpression

open Text

/-! ## String literals -/

def quoted (content : List Char) : List Char := '\'' :: doubled '\'' content ++ ['\'']

variable {rest : List Char}

lemma closingQuoteEnd_doubled (h : rest.head? ≠ some '\'') (content : List Char) :
    closingQuoteEnd (doubled '\'' content ++ '\'' :: rest) =
      some ((doubled '\'' content).length + 1) := by
  induction content with
  | nil => cases rest <;> grind [closingQuoteEnd, doubled_nil]
  | cons c content ih =>
    by_cases hc : c = '\''
    · subst hc
      simp [closingQuoteEnd, ih]
    · rw [doubled_cons_of_ne hc, List.cons_append]
      obtain ⟨d, tail, htail⟩ : ∃ d tail, doubled '\'' content ++ '\'' :: rest = d :: tail :=
        List.exists_cons_of_ne_nil (by simp)
      rw [htail, closingQuoteEnd, if_neg hc, ← htail, ih]
      simp

variable {cs : List Char}

lemma exists_of_closingQuoteEnd {k : ℕ} (h : closingQuoteEnd cs = some k) :
    ∃ content rest, cs = doubled '\'' content ++ '\'' :: rest ∧ rest.head? ≠ some '\'' ∧
      k = (doubled '\'' content).length + 1 := by
  fun_induction closingQuoteEnd cs generalizing k with
  | case1 => cases h
  | case2 => exact ⟨[], [], by simp_all⟩
  | case3 => cases h
  | case4 cs ih =>
    obtain ⟨j, hj, rfl⟩ := Option.map_eq_some_iff.1 h
    obtain ⟨content, rest, rfl, hrest, rfl⟩ := ih hj
    exact ⟨'\'' :: content, rest, by simp, hrest, by simp⟩
  | case5 d cs hd => exact ⟨[], d :: cs, by simp_all⟩
  | case6 c d cs hc ih =>
    obtain ⟨j, hj, rfl⟩ := Option.map_eq_some_iff.1 h
    obtain ⟨content, rest, hcs, hrest, rfl⟩ := ih hj
    exact ⟨c :: content, rest, by simp [doubled_cons_of_ne hc, hcs], hrest,
      by simp [doubled_cons_of_ne hc]⟩

lemma stringLiteralEnd_quoted {rest : List Char} (h : rest.head? ≠ some '\'')
    (content : List Char) :
    stringLiteralEnd (quoted content ++ rest) = some (quoted content).length := by
  simp [quoted, stringLiteralEnd, closingQuoteEnd_doubled h]

lemma skipStringLiteral_quoted (h : rest.head? ≠ some '\'')
    (content : List Char) : skipStringLiteral (quoted content ++ rest) = rest := by
  simp [skipStringLiteral, stringLiteralEnd_quoted h]

lemma quote_cases (cs : List Char) :
    (∃ content rest, '\'' :: cs = quoted content ++ rest ∧ rest.head? ≠ some '\'') ∨
      skipStringLiteral ('\'' :: cs) = [] := by
  cases hend : closingQuoteEnd cs with
  | none => exact .inr (by simp [skipStringLiteral, stringLiteralEnd, hend])
  | some k =>
    obtain ⟨content, rest, rfl, hrest, -⟩ := exists_of_closingQuoteEnd hend
    exact .inl ⟨content, rest, by simp [quoted], hrest⟩

lemma isStringLiteral_iff : isStringLiteral cs = true ↔ ∃ content, cs = quoted content := by
  rw [isStringLiteral, beq_iff_eq]
  constructor
  · intro h
    unfold stringLiteralEnd at h
    split at h
    · next cs =>
      obtain ⟨k, hk, hlen⟩ := Option.map_eq_some_iff.1 h
      obtain ⟨content, rest, rfl, -, rfl⟩ := exists_of_closingQuoteEnd hk
      have hrest : rest = [] := by
        simp only [List.length_cons, List.length_append] at hlen
        exact List.length_eq_zero_iff.1 (by omega)
      exact ⟨content, by simp [quoted, hrest]⟩
    · cases h
  · rintro ⟨content, rfl⟩
    simpa using @stringLiteralEnd_quoted [] (by simp) content

lemma collapseQuotes_doubled (content : List Char) :
    collapseQuotes (doubled '\'' content) = content := by
  induction content with
  | nil => rfl
  | cons c content ih =>
    by_cases hc : c = '\''
    · subst hc
      simp [collapseQuotes, ih]
    · rw [doubled_cons_of_ne hc]
      cases htail : doubled '\'' content with
      | nil => simp_all [collapseQuotes]
      | cons d tail => rw [collapseQuotes, if_neg (by simp [hc]), ← htail, ih]

lemma unquotePostgresStringLiteral_quoted (content : List Char) :
    unquotePostgresStringLiteral (quoted content) = some content := by
  rw [unquotePostgresStringLiteral, if_pos (isStringLiteral_iff.2 ⟨content, rfl⟩)]
  simp [quoted, collapseQuotes_doubled]

/-! ## What the scanners step over -/

/-- Parentheses outside strings are balanced, and strings are ended. -/
inductive Balanced : List Char → Prop
  | nil : Balanced []
  | plain {c : Char} {x : List Char} (hquote : c ≠ '\'') (hopen : c ≠ '(') (hclose : c ≠ ')')
      (h : Balanced x) : Balanced (c :: x)
  | string (content : List Char) {x : List Char} (hx : x.head? ≠ some '\'') (h : Balanced x) :
      Balanced (quoted content ++ x)
  | parens {x y : List Char} (hx : Balanced x) (hy : Balanced y) : Balanced ('(' :: x ++ ')' :: y)

lemma Balanced.append {x y : List Char} (hx : Balanced x) (hy : Balanced y)
    (hquote : y.head? ≠ some '\'') : Balanced (x ++ y) := by
  induction hx with
  | nil => exact hy
  | plain h₁ h₂ h₃ _ ih => exact .plain h₁ h₂ h₃ ih
  | @string content x hx _ ih =>
    rw [List.append_assoc]
    refine .string content ?_ ih
    cases x with
    | nil => exact hquote
    | cons c x => exact hx
  | parens hx _ _ ihy =>
    rw [List.append_assoc, List.cons_append]
    exact .parens hx ihy

lemma balanced_of_forall {x : List Char}
    (h : ∀ c ∈ x, c ≠ '\'' ∧ c ≠ '(' ∧ c ≠ ')') : Balanced x := by
  induction x with
  | nil => exact .nil
  | cons c x ih =>
    obtain ⟨hquote, hopen, hclose⟩ := h c List.mem_cons_self
    exact .plain hquote hopen hclose (ih fun d hd => h d (List.mem_cons_of_mem _ hd))

section Scanners

variable {rest : List Char} (d : ℕ)

lemma topLevelCastStartFrom_quoted (h : rest.head? ≠ some '\'') (content : List Char) :
    topLevelCastStartFrom d (quoted content ++ rest) =
      (topLevelCastStartFrom d rest).map (· + (quoted content).length) := by
  have hskip := skipStringLiteral_quoted h content
  obtain ⟨tail, htail⟩ : ∃ tail, quoted content ++ rest = '\'' :: tail := ⟨_, rfl⟩
  rw [htail] at hskip ⊢
  rw [topLevelCastStartFrom, if_pos rfl, hskip, ← htail]
  simp

lemma topLevelCastStartFrom_plain {c : Char} (h₁ : c ≠ '\'') (h₂ : c ≠ '(') (h₃ : c ≠ ')')
    (h : c ≠ ':' ∨ d ≠ 0 ∨ rest.head? ≠ some ':') :
    topLevelCastStartFrom d (c :: rest) = (topLevelCastStartFrom d rest).map (· + 1) := by
  rw [topLevelCastStartFrom, if_neg h₁, if_neg h₂, if_neg h₃, if_neg (by tauto)]

lemma topLevelCastStartFrom_open :
    topLevelCastStartFrom d ('(' :: rest) = (topLevelCastStartFrom (d + 1) rest).map (· + 1) := by
  simp [topLevelCastStartFrom]

lemma topLevelCastStartFrom_close :
    topLevelCastStartFrom d (')' :: rest) = (topLevelCastStartFrom (d - 1) rest).map (· + 1) := by
  simp [topLevelCastStartFrom]

lemma hasTopLevelBinaryOperatorFrom_quoted (b : Bool) (h : rest.head? ≠ some '\'')
    (content : List Char) :
    hasTopLevelBinaryOperatorFrom b d (quoted content ++ rest) =
      hasTopLevelBinaryOperatorFrom false d rest := by
  have hskip := skipStringLiteral_quoted h content
  obtain ⟨tail, htail⟩ : ∃ tail, quoted content ++ rest = '\'' :: tail := ⟨_, rfl⟩
  rw [htail] at hskip ⊢
  rw [hasTopLevelBinaryOperatorFrom, if_pos rfl, hskip]

lemma closesAtEnd_quoted (h : rest.head? ≠ some '\'') (content : List Char) :
    closesAtEnd d (quoted content ++ rest) = closesAtEnd d rest := by
  have hskip := skipStringLiteral_quoted h content
  obtain ⟨tail, htail⟩ : ∃ tail, quoted content ++ rest = '\'' :: tail := ⟨_, rfl⟩
  rw [htail] at hskip ⊢
  rw [closesAtEnd, if_pos rfl, hskip]

variable {d}

variable {x : List Char}

lemma Balanced.topLevelCastStartFrom (h : Balanced x) (hrest : rest.head? ≠ some '\'') :
    topLevelCastStartFrom (d + 1) (x ++ rest) =
      (topLevelCastStartFrom (d + 1) rest).map (· + x.length) := by
  induction h generalizing d rest with
  | nil => simp
  | @plain c x h₁ h₂ h₃ _ ih =>
    rw [List.cons_append, topLevelCastStartFrom_plain _ h₁ h₂ h₃ (.inr (.inl d.succ_ne_zero)),
      ih hrest, Option.map_map]
    congr 1
  | @string content x hx _ ih =>
    rw [List.append_assoc, topLevelCastStartFrom_quoted _ (by cases x <;> simp_all), ih hrest,
      Option.map_map]
    congr 1
    funext i
    simp
    omega
  | @parens x y _ _ ihx ihy =>
    have hxy : '(' :: x ++ ')' :: y ++ rest = '(' :: (x ++ ')' :: (y ++ rest)) := by simp
    rw [hxy, topLevelCastStartFrom_open, ihx (by simp), topLevelCastStartFrom_close,
      Nat.add_sub_cancel, ihy hrest, Option.map_map, Option.map_map, Option.map_map]
    congr 1
    funext i
    simp
    omega

lemma Balanced.hasTopLevelBinaryOperatorFrom (h : Balanced x) (hrest : rest.head? ≠ some '\'') :
    hasTopLevelBinaryOperatorFrom false (d + 1) (x ++ rest) =
      hasTopLevelBinaryOperatorFrom false (d + 1) rest := by
  induction h generalizing d rest with
  | nil => rfl
  | @plain c x h₁ h₂ h₃ _ ih =>
    rw [List.cons_append, DefaultExpression.hasTopLevelBinaryOperatorFrom]
    simp [h₁, h₂, h₃, ih hrest]
  | @string content x hx _ ih =>
    rw [List.append_assoc, hasTopLevelBinaryOperatorFrom_quoted _ _ (by cases x <;> simp_all),
      ih hrest]
  | @parens x y _ _ ihx ihy =>
    have hxy : '(' :: x ++ ')' :: y ++ rest = '(' :: (x ++ ')' :: (y ++ rest)) := by simp
    rw [hxy, DefaultExpression.hasTopLevelBinaryOperatorFrom]
    simp only [Char.reduceEq, if_false, if_true]
    rw [ihx (by simp), DefaultExpression.hasTopLevelBinaryOperatorFrom]
    simp [ihy hrest]

lemma Balanced.closesAtEnd (h : Balanced x) (hrest : rest.head? ≠ some '\'') :
    closesAtEnd (d + 1) (x ++ rest) = closesAtEnd (d + 1) rest := by
  induction h generalizing d rest with
  | nil => rfl
  | @plain c x h₁ h₂ h₃ _ ih =>
    rw [List.cons_append, DefaultExpression.closesAtEnd]
    simp [h₁, h₂, h₃, ih hrest]
  | @string content x hx _ ih =>
    rw [List.append_assoc, closesAtEnd_quoted _ (by cases x <;> simp_all), ih hrest]
  | @parens x y _ _ ihx ihy =>
    have hxy : '(' :: x ++ ')' :: y ++ rest = '(' :: (x ++ ')' :: (y ++ rest)) := by simp
    rw [hxy, DefaultExpression.closesAtEnd]
    simp only [Char.reduceEq, if_false, if_true]
    rw [ihx (by simp), DefaultExpression.closesAtEnd]
    simp [ihy hrest]

end Scanners

/-! ## Casts -/

lemma exists_of_topLevelCastStartFrom {d i : ℕ} (h : topLevelCastStartFrom d cs = some i) :
    ∃ p q, cs = p ++ ':' :: ':' :: q ∧ p.length = i ∧ topLevelCastStartFrom d p = none := by
  fun_induction topLevelCastStartFrom d cs generalizing i with
  | case1 => cases h
  | case2 d cs ih =>
    obtain ⟨j, hj, rfl⟩ := Option.map_eq_some_iff.1 h
    obtain ⟨content, rest, hcs, hrest⟩ | hskip := quote_cases cs
    · rw [hcs, skipStringLiteral_quoted hrest] at hj ih ⊢
      obtain ⟨p, q, rfl, rfl, hp⟩ := ih hj
      refine ⟨quoted content ++ p, q, by simp, by simp; omega, ?_⟩
      rw [topLevelCastStartFrom_quoted d (by cases p <;> simp_all), hp]
      rfl
    · rw [hskip, topLevelCastStartFrom] at hj
      cases hj
  | case3 d cs _ ih =>
    obtain ⟨j, hj, rfl⟩ := Option.map_eq_some_iff.1 h
    obtain ⟨p, q, rfl, rfl, hp⟩ := ih hj
    exact ⟨'(' :: p, q, rfl, rfl, by rw [topLevelCastStartFrom_open, hp]; rfl⟩
  | case4 d cs _ _ ih =>
    obtain ⟨j, hj, rfl⟩ := Option.map_eq_some_iff.1 h
    obtain ⟨p, q, rfl, rfl, hp⟩ := ih hj
    exact ⟨')' :: p, q, rfl, rfl, by rw [topLevelCastStartFrom_close, hp]; rfl⟩
  | case5 d c cs _ _ _ hcast =>
    obtain ⟨rfl, rfl, hhead⟩ := hcast
    obtain ⟨q, rfl⟩ := List.head?_eq_some_iff.1 hhead
    cases h
    exact ⟨[], q, rfl, rfl, by rw [topLevelCastStartFrom]⟩
  | case6 d c cs h₁ h₂ h₃ hcast ih =>
    obtain ⟨j, hj, rfl⟩ := Option.map_eq_some_iff.1 h
    obtain ⟨p, q, rfl, rfl, hp⟩ := ih hj
    refine ⟨c :: p, q, rfl, rfl, ?_⟩
    rw [topLevelCastStartFrom_plain d h₁ h₂ h₃ (by cases p <;> grind), hp]
    rfl

lemma ne_of_isWhiteSpace {c : Char} (h : isWhiteSpace c = true) :
    c ≠ '\'' ∧ c ≠ '(' ∧ c ≠ ')' ∧ c ≠ ':' := by
  refine ⟨?_, ?_, ?_, ?_⟩ <;> rintro rfl <;> simp [isWhiteSpace] at h

lemma head?_ne_of_blank {ws : List Char} {c : Char} (h : Blank ws)
    (hc : isWhiteSpace c = false) (hrest : rest.head? ≠ some c) : (ws ++ rest).head? ≠ some c := by
  cases ws with
  | nil => exact hrest
  | cons d ws =>
    have hd := h d List.mem_cons_self
    rintro ⟨⟩
    simp [hc] at hd

lemma topLevelCastStartFrom_blank_append {ws : List Char} (h : Blank ws) (d : ℕ)
    (cs : List Char) :
    topLevelCastStartFrom d (ws ++ cs) = (topLevelCastStartFrom d cs).map (· + ws.length) := by
  induction ws with
  | nil => simp
  | cons c ws ih =>
    obtain ⟨h₁, h₂, h₃, h₄⟩ := ne_of_isWhiteSpace (h c List.mem_cons_self)
    rw [List.cons_append, topLevelCastStartFrom_plain d h₁ h₂ h₃ (.inl h₄),
      ih fun c hc => h c (List.mem_cons_of_mem _ hc), Option.map_map]
    congr 1

lemma topLevelCastStartFrom_append {d i : ℕ}
    (h : topLevelCastStartFrom d cs = some i) (hrest : rest.head? ≠ some '\'') :
    topLevelCastStartFrom d (cs ++ rest) = some i := by
  fun_induction topLevelCastStartFrom d cs generalizing i with
  | case1 => cases h
  | case2 d cs ih =>
    obtain ⟨j, hj, rfl⟩ := Option.map_eq_some_iff.1 h
    obtain ⟨content, tail, hcs, htail⟩ | hskip := quote_cases cs
    · rw [hcs, skipStringLiteral_quoted htail] at hj ih ⊢
      rw [List.append_assoc, topLevelCastStartFrom_quoted d (by cases tail <;> simp_all), ih hj]
      simp
    · rw [hskip, topLevelCastStartFrom] at hj
      cases hj
  | case3 d cs _ ih =>
    obtain ⟨j, hj, rfl⟩ := Option.map_eq_some_iff.1 h
    rw [List.cons_append, topLevelCastStartFrom_open, ih hj]
    rfl
  | case4 d cs _ _ ih =>
    obtain ⟨j, hj, rfl⟩ := Option.map_eq_some_iff.1 h
    rw [List.cons_append, topLevelCastStartFrom_close, ih hj]
    rfl
  | case5 d c cs h₁ h₂ h₃ hcast =>
    obtain ⟨rfl, rfl, hhead⟩ := hcast
    obtain ⟨q, rfl⟩ := List.head?_eq_some_iff.1 hhead
    simpa [topLevelCastStartFrom] using h
  | case6 d c cs h₁ h₂ h₃ hcast ih =>
    obtain ⟨j, hj, rfl⟩ := Option.map_eq_some_iff.1 h
    have hne : cs ≠ [] := by
      rintro rfl
      simp [topLevelCastStartFrom] at hj
    rw [List.cons_append, topLevelCastStartFrom_plain d h₁ h₂ h₃ (by cases cs <;> grind), ih hj]
    rfl

lemma topLevelCastStart_trim (h : topLevelCastStart cs = none) :
    topLevelCastStart (trim cs) = none := by
  obtain ⟨ws, ws', hcs, hws, hws'⟩ := exists_eq_append_trim cs
  rw [topLevelCastStart, hcs, List.append_assoc, topLevelCastStartFrom_blank_append hws,
    Option.map_eq_none_iff] at h
  cases hfound : topLevelCastStart (trim cs) with
  | none => rfl
  | some i =>
    have hquote : ws'.head? ≠ some '\'' := by
      intro hhead
      have hblank := hws' _ (List.mem_of_mem_head? hhead)
      simp [isWhiteSpace] at hblank
    rw [topLevelCastStartFrom_append hfound hquote] at h
    cases h

def CastSuffix (T : List Char → Prop) (s : List Char) : Prop :=
  ∃ ws ws' t, Blank ws ∧ Blank ws' ∧ T t ∧ s = ws ++ ':' :: ':' :: (ws' ++ t)

variable {e : List Char}

lemma exists_of_trailingCast {subject t : List Char} (he : trim e = e)
    (h : trailingCast e = some (subject, t)) :
    ∃ s, e = subject ++ s ∧ CastSuffix (· = t) s ∧ trim subject = subject ∧
      topLevelCastStart subject = none := by
  obtain ⟨i, hi, h⟩ := Option.bind_eq_some_iff.1 h
  obtain ⟨p, q, rfl, rfl, hp⟩ := exists_of_topLevelCastStartFrom hi
  have hdrop : (p ++ ':' :: ':' :: q).drop (p.length + 2) = q := by
    rw [List.drop_append]
    simp
  simp only [hdrop, List.take_left] at h
  split at h
  · next hcond =>
    obtain ⟨rfl, rfl⟩ := Prod.mk.inj (Option.some.inj h)
    -- the white space around the whole text is gone already
    obtain ⟨ws₁, ws₂, hpws, hws₁, hws₂⟩ := exists_eq_append_trim p
    obtain ⟨ws₃, ws₄, hqws, hws₃, hws₄⟩ := exists_eq_append_trim q
    have hfront : ws₁ = [] := by
      refine @eq_nil_of_trim_blank_append _ (trim p ++ ws₂ ++ ':' :: ':' :: q) hws₁ ?_
      rw [hpws] at he
      simpa using he
    have hback : ws₄ = [] := by
      refine @eq_nil_of_trim_append_blank _ (p ++ ':' :: ':' :: (ws₃ ++ trim q)) hws₄ ?_
      rw [hqws] at he
      simpa using he
    subst hfront hback
    refine ⟨ws₂ ++ ':' :: ':' :: (ws₃ ++ trim q), ?_, ⟨ws₂, ws₃, trim q, hws₂, hws₃, rfl, rfl⟩,
      trim_trim p, topLevelCastStart_trim hp⟩
    conv_lhs => rw [hpws, hqws]
    simp
  · cases h

/-! ## Parentheses -/

lemma stripOuterParens_parens {inner : List Char} (he : trim e = '(' :: (inner ++ [')']))
    (h : closesAtEnd 0 (trim e) = true) : stripOuterParens e = trim inner := by
  rw [stripOuterParens, if_pos ⟨by simp [he], by simp [he, List.getLast?_cons], h⟩, he]
  simp

lemma stripOuterParens_cases (e : List Char) :
    stripOuterParens e = trim e ∨
      ∃ inner, trim e = '(' :: (inner ++ [')']) ∧ stripOuterParens e = trim inner := by
  by_cases h : (trim e).head? = some '(' ∧ (trim e).getLast? = some ')' ∧
      closesAtEnd 0 (trim e) = true
  · obtain ⟨hhead, hlast, hcloses⟩ := h
    obtain ⟨front, hfront⟩ := List.getLast?_eq_some_iff.1 hlast
    obtain ⟨inner, rfl⟩ : ∃ inner, front = '(' :: inner := by
      cases front with
      | nil => simp [hfront] at hhead
      | cons c inner => exact ⟨inner, by simpa [hfront] using hhead⟩
    exact .inr ⟨inner, hfront, stripOuterParens_parens hfront hcloses⟩
  · exact .inl (by rw [stripOuterParens, if_neg h])

/-! ## One turn of the normalisation -/

def turn (e : List Char) : List Char := stripOuterParens (stripPostgresCast e)

def OptCast (T : List Char → Prop) (s : List Char) : Prop := s = [] ∨ CastSuffix T s

/-- A turn takes off an optional cast, and the parentheses around its subject. -/
lemma turn_cases (he : trim e = e) :
    ∃ y s, e = y ++ s ∧ OptCast (fun t => (trailingCast e).map Prod.snd = some t) s ∧
      (turn e = y ∧ (s ≠ [] → turn y = y) ∨
        ∃ inner, y = '(' :: (inner ++ [')']) ∧ turn e = trim inner) := by
  cases hcast : trailingCast e with
  | none =>
    have hturn : turn e = stripOuterParens e := by simp [turn, stripPostgresCast, hcast]
    refine ⟨e, [], by simp, .inl rfl, ?_⟩
    rw [hturn]
    obtain h | ⟨inner, hinner, h⟩ := stripOuterParens_cases e
    · exact .inl ⟨h.trans he, by simp⟩
    · exact .inr ⟨inner, he ▸ hinner, h⟩
  | some cast =>
    obtain ⟨subject, t⟩ := cast
    have hturn : turn e = stripOuterParens subject := by simp [turn, stripPostgresCast, hcast]
    obtain ⟨s, hs, hsuffix, htrim, hnone⟩ := exists_of_trailingCast he hcast
    refine ⟨subject, s, hs, .inr ?_, ?_⟩
    · simpa [eq_comm] using hsuffix
    rw [hturn]
    obtain h | ⟨inner, hinner, h⟩ := stripOuterParens_cases subject
    · have hsubject : turn subject = subject := by
        have hcast' : trailingCast subject = none := by simp [trailingCast, hnone]
        rw [turn, stripPostgresCast, hcast']
        exact h.trans htrim
      exact .inl ⟨h.trans htrim, fun _ => hsubject⟩
    · exact .inr ⟨inner, htrim ▸ hinner, h⟩

/-! ## The wrappers around a core -/

/-- An optional cast follows the core, and each pair of parentheses. -/
inductive Wrapped (T : List Char → Prop) (core : List Char) : List Char → Prop
  | core {s : List Char} (hs : OptCast T s) : Wrapped T core (core ++ s)
  | parens {ws e ws' s : List Char} (hws : Blank ws) (h : Wrapped T core e) (hws' : Blank ws')
      (hs : OptCast T s) : Wrapped T core ('(' :: (ws ++ e ++ ws' ++ [')']) ++ s)

lemma OptCast.mono {T T' : List Char → Prop} (hT : ∀ t, T t → T' t) {s : List Char}
    (h : OptCast T s) : OptCast T' s := by
  obtain h | ⟨ws, ws', t, hws, hws', ht, rfl⟩ := h
  · exact .inl h
  · exact .inr ⟨ws, ws', t, hws, hws', hT t ht, rfl⟩

lemma Wrapped.mono {T T' : List Char → Prop} (hT : ∀ t, T t → T' t) {core : List Char}
    (h : Wrapped T core e) : Wrapped T' core e := by
  induction h with
  | core hs => exact .core (hs.mono hT)
  | parens hws _ hws' hs ih => exact .parens hws ih hws' (hs.mono hT)

lemma byteLen_append (xs ys : List Char) : byteLen (xs ++ ys) = byteLen xs + byteLen ys := by
  simp [byteLen]

lemma byteLen_cons (c : Char) (xs : List Char) : byteLen (c :: xs) = c.utf8Size + byteLen xs := by
  simp [byteLen]

lemma byteLen_pos {xs : List Char} (h : xs ≠ []) : 0 < byteLen xs := by
  obtain ⟨c, xs, rfl⟩ := List.exists_cons_of_ne_nil h
  rw [byteLen_cons]
  have := c.utf8Size_pos
  omega

lemma byteLen_turn_lt (he : trim e = e) (h : turn e ≠ e) : byteLen (turn e) < byteLen e := by
  obtain ⟨y, s, hs, -, ⟨hy, -⟩ | ⟨inner, rfl, hinner⟩⟩ := turn_cases he
  · have hne : s ≠ [] := by
      rintro rfl
      rw [List.append_nil] at hs
      exact h (hy.trans hs.symm)
    rw [hy, hs, byteLen_append]
    have := byteLen_pos hne
    omega
  · obtain ⟨ws, ws', htrim, -, -⟩ := exists_eq_append_trim inner
    have hle : byteLen (trim inner) ≤ byteLen inner := by
      conv_rhs => rw [htrim, byteLen_append, byteLen_append]
      omega
    rw [hinner, hs, byteLen_append, byteLen_cons, byteLen_append]
    have := Char.utf8Size_pos '('
    omega

lemma trim_turn (e : List Char) : trim (turn e) = turn e := by
  obtain h | ⟨inner, -, h⟩ := stripOuterParens_cases (stripPostgresCast e)
  · rw [turn, h, trim_trim]
  · rw [turn, h, trim_trim]

def strippedCastsFrom : ℕ → List Char → List (List Char)
  | 0, _ => []
  | n + 1, e =>
    if turn e = e then []
    else ((trailingCast e).map Prod.snd).toList ++ strippedCastsFrom n (turn e)

def strippedCasts (expression : List Char) : List (List Char) :=
  strippedCastsFrom (byteLen (trim expression)) (trim expression)

lemma normalizeFrom_succ (he : trim e = e) (n : ℕ) :
    normalizeFrom (n + 1) e = if turn e = e then e else normalizeFrom n (turn e) := by
  rw [normalizeFrom]
  by_cases h : turn e = e
  · rw [if_pos h]
    exact if_pos h
  · rw [if_neg h]
    exact (if_neg h).trans (if_neg (not_le.2 (byteLen_turn_lt he h)))

lemma normalizeFrom_of_turn_eq (h : turn e = e) (n : ℕ) : normalizeFrom n e = e := by
  cases n with
  | zero => rfl
  | succ n =>
    rw [normalizeFrom]
    exact if_pos h

lemma turn_nil : turn [] = [] := by
  have hstart : topLevelCastStart [] = none := by rw [topLevelCastStart, topLevelCastStartFrom]
  simp [turn, stripPostgresCast, trailingCast, hstart, stripOuterParens, trim, trimStart, trimEnd]

lemma turn_normalizeFrom {n : ℕ} (he : trim e = e) (hn : byteLen e ≤ n) :
    turn (normalizeFrom n e) = normalizeFrom n e ∧
      trim (normalizeFrom n e) = normalizeFrom n e := by
  induction n generalizing e with
  | zero =>
    have hnil : e = [] := by
      by_contra hne
      have := byteLen_pos hne
      omega
    subst hnil
    exact ⟨turn_nil, he⟩
  | succ n ih =>
    rw [normalizeFrom_succ he]
    split
    · next h => exact ⟨h, he⟩
    · next h =>
      have hlt := byteLen_turn_lt he h
      exact ih (trim_turn e) (by omega)

lemma wrapped_normalizeFrom {n : ℕ} (he : trim e = e) (hn : byteLen e ≤ n) :
    Wrapped (· ∈ strippedCastsFrom n e) (normalizeFrom n e) e := by
  induction n generalizing e with
  | zero => simpa [normalizeFrom] using (Wrapped.core (.inl rfl) : Wrapped _ e (e ++ []))
  | succ n ih =>
    rw [normalizeFrom_succ he, strippedCastsFrom]
    by_cases h : turn e = e
    · simpa [h] using (Wrapped.core (.inl rfl) : Wrapped _ e (e ++ []))
    rw [if_neg h, if_neg h]
    have hlt := byteLen_turn_lt he h
    have hrest := ih (trim_turn e) (by omega)
    have hmono : ∀ t, (trailingCast e).map Prod.snd = some t →
        t ∈ ((trailingCast e).map Prod.snd).toList ++ strippedCastsFrom n (turn e) := by
      intro t ht
      simp [ht]
    obtain ⟨y, s, hs, hcast, ⟨hy, hstop⟩ | ⟨inner, rfl, hinner⟩⟩ := turn_cases he
    · -- a cast without parentheses: there is no other cast before it, so this was the last turn
      have hne : s ≠ [] := by
        rintro rfl
        rw [List.append_nil] at hs
        exact h (hy.trans hs.symm)
      rw [hy, normalizeFrom_of_turn_eq (hstop hne)]
      conv => arg 3; rw [hs]
      exact .core (hcast.mono (hy ▸ hmono))
    · obtain ⟨ws, ws', htrim, hws, hws'⟩ := exists_eq_append_trim inner
      rw [hinner] at hrest ⊢
      conv => arg 3; rw [hs, htrim]
      refine .parens hws (hrest.mono fun t ht => ?_) hws' (hcast.mono fun t ht => ?_)
      · exact List.mem_append_right _ ht
      · exact hinner ▸ hmono t ht

lemma normalizePostgresExpression_idem (e : List Char) :
    normalizePostgresExpression (normalizePostgresExpression e) = normalizePostgresExpression e := by
  obtain ⟨hturn, htrim⟩ := turn_normalizeFrom (trim_trim e) le_rfl
  rw [normalizePostgresExpression, normalizePostgresExpression, htrim]
  exact normalizeFrom_of_turn_eq hturn _

end Etl.DefaultExpression
