import Etl.Postgres.DefaultNormalization

/-!
# Defaults that are literals

A wrapped literal is normalised to the literal (`Wrapped.normalizeFrom`). `sound_iff` says where the
parser is sound: not where `text IS NULL` is taken off as a cast, nor where a string literal holds
the syntax that the portability check looks for.
-/

namespace Etl.DefaultExpression

open Text

/-! ## Literals -/

inductive Literal where
  | string (content : List Char)
  | numeric (text : List Char) (h : isNumericLiteral text = true)
  | bool (text : List Char) (h : isBoolLiteral text = true)

def Literal.text : Literal → List Char
  | .string content => quoted content
  | .numeric text _ => text
  | .bool text _ => text

/-- A string in a boolean or numeric column stands for its content. -/
def Literal.value (typ : PgType) : Literal → Option DefaultExpression
  | .string content =>
    if isOneOf ["BOOL"] typ then
      if isBoolLiteral content then some (.booleanLiteral content) else none
    else if isNumericType typ then
      if isNumericLiteral content then some (.numericLiteral content) else none
    else parseStringLiteral (quoted content) typ
  | .numeric text _ => some (parseNumericLiteral text typ)
  | .bool text _ => some (parseBoolLiteral text typ)

lemma parseStringLiteral_quoted (content : List Char) (typ : PgType) :
    parseStringLiteral (quoted content) typ = (Literal.string content).value typ := by
  rw [Literal.value]
  split
  · next h => simp [parseStringLiteral, h, unquotePostgresStringLiteral_quoted]
  split
  · next h h' => simp [parseStringLiteral, h, h', unquotePostgresStringLiteral_quoted]
  · rfl

def IsWordChar (c : Char) : Prop := isWhiteSpace c = false ∧ c ∉ "'():+-*/%|[".toList

variable {c : Char}

lemma isWordChar_of_isDigit (h : c.isDigit = true) : IsWordChar c := by
  have hnat : 48 ≤ c.toNat ∧ c.toNat ≤ 57 := by
    simpa [Char.isDigit, UInt32.le_iff_toNat_le] using h
  have hspecial : ∀ d ∈ "'():+-*/%|[".toList, d.isDigit = false := by simp
  refine ⟨?_, fun hmem => by simp [hspecial c hmem] at h⟩
  simp only [isWhiteSpace, Bool.or_eq_false_iff, Bool.and_eq_false_iff, decide_eq_false_iff_not]
  omega

variable {b' : Bool} {cs : List Char}

lemma isDigit_or_point {b : Bool}
    (h : isNumericLiteralFrom b b' cs = true) : ∀ c ∈ cs, c.isDigit = true ∨ c = '.' := by
  fun_induction isNumericLiteralFrom b b' cs with
  | case1 => simp
  | case2 _ _ c cs hdigit ih => exact List.forall_mem_cons.2 ⟨.inl hdigit, ih h⟩
  | case3 _ _ c cs _ hpoint ih => exact List.forall_mem_cons.2 ⟨.inr hpoint.1, ih h⟩
  | case4 => cases h

lemma isWordChar_of_isNumericLiteralFrom {b : Bool}
    (h : isNumericLiteralFrom b b' cs = true) : ∀ c ∈ cs, IsWordChar c := by
  intro c hc
  obtain hdigit | rfl := isDigit_or_point h c hc
  · exact isWordChar_of_isDigit hdigit
  · exact ⟨by simp [isWhiteSpace], by simp⟩

lemma isWordChar_of_isUpper (h : c.isUpper = true) : IsWordChar c := by
  have hnat : 65 ≤ c.toNat ∧ c.toNat ≤ 90 := by
    simpa [Char.isUpper, UInt32.le_iff_toNat_le] using h
  have hspecial : ∀ d ∈ "'():+-*/%|[".toList, d.isUpper = false := by simp
  refine ⟨?_, fun hmem => by simp [hspecial c hmem] at h⟩
  simp only [isWhiteSpace, Bool.or_eq_false_iff, Bool.and_eq_false_iff, decide_eq_false_iff_not]
  omega

lemma isUpper_or_toLower_eq (c : Char) : c.isUpper = true ∨ c.toLower = c := by
  by_cases h : c.isUpper = true
  · exact .inl h
  · exact .inr (by simp_all [Char.isUpper, UInt32.le_iff_toNat_le, Char.toLower])

variable {text : List Char}

lemma isWordChar_of_isBoolLiteral (h : isBoolLiteral text = true) : ∀ c ∈ text, IsWordChar c := by
  intro c hc
  obtain hupper | hlower := isUpper_or_toLower_eq c
  · exact isWordChar_of_isUpper hupper
  · have hmem : c ∈ text.map Char.toLower := hlower ▸ List.mem_map_of_mem hc
    simp only [isBoolLiteral, eqIgnoreAsciiCase, Bool.or_eq_true, decide_eq_true_eq] at h
    have htrue : ∀ d ∈ "true".toList.map Char.toLower, IsWordChar d := by
      simp [IsWordChar, isWhiteSpace]
    have hfalse : ∀ d ∈ "false".toList.map Char.toLower, IsWordChar d := by
      simp [IsWordChar, isWhiteSpace]
    obtain h | h := h
    · exact htrue c (h ▸ hmem)
    · exact hfalse c (h ▸ hmem)

def IsWord (x : List Char) : Prop :=
  ∃ sign word, x = sign ++ word ∧ (sign = [] ∨ sign = ['+'] ∨ sign = ['-']) ∧ word ≠ [] ∧
    ∀ c ∈ word, IsWordChar c

lemma isWord_of_isNumericLiteral (h : isNumericLiteral text = true) : IsWord text := by
  have hne : ∀ cs, isNumericLiteralFrom false false cs = true → cs ≠ [] := by
    rintro _ h rfl
    simp [isNumericLiteralFrom] at h
  cases text with
  | nil => exact absurd rfl (hne [] h)
  | cons c cs =>
    rw [isNumericLiteral] at h
    split at h
    · next hsign =>
      refine ⟨[c], cs, rfl, ?_, hne _ h, isWordChar_of_isNumericLiteralFrom h⟩
      obtain rfl | rfl := hsign <;> simp
    · exact ⟨[], c :: cs, rfl, .inl rfl, hne _ h, isWordChar_of_isNumericLiteralFrom h⟩

lemma isWord_of_isBoolLiteral (h : isBoolLiteral text = true) : IsWord text := by
  refine ⟨[], text, rfl, .inl rfl, ?_, isWordChar_of_isBoolLiteral h⟩
  rintro rfl
  simp [isBoolLiteral, eqIgnoreAsciiCase] at h

lemma Literal.text_cases (lit : Literal) :
    (∃ content, lit.text = quoted content) ∨ IsWord lit.text := by
  cases lit with
  | string content => exact .inl ⟨content, rfl⟩
  | numeric text h => exact .inr (isWord_of_isNumericLiteral h)
  | bool text h => exact .inr (isWord_of_isBoolLiteral h)

/-! ## What a cast or parentheses may follow -/

structure Subject (y : List Char) : Prop where
  trimmed : trim y = y
  balanced : Balanced y
  noOperator : hasTopLevelBinaryOperator y = false
  castStart {rest : List Char} (h : rest.head? ≠ some '\'') :
    topLevelCastStartFrom 0 (y ++ rest) = (topLevelCastStartFrom 0 rest).map (· + y.length)

lemma subject_quoted (content : List Char) : Subject (quoted content) where
  trimmed := trim_eq_self_of_ends (by simp [quoted, isWhiteSpace])
    (by simp [quoted, List.getLast?_cons, isWhiteSpace])
  balanced := by simpa using Balanced.string content (by simp) .nil
  noOperator := by
    have h := @hasTopLevelBinaryOperatorFrom_quoted [] 0 true (by simp) content
    rw [List.append_nil] at h
    rw [hasTopLevelBinaryOperator, h, hasTopLevelBinaryOperatorFrom]
  castStart h := topLevelCastStartFrom_quoted 0 h content

variable {x : List Char}

lemma subject_parens (h : Balanced x) : Subject ('(' :: (x ++ [')'])) where
  trimmed := trim_eq_self_of_ends (by simp [isWhiteSpace])
    (by simp [List.getLast?_cons, isWhiteSpace])
  balanced := by simpa using Balanced.parens h .nil
  noOperator := by
    rw [hasTopLevelBinaryOperator, hasTopLevelBinaryOperatorFrom]
    simp only [Char.reduceEq, if_false, if_true]
    rw [h.hasTopLevelBinaryOperatorFrom (by simp), hasTopLevelBinaryOperatorFrom]
    simp [hasTopLevelBinaryOperatorFrom]
  castStart {rest} hrest := by
    have hx : '(' :: (x ++ [')']) ++ rest = '(' :: (x ++ ')' :: rest) := by simp
    rw [hx, topLevelCastStartFrom_open, h.topLevelCastStartFrom (by simp),
      topLevelCastStartFrom_close, Option.map_map, Option.map_map]
    congr 1
    funext i
    simp
    omega

lemma hasTopLevelBinaryOperatorFrom_word (h : ∀ c ∈ x, IsWordChar c) (b : Bool) :
    hasTopLevelBinaryOperatorFrom b 0 x = false := by
  induction x generalizing b with
  | nil => rw [hasTopLevelBinaryOperatorFrom]
  | cons c x ih =>
    obtain ⟨-, hc⟩ := h c List.mem_cons_self
    rw [hasTopLevelBinaryOperatorFrom]
    simp_all

lemma topLevelCastStartFrom_word {rest : List Char} (h : ∀ c ∈ x, c ∉ "'():".toList) :
    topLevelCastStartFrom 0 (x ++ rest) = (topLevelCastStartFrom 0 rest).map (· + x.length) := by
  induction x with
  | nil => simp
  | cons c x ih =>
    have hc := h c List.mem_cons_self
    simp only [String.reduceToList, List.mem_cons, List.not_mem_nil, or_false, not_or] at hc
    rw [List.cons_append, topLevelCastStartFrom_plain 0 hc.1 hc.2.1 hc.2.2.1 (.inl hc.2.2.2),
      ih fun c hc => h c (List.mem_cons_of_mem _ hc), Option.map_map]
    congr 1

lemma subject_word (h : IsWord x) : Subject x := by
  obtain ⟨sign, word, rfl, hsign, hne, hword⟩ := h
  have hblank : ∀ c ∈ sign ++ word, isWhiteSpace c = false := by
    intro c hc
    obtain hc | hc := List.mem_append.1 hc
    · obtain rfl | rfl | rfl := hsign <;> simp_all [isWhiteSpace]
    · exact (hword c hc).1
  have hplain : ∀ c ∈ sign ++ word, c ∉ "'():".toList := by
    intro c hc
    obtain hc | hc := List.mem_append.1 hc
    · obtain rfl | rfl | rfl := hsign <;> simp_all
    · have := (hword c hc).2
      simp_all
  exact {
    trimmed := trim_eq_self hblank
    balanced := balanced_of_forall fun c hc => by
      have := hplain c hc
      simp_all
    noOperator := by
      have hrest := hasTopLevelBinaryOperatorFrom_word hword false
      obtain rfl | rfl | rfl := hsign
      · exact hasTopLevelBinaryOperatorFrom_word hword true
      · simpa [hasTopLevelBinaryOperator, hasTopLevelBinaryOperatorFrom] using hrest
      · simpa [hasTopLevelBinaryOperator, hasTopLevelBinaryOperatorFrom] using hrest
    castStart := fun _ => topLevelCastStartFrom_word hplain }

lemma Literal.subject (lit : Literal) : Subject lit.text := by
  obtain ⟨content, h⟩ | h := lit.text_cases
  · rw [h]
    exact subject_quoted content
  · exact subject_word h

/-! ## Normalising a wrapped literal -/

/-- A cast type the parser takes off wherever it stands. -/
structure IsCastType (t : List Char) : Prop where
  trimmed : trim t = t
  balanced : Balanced t
  accepted : isCastTypeName t = true

variable {T : List Char → Prop}

lemma head?_castSuffix {s : List Char} (h : CastSuffix T s) : s.head? ≠ some '\'' := by
  obtain ⟨ws, ws', t, hws, -, -, rfl⟩ := h
  exact head?_ne_of_blank hws (by simp [isWhiteSpace]) (by simp)

variable {t : List Char}

lemma IsCastType.ne_nil (h : IsCastType t) : t ≠ [] := by
  rintro rfl
  simpa [isCastTypeName] using h.accepted

variable {y : List Char}

lemma Subject.trailingCast_eq_none (h : Subject y) : trailingCast y = none := by
  have hstart := @h.castStart [] (by simp)
  rw [List.append_nil, topLevelCastStartFrom] at hstart
  simp [trailingCast, topLevelCastStart, hstart]

lemma Subject.trailingCast_append {s : List Char} (h : Subject y) (ht : IsCastType t)
    (hs : CastSuffix (· = t) s) : trailingCast (y ++ s) = some (y, t) := by
  obtain ⟨ws, ws', t, hws, hws', rfl, rfl⟩ := hs
  have hstart : topLevelCastStart (y ++ (ws ++ ':' :: ':' :: (ws' ++ t))) =
      some (y.length + ws.length) := by
    rw [topLevelCastStart, h.castStart (head?_ne_of_blank hws (by simp [isWhiteSpace]) (by simp)),
      topLevelCastStartFrom_blank_append hws, topLevelCastStartFrom]
    simp
    omega
  have htake : (y ++ (ws ++ ':' :: ':' :: (ws' ++ t))).take (y.length + ws.length) = y ++ ws := by
    rw [← List.append_assoc, ← List.length_append, List.take_left]
  have hdrop : (y ++ (ws ++ ':' :: ':' :: (ws' ++ t))).drop (y.length + ws.length + 2) =
      ws' ++ t := by
    rw [← List.append_assoc, ← List.length_append, List.drop_append]
    simp
  simp [trailingCast, hstart, htake, hdrop, trim_append_blank hws, trim_blank_append hws',
    h.trimmed, ht.trimmed, ht.accepted, h.noOperator]

lemma Balanced.blank_append {ws : List Char} (hws : Blank ws) (hx : Balanced x) :
    Balanced (ws ++ x) := by
  induction ws with
  | nil => exact hx
  | cons c ws ih =>
    obtain ⟨h₁, h₂, h₃, -⟩ := ne_of_isWhiteSpace (hws c List.mem_cons_self)
    exact .plain h₁ h₂ h₃ (ih fun c hc => hws c (List.mem_cons_of_mem _ hc))

lemma Literal.text_ne_nil (lit : Literal) : lit.text ≠ [] := by
  obtain ⟨content, h⟩ | ⟨sign, word, h, -, hne, -⟩ := lit.text_cases
  · simp [h, quoted]
  · simp [h, hne]

lemma Literal.head?_text (lit : Literal) : lit.text.head? ≠ some '(' := by
  obtain ⟨content, h⟩ | ⟨sign, word, h, hsign, hne, hword⟩ := lit.text_cases
  · simp [h, quoted]
  · obtain ⟨c, word, rfl⟩ := List.exists_cons_of_ne_nil hne
    have hc := (hword c List.mem_cons_self).2
    obtain rfl | rfl | rfl := hsign <;> simp_all

lemma Literal.stripOuterParens_text (lit : Literal) : stripOuterParens lit.text = lit.text := by
  rw [stripOuterParens, lit.subject.trimmed]
  exact if_neg fun h => lit.head?_text h.1

variable {e : List Char}

lemma stripOuterParens_balanced {ws ws' : List Char} (hws : Blank ws) (he : trim e = e)
    (hbalanced : Balanced e) (hws' : Blank ws') :
    Balanced (ws ++ e ++ ws') ∧ stripOuterParens ('(' :: (ws ++ e ++ ws' ++ [')'])) = e := by
  have hback : Balanced (e ++ ws') := by
    refine hbalanced.append (by simpa using Balanced.nil.blank_append hws') fun hhead => ?_
    exact (ne_of_isWhiteSpace (hws' _ (List.mem_of_mem_head? hhead))).1 rfl
  have hinner : Balanced (ws ++ e ++ ws') := by simpa using hback.blank_append hws
  refine ⟨hinner, ?_⟩
  have hcloses : closesAtEnd 0 ('(' :: (ws ++ e ++ ws' ++ [')'])) = true := by
    rw [closesAtEnd]
    simp only [Char.reduceEq, if_false, if_true]
    rw [hinner.closesAtEnd (by simp), closesAtEnd]
    simp [closesAtEnd]
  have htrim := (subject_parens hinner).trimmed
  rw [stripOuterParens_parens htrim (htrim.symm ▸ hcloses), trim_append_blank hws',
    trim_blank_append hws, he]

lemma normalizeFrom_turn {core : List Char} {n : ℕ} (he : trim e = e)
    (hne : turn e ≠ e) (hn : byteLen e ≤ n)
    (hcast : ∀ t, (trailingCast e).map Prod.snd = some t → T t) (hrest : ∀ m, byteLen (turn e) ≤ m →
      normalizeFrom m (turn e) = core ∧ ∀ t ∈ strippedCastsFrom m (turn e), T t) :
    normalizeFrom n e = core ∧ ∀ t ∈ strippedCastsFrom n e, T t := by
  have hlt := byteLen_turn_lt he hne
  obtain ⟨m, rfl⟩ : ∃ m, n = m + 1 := ⟨n - 1, by omega⟩
  obtain ⟨hcore, hcasts⟩ := hrest m (by omega)
  rw [normalizeFrom_succ he, if_neg hne, strippedCastsFrom, if_neg hne]
  refine ⟨hcore, fun t ht => ?_⟩
  obtain ht | ht := List.mem_append.1 ht
  · exact hcast t (by simpa using ht)
  · exact hcasts t ht

section Suffix

variable {T : List Char → Prop} {y s : List Char} (hT : ∀ t, T t → IsCastType t)
include hT

lemma Subject.trim_append (h : Subject y) (hne : y ≠ []) (hs : OptCast T s) :
    trim (y ++ s) = y ++ s := by
  obtain rfl | ⟨ws, ws', t, -, -, ht, rfl⟩ := hs
  · simpa using h.trimmed
  · obtain ⟨c, y, rfl⟩ := List.exists_cons_of_ne_nil hne
    have hlast : (c :: y ++ (ws ++ ':' :: ':' :: (ws' ++ t))).getLast? = t.getLast? := by
      obtain ⟨d, hd⟩ : ∃ d, t.getLast? = some d :=
        Option.isSome_iff_exists.1 (by simpa using (hT t ht).ne_nil)
      simp [List.getLast?_append, List.getLast?_cons, hd]
    refine trim_eq_self_of_ends ?_ ?_
    · simpa using head?_of_trim_eq_self h.trimmed c rfl
    · rw [hlast]
      exact getLast?_of_trim_eq_self (hT t ht).trimmed

lemma balanced_optCast (hs : OptCast T s) : Balanced s ∧ s.head? ≠ some '\'' := by
  obtain rfl | hs := hs
  · exact ⟨.nil, by simp⟩
  · refine ⟨?_, head?_castSuffix hs⟩
    obtain ⟨ws, ws', t, hws, hws', ht, rfl⟩ := hs
    exact .blank_append hws (.plain (by simp) (by simp) (by simp)
      (.plain (by simp) (by simp) (by simp) (.blank_append hws' (hT t ht).balanced)))

lemma Subject.turn_append (h : Subject y) (hs : OptCast T s) :
    turn (y ++ s) = stripOuterParens y ∧
      ∀ t, (trailingCast (y ++ s)).map Prod.snd = some t → T t := by
  obtain rfl | ⟨ws, ws', t, hws, hws', ht, rfl⟩ := hs
  · rw [List.append_nil, turn, stripPostgresCast, h.trailingCast_eq_none]
    exact ⟨rfl, by simp⟩
  · rw [turn, stripPostgresCast,
      h.trailingCast_append (hT t ht) ⟨ws, ws', t, hws, hws', rfl, rfl⟩]
    refine ⟨rfl, ?_⟩
    rintro _ ⟨⟩
    exact ht

variable {lit : Literal} {e : List Char}

lemma Wrapped.trim_balanced (h : Wrapped T lit.text e) : trim e = e ∧ Balanced e := by
  induction h with
  | core hs =>
    obtain ⟨hbalanced, hhead⟩ := balanced_optCast hT hs
    exact ⟨lit.subject.trim_append hT lit.text_ne_nil hs,
      lit.subject.balanced.append hbalanced hhead⟩
  | parens hws _ hws' hs ih =>
    obtain ⟨hbalanced, hhead⟩ := balanced_optCast hT hs
    have hsubject := subject_parens (stripOuterParens_balanced hws ih.1 ih.2 hws').1
    exact ⟨hsubject.trim_append hT (by simp) hs, hsubject.balanced.append hbalanced hhead⟩

lemma Wrapped.normalizeFrom (h : Wrapped T lit.text e) {n : ℕ} (hn : byteLen e ≤ n) :
    normalizeFrom n e = lit.text ∧ ∀ t ∈ strippedCastsFrom n e, T t := by
  have hstop : ∀ n, DefaultExpression.normalizeFrom n lit.text = lit.text ∧
      strippedCastsFrom n lit.text = [] := by
    have hturn : turn lit.text = lit.text := by
      have := (lit.subject.turn_append hT (.inl rfl)).1
      rwa [List.append_nil, lit.stripOuterParens_text] at this
    intro n
    refine ⟨normalizeFrom_of_turn_eq hturn n, ?_⟩
    cases n with
    | zero => rfl
    | succ n => rw [strippedCastsFrom, if_pos hturn]
  have htrim := (h.trim_balanced hT).1
  induction h generalizing n with
  | @core s hs =>
    obtain ⟨hturn, hcast⟩ := lit.subject.turn_append hT hs
    rw [lit.stripOuterParens_text] at hturn
    by_cases hne : s = []
    · subst hne
      rw [List.append_nil]
      exact ⟨(hstop n).1, by simp [(hstop n).2]⟩
    · refine normalizeFrom_turn htrim (by rw [hturn]; simpa using hne) hn hcast fun m _ => ?_
      rw [hturn]
      exact ⟨(hstop m).1, by simp [(hstop m).2]⟩
  | @parens ws e ws' s hws hwrapped hws' hs ih =>
    obtain ⟨he, hbalanced⟩ := hwrapped.trim_balanced hT
    obtain ⟨hinner, hstrip⟩ := stripOuterParens_balanced hws he hbalanced hws'
    obtain ⟨hturn, hcast⟩ := (subject_parens hinner).turn_append hT hs
    rw [hstrip] at hturn
    refine normalizeFrom_turn htrim ?_ hn hcast fun m hm => ?_
    · intro heq
      have hlen := congrArg List.length (hturn.symm.trans heq)
      simp at hlen
      omega
    · rw [hturn] at hm ⊢
      exact ih hm he

end Suffix

/-! ## Type names -/

def IsIdentifier (x : List Char) : Prop :=
  (∃ c y, x = c :: y ∧ (c.isAlpha ∨ c = '_') ∧ ∀ d ∈ y, d.isAlphanum ∨ d = '_') ∨
    ∃ y, x = '"' :: (y ++ ['"']) ∧ ∀ c ∈ y, c.isAlphanum ∨ c ∈ "_ .[],".toList

def IsModifier (x : List Char) : Prop :=
  x = [] ∨ ∃ y, x = '(' :: (y ++ [')']) ∧ ∀ c ∈ y, c.isDigit ∨ c = ','

def IsBounds (x : List Char) : Prop :=
  ∃ ns : List (List Char), x = (ns.map fun n => '[' :: (n ++ [']'])).flatten ∧
    ∀ n ∈ ns, ∀ c ∈ n, c.isDigit

def typePhrases : List (List Char × List Char) :=
  [("double", " precision"), ("character", " varying"), ("char", " varying"),
    ("national", " character"), ("national", " character varying"), ("national", " char"),
    ("bit", " varying"), ("time", " with time zone"), ("time", " without time zone"),
    ("timestamp", " with time zone"), ("timestamp", " without time zone"), ("interval", " year"),
    ("interval", " month"), ("interval", " day"), ("interval", " hour"), ("interval", " minute"),
    ("interval", " second"), ("interval", " year to month"), ("interval", " day to hour"),
    ("interval", " day to minute"), ("interval", " day to second"), ("interval", " hour to minute"),
    ("interval", " hour to second"), ("interval", " minute to second")].map
    fun p => (p.1.toList, p.2.toList)

inductive TypeName : List Char → Prop
  | named {parts : List (List Char)} {m b : List Char} (hne : parts ≠ [])
      (hparts : ∀ x ∈ parts, IsIdentifier x) (hm : IsModifier m) (hb : IsBounds b) :
      TypeName (['.'].intercalate parts ++ m ++ b)
  | phrase {first second m m' b : List Char}
      (h : (first.map Char.toLower, second.map Char.toLower) ∈ typePhrases) (hm : IsModifier m)
      (hm' : IsModifier m') (hb : IsBounds b) : TypeName (first ++ m ++ second ++ m' ++ b)

def isCastChar (c : Char) : Bool := c.isAlphanum || "_ \".[](),".toList.contains c

lemma isWhiteSpace_of_isAlphanum (h : c.isAlphanum = true) : isWhiteSpace c = false := by
  simp only [Char.isAlphanum, Char.isAlpha, Bool.or_eq_true] at h
  obtain (h | h) | h := h
  · exact (isWordChar_of_isUpper h).1
  · have hnat : 97 ≤ c.toNat ∧ c.toNat ≤ 122 := by
      simpa [Char.isLower, UInt32.le_iff_toNat_le] using h
    simp only [isWhiteSpace, Bool.or_eq_false_iff, Bool.and_eq_false_iff, decide_eq_false_iff_not]
    omega
  · exact (isWordChar_of_isDigit h).1

lemma ne_of_isCastChar (h : isCastChar c = true) : c ≠ '\'' := by
  rintro rfl
  simp [isCastChar] at h

lemma isAlphanum_of_isDigit (h : c.isDigit = true) : c.isAlphanum = true := by
  simp [Char.isAlphanum, h]

lemma isCastChar_of_isAlphanum (h : c.isAlphanum = true) :
    isCastChar c = true ∧ c ≠ '(' ∧ c ≠ ')' := by
  refine ⟨by simp [isCastChar, h], ?_, ?_⟩ <;> rintro rfl <;> simp at h

/-- Allowed characters, balanced parentheses, no white space at the end. -/
structure Piece (x : List Char) : Prop where
  chars : ∀ c ∈ x, isCastChar c = true
  balanced : Balanced x
  last : ∀ c ∈ x.getLast?, isWhiteSpace c = false

lemma Piece.append (hx : Piece x) (hy : Piece y) : Piece (x ++ y) where
  chars c hc := (List.mem_append.1 hc).elim (hx.chars c) (hy.chars c)
  balanced := hx.balanced.append hy.balanced fun hhead =>
    ne_of_isCastChar (hy.chars _ (List.mem_of_mem_head? hhead)) rfl
  last c hc := by
    rw [List.getLast?_append] at hc
    cases hlast : y.getLast? with
    | none => exact hx.last c (by simpa [hlast] using hc)
    | some d => exact hy.last c (by simpa [hlast] using hc)

lemma piece_nil : Piece [] := ⟨by simp, .nil, by simp⟩

lemma piece_of_chars (h : ∀ c ∈ x, isCastChar c = true ∧ c ≠ '(' ∧ c ≠ ')')
    (hlast : ∀ c ∈ x.getLast?, isWhiteSpace c = false) : Piece x :=
  ⟨fun c hc => (h c hc).1,
    balanced_of_forall fun c hc => ⟨ne_of_isCastChar (h c hc).1, (h c hc).2⟩, hlast⟩

lemma forall_mem_enclosed {P : Char → Prop} {a b : Char} (ha : P a)
    (hy : ∀ c ∈ y, P c) (hb : P b) : ∀ c ∈ a :: (y ++ [b]), P c :=
  List.forall_mem_cons.2 ⟨ha, List.forall_mem_append.2 ⟨hy, by simpa using hb⟩⟩

lemma IsModifier.piece (h : IsModifier x) : Piece x := by
  obtain rfl | ⟨y, rfl, hy⟩ := h
  · exact piece_nil
  have hchars : ∀ c ∈ y, isCastChar c = true ∧ c ≠ '(' ∧ c ≠ ')' := by
    intro c hc
    obtain h | rfl := hy c hc
    · exact isCastChar_of_isAlphanum (isAlphanum_of_isDigit h)
    · simp [isCastChar]
  refine ⟨forall_mem_enclosed (by simp [isCastChar]) (fun c hc => (hchars c hc).1)
    (by simp [isCastChar]), ?_, by simp [List.getLast?_cons, isWhiteSpace]⟩
  · refine .parens (balanced_of_forall fun c hc => ?_) .nil
    exact ⟨ne_of_isCastChar (hchars c hc).1, (hchars c hc).2⟩

lemma IsBounds.piece (h : IsBounds x) : Piece x := by
  obtain ⟨ns, rfl, hns⟩ := h
  induction ns with
  | nil => exact piece_nil
  | cons n ns ih =>
    rw [List.map_cons, List.flatten_cons]
    refine Piece.append (piece_of_chars ?_ (by simp [List.getLast?_cons, isWhiteSpace]))
      (ih fun m hm => hns m (List.mem_cons_of_mem _ hm))
    refine forall_mem_enclosed (by simp [isCastChar]) (fun c hc => ?_) (by simp [isCastChar])
    exact isCastChar_of_isAlphanum (isAlphanum_of_isDigit (hns n List.mem_cons_self c hc))

lemma IsIdentifier.piece (h : IsIdentifier x) :
    Piece x ∧ ∃ c y, x = c :: y ∧ isWhiteSpace c = false := by
  obtain ⟨c, y, rfl, hc, hy⟩ | ⟨y, rfl, hy⟩ := h
  · have hword : ∀ d ∈ c :: y, d.isAlphanum ∨ d = '_' := by
      refine List.forall_mem_cons.2 ⟨?_, hy⟩
      exact hc.imp_left fun h => by simp [Char.isAlphanum, h]
    have hsolid : ∀ d ∈ c :: y, isWhiteSpace d = false := by
      intro d hd
      obtain h | rfl := hword d hd
      · exact isWhiteSpace_of_isAlphanum h
      · simp [isWhiteSpace]
    refine ⟨piece_of_chars (fun d hd => ?_) fun d hd => hsolid d (List.mem_of_mem_getLast? hd), c, y,
      rfl, hsolid c List.mem_cons_self⟩
    obtain h | rfl := hword d hd
    · exact isCastChar_of_isAlphanum h
    · simp [isCastChar]
  · refine ⟨piece_of_chars (forall_mem_enclosed (by simp [isCastChar]) (fun d hd => ?_)
      (by simp [isCastChar])) (by simp [List.getLast?_cons, isWhiteSpace]), _, _, rfl,
      by simp [isWhiteSpace]⟩
    obtain h | h := hy d hd
    · exact isCastChar_of_isAlphanum h
    · have hquoted : ∀ d ∈ "_ .[],".toList, isCastChar d = true ∧ d ≠ '(' ∧ d ≠ ')' := by
        simp [isCastChar]
      exact hquoted d h

variable {parts : List (List Char)}

lemma piece_intercalate (hne : parts ≠ []) (h : ∀ x ∈ parts, IsIdentifier x) :
    Piece (['.'].intercalate parts) ∧
      ∃ c y, ['.'].intercalate parts = c :: y ∧ isWhiteSpace c = false := by
  induction parts with
  | nil => exact absurd rfl hne
  | cons x parts ih =>
    obtain ⟨hpiece, c, y, rfl, hc⟩ := (h x List.mem_cons_self).piece
    cases parts with
    | nil => exact ⟨by simpa using hpiece, c, y, by simp, hc⟩
    | cons x' parts =>
      obtain ⟨hrest, -⟩ := ih (by simp) fun z hz => h z (List.mem_cons_of_mem _ hz)
      have hdot : Piece ['.'] := piece_of_chars (by simp [isCastChar]) (by simp [isWhiteSpace])
      have hparts : ['.'].intercalate ((c :: y) :: x' :: parts) =
          (c :: y) ++ (['.'] ++ ['.'].intercalate (x' :: parts)) := by
        simp [List.intercalate]
      rw [hparts]
      exact ⟨hpiece.append (hdot.append hrest), c, _, rfl, hc⟩

lemma typePhrases_chars : ∀ p ∈ typePhrases, p.1 ≠ [] ∧ (∀ c ∈ p.1, c.isLower) ∧
    (∀ c ∈ p.2, c.isLower ∨ c = ' ') ∧ ∀ c ∈ p.2.getLast?, c.isLower := by
  simp [typePhrases]

lemma isAlpha_of_isLower_toLower (h : c.toLower.isLower = true) : c.isAlpha = true := by
  obtain hupper | hlower := isUpper_or_toLower_eq c
  · simp [Char.isAlpha, hupper]
  · rw [hlower] at h
    simp [Char.isAlpha, h]

lemma isAlphanum_of_isLower_toLower (h : c.toLower.isLower = true) : c.isAlphanum = true := by
  simp [Char.isAlphanum, isAlpha_of_isLower_toLower h]

lemma piece_phrase {first second : List Char}
    (h : (first.map Char.toLower, second.map Char.toLower) ∈ typePhrases) :
    Piece first ∧ Piece second ∧ ∃ c y, first = c :: y ∧ isWhiteSpace c = false := by
  obtain ⟨hne, hfirst, hsecond, hlast⟩ := typePhrases_chars _ h
  have halnum : ∀ c ∈ first, c.isAlphanum = true := fun c hc =>
    isAlphanum_of_isLower_toLower (hfirst _ (List.mem_map_of_mem hc))
  obtain ⟨c, y, rfl⟩ := List.exists_cons_of_ne_nil (List.map_eq_nil_iff.not.1 hne)
  refine ⟨piece_of_chars (fun d hd => isCastChar_of_isAlphanum (halnum d hd)) fun d hd =>
      isWhiteSpace_of_isAlphanum (halnum d (List.mem_of_mem_getLast? hd)),
    piece_of_chars (fun d hd => ?_) fun d hd => ?_, c, y, rfl,
    isWhiteSpace_of_isAlphanum (halnum c List.mem_cons_self)⟩
  · obtain hlower | hblank := hsecond _ (List.mem_map_of_mem hd)
    · exact isCastChar_of_isAlphanum (isAlphanum_of_isLower_toLower hlower)
    · obtain hupper | hsame := isUpper_or_toLower_eq d
      · exact isCastChar_of_isAlphanum (by simp [Char.isAlphanum, Char.isAlpha, hupper])
      · rw [← hsame, hblank]
        simp [isCastChar]
  · refine isWhiteSpace_of_isAlphanum (isAlphanum_of_isLower_toLower (hlast _ ?_))
    rw [List.getLast?_map]
    simpa using ⟨d, hd, rfl⟩

lemma TypeName.isCastType (h : TypeName t) : IsCastType t := by
  have hsolid : ∀ {x y : List Char} {c : Char} {z : List Char}, x = c :: z →
      isWhiteSpace c = false → Piece (x ++ y) → IsCastType (x ++ y) := by
    rintro _ y c z rfl hc hpiece
    refine ⟨trim_eq_self_of_ends (by simpa using hc) hpiece.last, hpiece.balanced, ?_⟩
    rw [isCastTypeName, Bool.and_eq_true, List.all_eq_true]
    exact ⟨by simp, hpiece.chars⟩
  cases h with
  | named hne hparts hm hb =>
    obtain ⟨hpiece, c, y, hhead, hc⟩ := piece_intercalate hne hparts
    rw [List.append_assoc]
    exact hsolid hhead hc (hpiece.append (hm.piece.append hb.piece))
  | phrase h hm hm' hb =>
    obtain ⟨hfirst, hsecond, c, y, hhead, hc⟩ := piece_phrase h
    rw [List.append_assoc, List.append_assoc, List.append_assoc]
    exact hsolid hhead hc
      (hfirst.append (hm.piece.append (hsecond.append (hm'.piece.append hb.piece))))

/-! ## What the parser makes of a literal -/

def containsSyntax (expression : List Char) : Bool :=
  containsIgnoreAsciiCase expression "select ".toList ||
    expression.tails.any (List.isPrefixOf "::".toList ·)

lemma isLower_toLower (h : c.isUpper = true) : c.toLower.isLower = true := by
  have hnat : 65 ≤ c.toNat ∧ c.toNat ≤ 90 := by
    simpa [Char.isUpper, UInt32.le_iff_toNat_le] using h
  simp [Char.toLower, Char.isLower, UInt32.le_iff_toNat_le, hnat]
  omega

lemma mem_of_startsWithIgnoreAsciiCase {value ascii : List Char}
    (h : startsWithIgnoreAsciiCase value ascii = true) (hc : c ∈ ascii)
    (hletter : c.isAlphanum = false) : c ∈ value := by
  simp only [startsWithIgnoreAsciiCase, eqIgnoreAsciiCase, decide_eq_true_eq] at h
  obtain ⟨d, hd, hdc⟩ : ∃ d ∈ value.take ascii.length, d.toLower = c.toLower := by
    have hmem : c.toLower ∈ ascii.map Char.toLower := List.mem_map_of_mem hc
    rw [← h] at hmem
    exact List.mem_map.1 hmem
  have hcsame : c.toLower = c := (isUpper_or_toLower_eq c).resolve_left fun hupper => by
    simp [Char.isAlphanum, Char.isAlpha, hupper] at hletter
  obtain hupper | hdsame := isUpper_or_toLower_eq d
  · have hlower := isLower_toLower hupper
    rw [hdc, hcsame] at hlower
    simp [Char.isAlphanum, Char.isAlpha, hlower] at hletter
  · rw [← hcsame, ← hdc, hdsame]
    exact List.mem_of_mem_take hd

lemma IsWord.notMem (h : IsWord x) : ∀ c ∈ "' (:[".toList, c ∉ x := by
  obtain ⟨sign, word, rfl, hsign, -, hword⟩ := h
  intro c hc hmem
  obtain hmem | hmem := List.mem_append.1 hmem
  · obtain rfl | rfl | rfl := hsign <;> simp_all
  · obtain ⟨hblank, hspecial⟩ := hword c hmem
    have hlist : ∀ c ∈ "' (:[".toList, isWhiteSpace c = true ∨ c ∈ "'():+-*/%|[".toList := by
      simp [isWhiteSpace]
    obtain h | h := hlist c hc
    · simp [hblank] at h
    · exact hspecial h

lemma isUnsupportedPortabilityBoundary_text (lit : Literal) :
    isUnsupportedPortabilityBoundary lit.text = containsSyntax lit.text := by
  obtain ⟨content, h⟩ | h := lit.text_cases
  · simp [isUnsupportedPortabilityBoundary, containsSyntax, h, quoted, startsWithIgnoreAsciiCase,
      eqIgnoreAsciiCase]
  · have hstart : ∀ {ascii : List Char} {c : Char}, c ∈ "' (:[".toList → c ∈ ascii →
        c.isAlphanum = false → startsWithIgnoreAsciiCase lit.text ascii = false := by
      intro ascii c hc hmem hletter
      by_contra hstart
      exact h.notMem c hc (mem_of_startsWithIgnoreAsciiCase (by simpa using hstart) hmem hletter)
    have hnextval := @hstart "nextval(".toList '(' (by simp) (by simp) (by decide)
    have harray := @hstart "array[".toList '[' (by simp) (by simp) (by decide)
    have harray' := @hstart "array ".toList ' ' (by simp) (by simp) (by decide)
    rw [isUnsupportedPortabilityBoundary, hnextval, harray, harray', containsSyntax]
    simp

lemma isAlpha_of_isNumericLiteralFrom {b : Bool}
    (h : isNumericLiteralFrom b b' cs = true) : ∀ c ∈ cs, c.isAlpha = false := by
  intro c hc
  obtain hdigit | rfl := isDigit_or_point h c hc
  · have hnat : 48 ≤ c.toNat ∧ c.toNat ≤ 57 := by
      simpa [Char.isDigit, UInt32.le_iff_toNat_le] using hdigit
    by_contra halpha
    simp [Char.isAlpha, Char.isUpper, Char.isLower, UInt32.le_iff_toNat_le] at halpha
    omega
  · rfl

lemma isAlpha_of_isNumericLiteral (h : isNumericLiteral text = true) :
    ∀ c ∈ text, c.isAlpha = false := by
  cases text with
  | nil => simp
  | cons c cs =>
    rw [isNumericLiteral] at h
    split at h
    · next hsign =>
      refine List.forall_mem_cons.2 ⟨?_, isAlpha_of_isNumericLiteralFrom h⟩
      obtain rfl | rfl := hsign <;> rfl
    · exact isAlpha_of_isNumericLiteralFrom h

lemma eqIgnoreAsciiCase_of_isNumericLiteral (h : isNumericLiteral text = true)
    {word : List Char} (hne : word ≠ []) (hword : ∀ c ∈ word, c.toLower.isLower = true) :
    eqIgnoreAsciiCase text word = false := by
  by_contra heq
  simp only [eqIgnoreAsciiCase, Bool.not_eq_false, decide_eq_true_eq] at heq
  obtain ⟨c, word, rfl⟩ := List.exists_cons_of_ne_nil hne
  obtain ⟨d, text, rfl⟩ : ∃ d t, text = d :: t :=
    List.exists_cons_of_ne_nil fun hnil => by simp [hnil] at heq
  have hd : d.toLower = c.toLower := by simpa using congrArg List.head? heq
  have halpha := isAlpha_of_isLower_toLower (hd ▸ hword c List.mem_cons_self)
  simp [isAlpha_of_isNumericLiteral h d List.mem_cons_self] at halpha

lemma isBoolLiteral_of_isNumericLiteral (h : isNumericLiteral text = true) :
    isBoolLiteral text = false := by
  simp [isBoolLiteral, eqIgnoreAsciiCase_of_isNumericLiteral h]

lemma Literal.text_ne_null (lit : Literal) : eqIgnoreAsciiCase lit.text "null".toList = false := by
  cases lit with
  | string content => simp [Literal.text, quoted, eqIgnoreAsciiCase]
  | numeric text h => exact eqIgnoreAsciiCase_of_isNumericLiteral h (by simp) (by simp)
  | bool text h =>
    simp only [isBoolLiteral, eqIgnoreAsciiCase, Bool.or_eq_true, decide_eq_true_eq] at h
    obtain h | h := h <;> simp [Literal.text, eqIgnoreAsciiCase, h]

lemma IsWord.isStringLiteral_eq (h : IsWord x) : isStringLiteral x = false := by
  by_contra hstring
  obtain ⟨content, rfl⟩ := isStringLiteral_iff.1 (by simpa using hstring)
  exact h.notMem '\'' (by simp) (by simp [quoted])

lemma parseDefaultExpression_of_normalize {lit : Literal}
    (h : normalizePostgresExpression e = lit.text) (typ : PgType) :
    parseDefaultExpression e typ = if containsSyntax lit.text then none else lit.value typ := by
  have hempty : lit.text.isEmpty = false := by simpa using lit.text_ne_nil
  simp only [parseDefaultExpression, h, hempty, lit.text_ne_null,
    isUnsupportedPortabilityBoundary_text, Bool.or_false, Bool.false_eq_true, if_false]
  congr 1
  cases lit with
  | string content =>
    simp only [Literal.text, isStringLiteral_iff.2 ⟨content, rfl⟩, if_true]
    exact parseStringLiteral_quoted content typ
  | numeric text hnumeric =>
    have hword := isWord_of_isNumericLiteral hnumeric
    simp [Literal.text, Literal.value, hnumeric, hword.isStringLiteral_eq]
  | bool text hbool =>
    have hword := isWord_of_isBoolLiteral hbool
    have hnumeric : isNumericLiteral text = false := by
      by_contra hnumeric
      simp [isBoolLiteral_of_isNumericLiteral (by simpa using hnumeric)] at hbool
    simp [Literal.text, Literal.value, hbool, hnumeric, hword.isStringLiteral_eq]

lemma exists_of_parseDefaultExpression {typ : PgType} {d : DefaultExpression}
    (h : parseDefaultExpression e typ = some d) :
    ∃ lit : Literal, normalizePostgresExpression e = lit.text ∧ lit.value typ = some d := by
  simp only [parseDefaultExpression] at h
  split at h
  · cases h
  split at h
  · cases h
  split at h
  · next hstring =>
    obtain ⟨content, hcontent⟩ := isStringLiteral_iff.1 hstring
    rw [hcontent, parseStringLiteral_quoted] at h
    exact ⟨.string content, hcontent, h⟩
  split at h
  · next hnumeric => exact ⟨.numeric _ hnumeric, rfl, h⟩
  split at h
  · next hbool => exact ⟨.bool _ hbool, rfl, h⟩
  · cases h

/-! ## Soundness -/

/-- A default returned is a literal between parentheses and casts, nothing inside a string is taken
for syntax, and normalising twice is normalising once. -/
structure Sound (e : List Char) (typ : PgType) : Prop where
  literal {d : DefaultExpression} (h : parseDefaultExpression e typ = some d) :
    ∃ lit : Literal, Wrapped TypeName lit.text (trim e) ∧ lit.value typ = some d
  inert {content : List Char} (h : Wrapped TypeName (quoted content) (trim e)) :
    parseDefaultExpression e typ = (Literal.string content).value typ
  idempotent :
    normalizePostgresExpression (normalizePostgresExpression e) = normalizePostgresExpression e

section Sound

variable {T : List Char → Prop} (hT : ∀ t, T t → IsCastType t) {e : List Char} {lit : Literal}
include hT

lemma Wrapped.normalize (h : Wrapped T lit.text (trim e)) :
    normalizePostgresExpression e = lit.text ∧ ∀ t ∈ strippedCasts e, T t :=
  h.normalizeFrom hT le_rfl

lemma Wrapped.parse (h : Wrapped T lit.text (trim e)) (typ : PgType) :
    parseDefaultExpression e typ = if containsSyntax lit.text then none else lit.value typ :=
  parseDefaultExpression_of_normalize (h.normalize hT).1 typ

end Sound

lemma Wrapped.inf {T' : List Char → Prop} (hT : ∀ t, T t → IsCastType t)
    (hT' : ∀ t, T' t → IsCastType t) {lit lit' : Literal}
    (h : Wrapped T lit.text (trim e)) (h' : Wrapped T' lit'.text (trim e)) :
    Wrapped (fun t => T t ∧ T' t) lit.text (trim e) := by
  obtain ⟨htext, hcasts⟩ := h.normalize hT
  obtain ⟨-, hcasts'⟩ := h'.normalize hT'
  rw [← htext]
  exact (wrapped_normalizeFrom (trim_trim e) le_rfl).mono fun t ht => ⟨hcasts t ht, hcasts' t ht⟩

lemma Wrapped.colon_mem (hT : ∀ t, ¬T t) {core : List Char}
    (h : Wrapped T core e) (hcolon : ':' ∈ e) : ':' ∈ core := by
  have hnone : ∀ {s}, OptCast T s → s = [] := by
    rintro s (rfl | ⟨-, -, t, -, -, ht, -⟩)
    · rfl
    · exact absurd ht (hT t)
  induction h with
  | core hs => simpa [hnone hs] using hcolon
  | @parens ws e ws' s hws _ hws' hs ih =>
    obtain rfl := hnone hs
    refine ih ?_
    simp only [List.append_nil, List.mem_cons, List.mem_append, List.not_mem_nil, or_false,
      Char.reduceEq, false_or] at hcolon
    obtain (h | h) | h := hcolon
    · exact absurd rfl (ne_of_isWhiteSpace (hws _ h)).2.2.2
    · exact h
    · exact absurd rfl (ne_of_isWhiteSpace (hws' _ h)).2.2.2

def nullTest : List Char := ['t', 'e', 'x', 't', ' ', 'I', 'S', ' ', 'N', 'U', 'L', 'L']

lemma isCastType_nullTest : IsCastType nullTest where
  trimmed := by
    apply trim_eq_self_of_ends <;> simp [nullTest, isWhiteSpace]
  balanced := by
    apply balanced_of_forall
    simp [nullTest]
  accepted := by simp [nullTest, isCastTypeName]

lemma IsIdentifier.blank_or_quote (h : IsIdentifier x) : ' ' ∉ x ∨ '"' ∈ x := by
  obtain ⟨c, y, rfl, hc, hy⟩ | ⟨y, rfl, -⟩ := h
  · refine .inl fun hmem => ?_
    obtain rfl | hmem := List.mem_cons.1 hmem
    · simp at hc
    · simpa using hy ' ' hmem
  · exact .inr (by simp)

lemma notMem_of_isModifier (h : IsModifier x) : ' ' ∉ x := by
  obtain rfl | ⟨y, rfl, hy⟩ := h
  · simp
  · intro hmem
    have := hy ' '
    simp_all

lemma notMem_of_isBounds (h : IsBounds x) : ' ' ∉ x := by
  obtain ⟨ns, rfl, hns⟩ := h
  intro hmem
  simp only [List.mem_flatten, List.mem_map, exists_exists_and_eq_and] at hmem
  obtain ⟨n, hn, hmem⟩ := hmem
  have := hns n hn ' '
  simp_all

lemma mem_intercalate : c ∈ ['.'].intercalate parts → c = '.' ∨ ∃ x ∈ parts, c ∈ x := by
  induction parts with
  | nil => simp
  | cons x parts ih => cases parts <;> grind [List.intercalate, List.intersperse]

lemma mem_intercalate_of_mem (hx : x ∈ parts) (hc : c ∈ x) : c ∈ ['.'].intercalate parts := by
  induction parts with
  | nil => cases hx
  | cons y parts ih => cases parts <;> grind [List.intercalate, List.intersperse]

lemma not_typeName_nullTest : ¬TypeName nullTest := by
  generalize ht : nullTest = t
  rintro (⟨-, hparts, hm, hb⟩ | ⟨h, hm, hm', hb⟩)
  · -- a blank stands only between double quotes
    rename_i parts m b
    have hblank : ' ' ∈ ['.'].intercalate parts := by
      have : ' ' ∈ ['.'].intercalate parts ++ m ++ b := by simp [← ht, nullTest]
      simpa [notMem_of_isModifier hm, notMem_of_isBounds hb] using this
    obtain hdot | ⟨x, hx, hblank⟩ := mem_intercalate hblank
    · simp at hdot
    · have hquote := ((hparts x hx).blank_or_quote).resolve_left (not_not.2 hblank)
      have : '"' ∈ ['.'].intercalate parts ++ m ++ b := by
        simp [mem_intercalate_of_mem hx hquote]
      simp [← ht, nullTest] at this
  · rename_i first second m m' b
    have hstart : first.map Char.toLower <+: nullTest.map Char.toLower := by
      rw [ht]
      exact ⟨(m ++ second ++ m' ++ b).map Char.toLower, by simp⟩
    have hnone : ∀ p ∈ typePhrases, ¬p.1 <+: nullTest.map Char.toLower := by
      simp [typePhrases, nullTest]
    exact hnone _ h hstart

lemma typeName_text : TypeName "text".toList := by
  have h : IsIdentifier "text".toList := .inl ⟨'t', ['e', 'x', 't'], by simp, by simp, by simp⟩
  simpa using TypeName.named (List.cons_ne_nil "text".toList []) (by simpa using h) (.inl rfl)
    ⟨[], rfl, by simp⟩

lemma wrapped_nullTest : Wrapped (· = nullTest) (Literal.string "true".toList).text
    (trim "('true'::text IS NULL)".toList) := by
  have htrim : trim "('true'::text IS NULL)".toList = "('true'::text IS NULL)".toList := by
    apply trim_eq_self_of_ends <;> simp [isWhiteSpace]
  have hcast : CastSuffix (· = nullTest) (':' :: ':' :: nullTest) :=
    ⟨[], [], nullTest, by simp [Blank], by simp [Blank], rfl, rfl⟩
  have hinner := @Wrapped.core _ (Literal.string "true".toList).text _ (.inr hcast)
  rw [htrim]
  simpa [Literal.text, quoted, doubled, nullTest] using
    @Wrapped.parens _ _ [] _ [] [] (by simp [Blank]) hinner (by simp [Blank]) (.inl rfl)

lemma wrapped_colon :
    Wrapped TypeName (Literal.string "a::b".toList).text (trim "'a::b'::text".toList) := by
  have htrim : trim "'a::b'::text".toList = "'a::b'::text".toList := by
    apply trim_eq_self_of_ends <;> simp [isWhiteSpace]
  have hcast : CastSuffix TypeName (':' :: ':' :: "text".toList) :=
    ⟨[], [], "text".toList, by simp [Blank], by simp [Blank], typeName_text, rfl⟩
  rw [htrim]
  simpa [Literal.text, quoted, doubled] using
    @Wrapped.core _ (Literal.string "a::b".toList).text _ (.inr hcast)

end Etl.DefaultExpression
