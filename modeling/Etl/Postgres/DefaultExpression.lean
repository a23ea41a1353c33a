import Etl.Postgres.Schema

/-!
# Default expressions

`parseDefaultExpression` takes off outer parentheses and trailing casts, and recognises a single
literal in what remains. Each scanner steps over string literals and counts parentheses by itself.
-/

namespace Etl

/-- A portable column default: the text of a literal. -/
inductive DefaultExpression where
  | stringLiteral (text : List Char)
  | numericLiteral (text : List Char)
  | booleanLiteral (text : List Char)
  | dateLiteral (text : List Char)
  | timeLiteral (text : List Char)
  | timeTzLiteral (text : List Char)
  | timestampLiteral (text : List Char)
  | timestampTzLiteral (text : List Char)
  | intervalLiteral (text : List Char)
  | jsonLiteral (text : List Char)
deriving DecidableEq, Repr

namespace DefaultExpression

/-! ## String literals -/

/-- Up to and with the closing quote; a doubled quote does not close. -/
def closingQuoteEnd : List Char → Option ℕ
  | [] => none
  | [c] => if c = '\'' then some 1 else none
  | c :: d :: cs =>
    if c = '\'' then
      if d = '\'' then (closingQuoteEnd cs).map (· + 2) else some 1
    else (closingQuoteEnd (d :: cs)).map (· + 1)

def stringLiteralEnd : List Char → Option ℕ
  | '\'' :: cs => (closingQuoteEnd cs).map (· + 1)
  | _ => none

/-- An unterminated literal takes everything. -/
def skipStringLiteral (cs : List Char) : List Char :=
  match stringLiteralEnd cs with
  | some i => cs.drop i
  | none => []

lemma length_skipStringLiteral_lt {cs : List Char} (h : cs ≠ []) :
    (skipStringLiteral cs).length < cs.length := by
  have hpos : 0 < cs.length := List.length_pos_iff.2 h
  unfold skipStringLiteral
  split
  · next i hi =>
    have hi0 : 0 < i := by
      unfold stringLiteralEnd at hi
      split at hi
      · obtain ⟨j, -, rfl⟩ := Option.map_eq_some_iff.1 hi
        omega
      · cases hi
    rw [List.length_drop]
    omega
  · exact hpos

def isStringLiteral (expression : List Char) : Bool :=
  stringLiteralEnd expression == some expression.length

def collapseQuotes : List Char → List Char
  | [] => []
  | [c] => [c]
  | c :: d :: cs =>
    if c = '\'' ∧ d = '\'' then '\'' :: collapseQuotes cs else c :: collapseQuotes (d :: cs)

def unquotePostgresStringLiteral (expression : List Char) : Option (List Char) :=
  if isStringLiteral expression then
    some (collapseQuotes ((expression.drop 1).take (expression.length - 2)))
  else none

/-! ## Casts -/

def topLevelCastStartFrom (parenDepth : ℕ) : List Char → Option ℕ
  | [] => none
  | c :: cs =>
    if c = '\'' then
      (topLevelCastStartFrom parenDepth (skipStringLiteral (c :: cs))).map
        (· + ((c :: cs).length - (skipStringLiteral (c :: cs)).length))
    else if c = '(' then (topLevelCastStartFrom (parenDepth + 1) cs).map (· + 1)
    else if c = ')' then (topLevelCastStartFrom (parenDepth - 1) cs).map (· + 1)
    else if c = ':' ∧ parenDepth = 0 ∧ cs.head? = some ':' then some 0
    else (topLevelCastStartFrom parenDepth cs).map (· + 1)
termination_by cs => cs.length
decreasing_by
  · exact length_skipStringLiteral_lt (List.cons_ne_nil c cs)
  all_goals simp

def topLevelCastStart (expression : List Char) : Option ℕ := topLevelCastStartFrom 0 expression

def isCastTypeName (typeName : List Char) : Bool :=
  !typeName.isEmpty && typeName.all fun c => c.isAlphanum || "_ \".[](),".toList.contains c

/-- Outside strings and parentheses; a sign at the very start (`atStart`) is none. -/
def hasTopLevelBinaryOperatorFrom (atStart : Bool) (parenDepth : ℕ) : List Char → Bool
  | [] => false
  | c :: cs =>
    if c = '\'' then
      hasTopLevelBinaryOperatorFrom false parenDepth (skipStringLiteral (c :: cs))
    else if c = '(' then hasTopLevelBinaryOperatorFrom false (parenDepth + 1) cs
    else if c = ')' then hasTopLevelBinaryOperatorFrom false (parenDepth - 1) cs
    else if (c = '+' ∨ c = '-') ∧ parenDepth = 0 ∧ atStart then
      hasTopLevelBinaryOperatorFrom false parenDepth cs
    else if (c = '+' ∨ c = '-' ∨ c = '*' ∨ c = '/' ∨ c = '%') ∧ parenDepth = 0 then true
    else if c = '|' ∧ parenDepth = 0 ∧ cs.head? = some '|' then true
    else hasTopLevelBinaryOperatorFrom false parenDepth cs
termination_by cs => cs.length
decreasing_by
  · exact length_skipStringLiteral_lt (List.cons_ne_nil c cs)
  all_goals simp

def hasTopLevelBinaryOperator (expression : List Char) : Bool :=
  hasTopLevelBinaryOperatorFrom true 0 expression

def trailingCast (expression : List Char) : Option (List Char × List Char) := do
  let castStart ← topLevelCastStart expression
  let typeName := Text.trim (expression.drop (castStart + 2))
  let castSubject := Text.trim (expression.take castStart)
  if isCastTypeName typeName && !hasTopLevelBinaryOperator castSubject then
    some (castSubject, typeName)
  else none

def stripPostgresCast (expression : List Char) : List Char :=
  match trailingCast expression with
  | some (castSubject, _) => castSubject
  | none => expression

/-! ## Parentheses -/

def closesAtEnd (depth : ℕ) : List Char → Bool
  | [] => depth == 0
  | c :: cs =>
    if c = '\'' then closesAtEnd depth (skipStringLiteral (c :: cs))
    else if c = '(' then closesAtEnd (depth + 1) cs
    else if c = ')' then
      if depth = 0 then false
      else if depth - 1 = 0 ∧ cs ≠ [] then false
      else closesAtEnd (depth - 1) cs
    else closesAtEnd depth cs
termination_by cs => cs.length
decreasing_by
  · exact length_skipStringLiteral_lt (List.cons_ne_nil c cs)
  all_goals simp

def stripOuterParens (expression : List Char) : List Char :=
  let expression := Text.trim expression
  if expression.head? = some '(' ∧ expression.getLast? = some ')' ∧ closesAtEnd 0 expression then
    Text.trim ((expression.drop 1).take (expression.length - 2))
  else expression

/-! ## Normalisation -/

def byteLen (cs : List Char) : ℕ := (cs.map Char.utf8Size).sum

/-- Take off wrappers, at most `n` times. -/
def normalizeFrom : ℕ → List Char → List Char
  | 0, expression => expression
  | n + 1, expression =>
    let stripped := stripOuterParens (stripPostgresCast expression)
    if stripped = expression then expression
    else if byteLen expression ≤ byteLen stripped then expression
    else normalizeFrom n stripped

def normalizePostgresExpression (expression : List Char) : List Char :=
  let expression := Text.trim expression
  normalizeFrom (byteLen expression) expression

/-! ## Literals -/

def isNumericLiteralFrom (hasDigit hasDecimal : Bool) : List Char → Bool
  | [] => hasDigit
  | c :: cs =>
    if c.isDigit then isNumericLiteralFrom true hasDecimal cs
    else if c = '.' ∧ !hasDecimal then isNumericLiteralFrom hasDigit true cs
    else false

def isNumericLiteral : List Char → Bool
  | [] => isNumericLiteralFrom false false []
  | c :: cs =>
    if c = '+' ∨ c = '-' then isNumericLiteralFrom false false cs
    else isNumericLiteralFrom false false (c :: cs)

def isBoolLiteral (expression : List Char) : Bool :=
  Text.eqIgnoreAsciiCase expression "true".toList ||
    Text.eqIgnoreAsciiCase expression "false".toList

def startsWithIgnoreAsciiCase (value ascii : List Char) : Bool :=
  Text.eqIgnoreAsciiCase (value.take ascii.length) ascii

def containsIgnoreAsciiCase (value needle : List Char) : Bool :=
  !needle.isEmpty && value.tails.any (startsWithIgnoreAsciiCase · needle)

def isUnsupportedPortabilityBoundary (expression : List Char) : Bool :=
  startsWithIgnoreAsciiCase expression "nextval(".toList ||
    containsIgnoreAsciiCase expression "select ".toList ||
    expression.tails.any (List.isPrefixOf "::".toList ·) ||
    startsWithIgnoreAsciiCase expression "array[".toList ||
    startsWithIgnoreAsciiCase expression "array ".toList

def isOneOf (names : List String) : PgType → Bool
  | .mapped name _ => names.contains name
  | .other _ => false

def isTextType : PgType → Bool := isOneOf ["CHAR", "BPCHAR", "VARCHAR", "NAME", "TEXT"]

def isNumericType : PgType → Bool :=
  isOneOf ["INT2", "INT4", "INT8", "FLOAT4", "FLOAT8", "NUMERIC", "OID"]

def quoteSimpleStringLiteral (expression : List Char) : List Char := '\'' :: expression ++ ['\'']

def parseStringLiteral (expression : List Char) (typ : PgType) : Option DefaultExpression :=
  if isOneOf ["BOOL"] typ then do
    let expression ← unquotePostgresStringLiteral expression
    if isBoolLiteral expression then some (.booleanLiteral expression) else none
  else if isNumericType typ then do
    let expression ← unquotePostgresStringLiteral expression
    if isNumericLiteral expression then some (.numericLiteral expression) else none
  else if isOneOf ["DATE"] typ then some (.dateLiteral expression)
  else if isOneOf ["TIME"] typ then some (.timeLiteral expression)
  else if isOneOf ["TIMETZ"] typ then some (.timeTzLiteral expression)
  else if isOneOf ["TIMESTAMP"] typ then some (.timestampLiteral expression)
  else if isOneOf ["TIMESTAMPTZ"] typ then some (.timestampTzLiteral expression)
  else if isOneOf ["INTERVAL"] typ then some (.intervalLiteral expression)
  else if isOneOf ["JSON", "JSONB"] typ then some (.jsonLiteral expression)
  else some (.stringLiteral expression)

def parseNumericLiteral (expression : List Char) (typ : PgType) : DefaultExpression :=
  if isTextType typ then .stringLiteral (quoteSimpleStringLiteral expression)
  else .numericLiteral expression

def parseBoolLiteral (expression : List Char) (typ : PgType) : DefaultExpression :=
  if isTextType typ then .stringLiteral (quoteSimpleStringLiteral expression)
  else .booleanLiteral expression

def parseDefaultExpression (expression : List Char) (typ : PgType) : Option DefaultExpression :=
  let expression := normalizePostgresExpression expression
  if expression.isEmpty || Text.eqIgnoreAsciiCase expression "null".toList then none
  else if isUnsupportedPortabilityBoundary expression then none
  else if isStringLiteral expression then parseStringLiteral expression typ
  else if isNumericLiteral expression then some (parseNumericLiteral expression typ)
  else if isBoolLiteral expression then some (parseBoolLiteral expression typ)
  else none

end DefaultExpression

end Etl
