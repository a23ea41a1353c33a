import Etl.Lib.Machine
import Etl.Lib.Text

/-!
# Numerics

The text format of `NUMERIC` values. Texts are lists of characters where the source reads bytes; the
characters of a numeral are ASCII. The results of machine arithmetic are checked: `none` stands for
an overflow, where a debug build panics and a release build goes on with a wrapped value.
-/

namespace Etl

open Machine

inductive Sign where
  | positive
  | negative
deriving DecidableEq

inductive PgNumeric where
  | naN
  | positiveInfinity
  | negativeInfinity
  | value (sign : Sign) (weight : ℤ) (scale : ℕ) (digits : List ℤ)
deriving DecidableEq

inductive ParseNumericError where
  | invalidSyntax
  | valueOutOfRange
deriving DecidableEq

/-! ## Parsing -/

def postgresNumericMaxScale : ℕ := 16383

def postgresNumericMinWeight : ℤ := -2 ^ 15

def postgresNumericMaxWeight : ℤ := 2 ^ 15 - 1

def andThen {α β : Type} (result : Option (Except ParseNumericError α))
    (next : α → Option (Except ParseNumericError β)) : Option (Except ParseNumericError β) :=
  match result with
  | none => none
  | some (.error e) => some (.error e)
  | some (.ok a) => next a

def digitValue (c : Char) : ℤ := c.toNat - 48

def startsWithDigit (bytes : List Char) : Bool := bytes.head?.any Char.isDigit

structure Mantissa where
  decimalDigits : List ℤ
  haveDecimalPoint : Bool
  /-- The number of digits before the decimal point, minus one. -/
  dweight : ℤ
  /-- The number of digits after the decimal point. -/
  dscale : ℤ
deriving DecidableEq

def Mantissa.push (m : Mantissa) (digit : ℤ) : Option Mantissa :=
  if !m.haveDecimalPoint then do
    let dweight ← i32? (m.dweight + 1)
    return { m with decimalDigits := m.decimalDigits ++ [digit], dweight }
  else do
    let dscale ← u32? (m.dscale + 1)
    return { m with decimalDigits := m.decimalDigits ++ [digit], dscale }

/-- The loop up to the first character that is no digit, point or underscore. -/
def parseMantissa :
    List Char → Mantissa → Option (Except ParseNumericError (Mantissa × List Char))
  | [], m => some (.ok (m, []))
  | c :: rest, m =>
    if c.isDigit then (m.push (digitValue c)).bind (parseMantissa rest)
    else if c = '.' then
      if m.haveDecimalPoint then some (.error .invalidSyntax)
      else if rest.head? = some '_' then some (.error .invalidSyntax)
      else parseMantissa rest { m with haveDecimalPoint := true }
    else if c = '_' then
      if startsWithDigit rest then parseMantissa rest m else some (.error .invalidSyntax)
    else some (.ok (m, c :: rest))

/-- `i32::MAX / 2`, above which an exponent is not read on. -/
def maxExponent : ℤ := (2 ^ 31 - 1) / 2

def parseExponentDigits : List Char → ℤ → Option (Except ParseNumericError (ℤ × List Char))
  | [], exponent => some (.ok (exponent, []))
  | c :: rest, exponent =>
    if c.isDigit then do
      let shifted ← i64? (exponent * 10)
      let exponent ← i64? (shifted + digitValue c)
      if exponent > maxExponent then some (.error .valueOutOfRange)
      else parseExponentDigits rest exponent
    else if c = '_' then
      if startsWithDigit rest then parseExponentDigits rest exponent
      else some (.error .invalidSyntax)
    else some (.ok (exponent, c :: rest))

def exponentSign (bytes : List Char) : Bool × List Char :=
  match bytes with
  | '+' :: rest => (false, rest)
  | '-' :: rest => (true, rest)
  | _ => (false, bytes)

def parseExponent (bytes : List Char) : Option (Except ParseNumericError (ℤ × List Char)) :=
  let (expNegative, bytes) := exponentSign bytes
  if !startsWithDigit bytes then some (.error .invalidSyntax)
  else
    andThen (parseExponentDigits bytes 0) fun (exponent, rest) =>
      some (.ok (if expNegative then -exponent else exponent, rest))

def shiftedScale (difference : ℤ) : Option ℤ :=
  if difference < 0 then some 0 else u32? difference

def Mantissa.shift (m : Mantissa) (exponent : ℤ) : Option Mantissa := do
  let step ← i32? exponent
  let dweight ← i32? (m.dweight + step)
  let difference ← i64? (m.dscale - exponent)
  let dscale ← shiftedScale difference
  return { m with dweight, dscale }

def parseScientific (m : Mantissa) (bytes : List Char) :
    Option (Except ParseNumericError (Mantissa × List Char)) :=
  match bytes with
  | [] => some (.ok (m, []))
  | c :: rest =>
    if c = 'e' ∨ c = 'E' then
      andThen (parseExponent rest) fun (exponent, rest) =>
        (m.shift exponent).bind fun m => some (.ok (m, rest))
    else some (.ok (m, bytes))

/-- Positions outside the input count as zeros. -/
def pushDecimalDigit (decimalDigits : List ℤ) (offset digit position : ℤ) : Option ℤ := do
  let index ← i32? (position - offset)
  let decimalDigit := if 0 ≤ index then decimalDigits.getD index.toNat 0 else 0
  let shifted ← i16? (digit * 10)
  i16? (shifted + decimalDigit)

def groupDigit (decimalDigits : List ℤ) (offset group : ℤ) : Option ℤ := do
  let start ← i32? (group * 4)
  let _ ← i32? (start + 4)
  [start, start + 1, start + 2, start + 3].foldlM (pushDecimalDigit decimalDigits offset) 0

def base10000Weight (dweight : ℤ) : Option ℤ :=
  if 0 ≤ dweight then do
    let sum ← i32? (dweight + 4)
    i32? (sum / 4 - 1)
  else do
    let negated ← i32? (-dweight)
    let places ← i32? (negated - 1)
    let groups ← i32? (places / 4 + 1)
    i32? (-groups)

/-- The weight in base 10000, and the number of zeros that align the digits. -/
def alignment (dweight : ℤ) : Option (ℤ × ℤ) := do
  let weight ← base10000Weight dweight
  let groups ← i32? (weight + 1)
  let aligned ← i32? (groups * 4)
  let places ← i32? (dweight + 1)
  let offset ← i32? (aligned - places)
  return (weight, offset)

def retainGroups (decimalDigits : List ℤ) (weight offset : ℤ) (firstNonzero lastNonzero : ℕ)
    (scale : ℕ) (sign : Sign) : Option (Except ParseNumericError PgNumeric) := do
  let first ← i32? firstNonzero
  let last ← i32? lastNonzero
  let firstPosition ← i32? (offset + first)
  let lastPosition ← i32? (offset + last)
  let firstNonzeroGroup := firstPosition / 4
  let lastNonzeroGroup := lastPosition / 4
  let finalWeight ← i32? (weight - firstNonzeroGroup)
  if ¬ (postgresNumericMinWeight ≤ finalWeight ∧ finalWeight ≤ postgresNumericMaxWeight) then
    some (.error .valueOutOfRange)
  else do
    let difference ← i32? (lastNonzeroGroup - firstNonzeroGroup)
    let retainedGroups ← i32? (difference + 1)
    let digits ← (List.range retainedGroups.toNat).mapM fun (i : ℕ) =>
      groupDigit decimalDigits offset (firstNonzeroGroup + i)
    some (.ok (.value sign finalWeight scale digits))

def convertToBase10000 (decimalDigits : List ℤ) (dweight dscale : ℤ) (sign : Sign) :
    Option (Except ParseNumericError PgNumeric) :=
  if dscale < 0 ∨ 2 ^ 16 ≤ dscale then some (.error .valueOutOfRange)
  else if decimalDigits.isEmpty then some (.ok (.value .positive 0 dscale.toNat []))
  else do
    let (weight, offset) ← alignment dweight
    match decimalDigits.findIdx? (· ≠ 0) with
    | none => some (.ok (.value .positive 0 dscale.toNat []))
    | some firstNonzero =>
      let lastNonzero := decimalDigits.length - 1 - decimalDigits.reverse.findIdx (· ≠ 0)
      retainGroups decimalDigits weight offset firstNonzero lastNonzero dscale.toNat sign

/-- The state in which the loop over the mantissa begins, and its text. -/
def mantissaStart (bytes : List Char) : Mantissa × List Char :=
  match bytes with
  | '.' :: rest => (⟨[], true, -1, 0⟩, rest)
  | _ => (⟨[], false, -1, 0⟩, bytes)

def parseNumericValue (bytes : List Char) (sign : Sign) :
    Option (Except ParseNumericError PgNumeric) :=
  let (start, bytes) := mantissaStart bytes
  if !startsWithDigit bytes then some (.error .invalidSyntax)
  else
    andThen (parseMantissa bytes start) fun (m, rest) =>
      andThen (parseScientific m rest) fun (m, rest) =>
        if rest ≠ [] then some (.error .invalidSyntax)
        else if m.dscale > postgresNumericMaxScale then some (.error .valueOutOfRange)
        else convertToBase10000 m.decimalDigits m.dweight m.dscale sign

def parseSpecialValue (rest : List Char) (sign : Sign) (hasExplicitSign : Bool) :
    Except ParseNumericError PgNumeric :=
  let rest := Text.trimEnd rest
  if Text.eqIgnoreAsciiCase rest "nan".toList then
    if hasExplicitSign then .error .invalidSyntax else .ok .naN
  else if Text.eqIgnoreAsciiCase rest "infinity".toList || Text.eqIgnoreAsciiCase rest "inf".toList then
    match sign with
    | .positive => .ok .positiveInfinity
    | .negative => .ok .negativeInfinity
  else .error .invalidSyntax

def splitSign (trimmed : List Char) : Sign × List Char × Bool :=
  match trimmed with
  | '+' :: rest => (.positive, rest, true)
  | '-' :: rest => (.negative, rest, true)
  | _ => (.positive, trimmed, false)

def PgNumeric.fromStr (input : List Char) : Option (Except ParseNumericError PgNumeric) :=
  let trimmed := Text.trim input
  if trimmed.isEmpty then some (.error .invalidSyntax)
  else
    let (sign, rest, hasExplicitSign) := splitSign trimmed
    if rest.head?.any fun c => c.isDigit || c = '.' then parseNumericValue rest sign
    else some (parseSpecialValue rest sign hasExplicitSign)

/-! ## Formatting -/

def formatPadded (n : ℤ) : List Char :=
  if n < 0 then '-' :: (Text.render 10 n.natAbs).leftpad 3 '0'
  else (Text.render 10 n.natAbs).leftpad 4 '0'

def formatInteger (weight : ℤ) (digits : List ℤ) : List Char :=
  if weight < 0 then ['0']
  else
    (List.range (weight + 1).toNat).flatMap fun d =>
      let decimalDigits := formatPadded (digits.getD d 0)
      if d = 0 then
        let trimmed := decimalDigits.dropWhile (· = '0')
        if trimmed.isEmpty then ['0'] else trimmed
      else decimalDigits

def formatFraction (digits : List ℤ) (remainingScale : ℕ) (d : ℤ) : Option (List Char) :=
  if remainingScale = 0 then some []
  else do
    let base10000Digit := if 0 ≤ d then digits.getD d.toNat 0 else 0
    let digitsToOutput := min 4 remainingScale
    let next ← i16? (d + 1)
    let rest ← formatFraction digits (remainingScale - digitsToOutput) next
    return (formatPadded base10000Digit).take digitsToOutput ++ rest
termination_by remainingScale
decreasing_by omega

def formatScale (weight : ℤ) (scale : ℕ) (digits : List ℤ) : Option (List Char) :=
  if scale > 0 then ((i16? (weight + 1)).bind (formatFraction digits scale)).map ('.' :: ·)
  else some []

def formatNumericValue (sign : Sign) (weight : ℤ) (scale : ℕ) (digits : List ℤ) :
    Option (List Char) :=
  if digits.isEmpty then
    some ('0' :: if scale > 0 then '.' :: List.replicate scale '0' else [])
  else do
    let fraction ← formatScale weight scale digits
    return (if sign = .negative then ['-'] else []) ++ formatInteger weight digits ++ fraction

def PgNumeric.display : PgNumeric → Option (List Char)
  | .naN => some "NaN".toList
  | .positiveInfinity => some "Infinity".toList
  | .negativeInfinity => some "-Infinity".toList
  | .value sign weight scale digits => formatNumericValue sign weight scale digits

end Etl
