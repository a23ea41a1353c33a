import Etl.Error
import Etl.Postgres.Schema

/-!
# The text format of COPY

The parser for one row, and the encoding of the server. Positions count characters where the source
counts bytes: the characters the parser looks for are ASCII.
-/

namespace Etl

/-- Types with a representation of their own decode to `β`. -/
inductive Cell (β : Type) where
  | null
  | string (value : String)
  | other (value : β)
deriving DecidableEq

structure TextCodec (β : Type) where
  specialized : PgType → Option (String → Except EtlError β)
  text : specialized .text = none

variable {β : Type}

def TextCodec.parseCellFromPostgresText (codec : TextCodec β) (typ : PgType) (str : String) :
    Except EtlError (Cell β) :=
  match codec.specialized typ with
  | some parse => (parse str).map .other
  | none => .ok (.string str)

namespace CopyText

/-! ## Scanning -/

def isSpecial (c : Char) : Bool := c = '\t' || c = '\n' || c = '\\'

def memchrMinLen : Nat := 32

def byteLength (text : List Char) : Nat := (text.map Char.utf8Size).sum

def memchr3 (needle₁ needle₂ needle₃ : Char) : List Char → Option Nat
  | [] => none
  | c :: rest =>
    if c = needle₁ || c = needle₂ || c = needle₃ then some 0
    else (memchr3 needle₁ needle₂ needle₃ rest).map (· + 1)

def findNextSpecial (haystack : List Char) : Option Nat :=
  if byteLength haystack < memchrMinLen then haystack.findIdx? isSpecial
  else memchr3 '\t' '\n' '\\' haystack

def slice (row : List Char) (start stop : Nat) : List Char := (row.drop start).take (stop - start)

def unescape : Char → Char
  | 'b' => Char.ofNat 8
  | 'f' => Char.ofNat 12
  | 'n' => '\n'
  | 'r' => '\r'
  | 't' => '\t'
  | 'v' => Char.ofNat 11
  | other => other

/-- Where a field ends, where the next starts, and what was read. -/
structure FieldScan where
  fieldEnd : Nat
  pos : Nat
  rowTerminated : Bool
  fieldEscaped : Bool
  fieldBuffer : List Char
deriving DecidableEq

lemma lt_length_of_findNextSpecial {haystack : List Char} {offset : Nat}
    (h : findNextSpecial haystack = some offset) : offset < haystack.length := by
  have hmemchr : ∀ (text : List Char) (n : Nat), memchr3 '\t' '\n' '\\' text = some n →
      n < text.length := by
    intro text
    induction text with
    | nil => simp [memchr3]
    | cons c rest ih =>
      intro n hn
      rw [memchr3] at hn
      split at hn
      · cases hn
        simp
      · obtain ⟨m, hm, rfl⟩ := Option.map_eq_some_iff.1 hn
        simpa using ih m hm
  unfold findNextSpecial at h
  split at h
  · obtain ⟨hlt, -⟩ := List.findIdx?_eq_some_iff_getElem.1 h
    exact hlt
  · exact hmemchr _ _ h

/-- The inner loop: up to the end of the field. `none` if no tab, newline or backslash is left. -/
def scanField (row : List Char) (fieldStart pos literalStart : Nat) (fieldEscaped : Bool)
    (fieldBuffer : List Char) : Option FieldScan :=
  match _hfind : findNextSpecial (row.drop pos) with
  | none => none
  | some offset =>
    let specialPos := pos + offset
    let fieldBuffer :=
      if fieldEscaped ∧ literalStart < specialPos then
        fieldBuffer ++ slice row literalStart specialPos
      else fieldBuffer
    if row[specialPos]? = some '\t' then
      some ⟨specialPos, specialPos + 1, false, fieldEscaped, fieldBuffer⟩
    else if row[specialPos]? = some '\n' then
      some ⟨specialPos, specialPos + 1, true, fieldEscaped, fieldBuffer⟩
    else
      let fieldBuffer :=
        if fieldEscaped then fieldBuffer else fieldBuffer ++ slice row fieldStart specialPos
      match row[specialPos + 1]? with
      -- an ASCII character is decoded by the table, any other stands for itself
      | some escaped =>
        scanField row fieldStart (specialPos + 2) (specialPos + 2) true
          (fieldBuffer ++ [unescape escaped])
      -- a backslash at the very end of the row
      | none => scanField row fieldStart (specialPos + 1) (specialPos + 1) true fieldBuffer
termination_by row.length - pos
decreasing_by
  all_goals
    have hlt := lt_length_of_findNextSpecial _hfind
    rw [List.length_drop] at hlt
    omega

/-! ## Rows -/

def nullMarker : List Char := ['\\', 'N']

lemma lt_pos_of_scanField {row : List Char} {fieldStart pos literalStart : Nat}
    {fieldEscaped : Bool} {fieldBuffer : List Char} {scan : FieldScan}
    (h : scanField row fieldStart pos literalStart fieldEscaped fieldBuffer = some scan) :
    pos < scan.pos ∧ pos < row.length := by
  fun_induction scanField row fieldStart pos literalStart fieldEscaped fieldBuffer with
  | case1 => cases h
  | case2 pos literalStart fieldEscaped _ offset hfind specialPos _ _ =>
    have hlt := lt_length_of_findNextSpecial hfind
    rw [List.length_drop] at hlt
    cases h
    simp only [specialPos]
    omega
  | case3 pos literalStart fieldEscaped _ offset hfind specialPos _ _ _ =>
    have hlt := lt_length_of_findNextSpecial hfind
    rw [List.length_drop] at hlt
    cases h
    simp only [specialPos]
    omega
  | case4 pos literalStart fieldEscaped _ offset hfind specialPos _ _ _ _ escaped _ ih =>
    have hlt := lt_length_of_findNextSpecial hfind
    rw [List.length_drop] at hlt
    have := ih h
    simp only [specialPos] at this
    omega
  | case5 pos literalStart fieldEscaped _ offset hfind specialPos _ _ _ _ _ ih =>
    have hlt := lt_length_of_findNextSpecial hfind
    rw [List.length_drop] at hlt
    have := ih h
    simp only [specialPos] at this
    omega

def parseFields (codec : TextCodec β) (row : List Char) (columnSchemas : List ColumnSchema)
    (pos columnIndex : Nat) (rowTerminated : Bool) (values : List (Cell β)) :
    Except EtlError (List (Cell β)) :=
  match _hscan : scanField row pos pos pos false [] with
  | none =>
    if rowTerminated then
      if columnIndex < columnSchemas.length then
        .error ⟨.conversionError, "Postgres COPY row contains fewer columns than the table schema"⟩
      else .ok values
    else .error ⟨.conversionError, "Row data not properly terminated"⟩
  | some scan =>
    match columnSchemas[columnIndex]? with
    | none =>
      .error ⟨.conversionError, "Postgres COPY row contains more columns than the table schema"⟩
    | some columnSchema =>
      let rawFieldValue := slice row pos scan.fieldEnd
      -- the null marker is recognised before backslashes are removed
      if rawFieldValue = nullMarker then
        parseFields codec row columnSchemas scan.pos (columnIndex + 1)
          (rowTerminated || scan.rowTerminated) (values ++ [.null])
      else
        let fieldValue := if scan.fieldEscaped then scan.fieldBuffer else rawFieldValue
        match codec.parseCellFromPostgresText columnSchema.typ (String.ofList fieldValue) with
        | .error e => .error e
        | .ok value =>
          parseFields codec row columnSchemas scan.pos (columnIndex + 1)
            (rowTerminated || scan.rowTerminated) (values ++ [value])
termination_by row.length - pos
decreasing_by
  all_goals
    have hlt := lt_pos_of_scanField _hscan
    omega

end CopyText

def parseTableRowFromPostgresCopyStr (codec : TextCodec β) (rowStr : List Char)
    (columnSchemas : List ColumnSchema) : Except EtlError (List (Cell β)) :=
  CopyText.parseFields codec rowStr columnSchemas 0 0 false []

/-! ## What the server sends -/

namespace CopyText

/-- A backslash goes before the delimiter, itself and the control characters that have a letter. -/
def encodeChar (c : Char) : List Char :=
  if c = Char.ofNat 8 then ['\\', 'b']
  else if c = Char.ofNat 12 then ['\\', 'f']
  else if c = '\n' then ['\\', 'n']
  else if c = '\r' then ['\\', 'r']
  else if c = '\t' then ['\\', 't']
  else if c = Char.ofNat 11 then ['\\', 'v']
  else if c = '\\' then ['\\', '\\']
  else [c]

def encodeField : Option String → List Char
  | none => nullMarker
  | some value => value.toList.flatMap encodeChar

def encodeRow (values : List (Option String)) : List Char :=
  ['\t'].intercalate (values.map encodeField) ++ ['\n']

def textCell : Option String → Cell β
  | none => .null
  | some value => .string value

/-! ## Scanning an encoded value -/

lemma memchr3_eq (haystack : List Char) :
    memchr3 '\t' '\n' '\\' haystack = haystack.findIdx? isSpecial := by
  induction haystack with
  | nil => rfl
  | cons c rest ih =>
    rw [memchr3, ih, List.findIdx?_cons]
    rfl

lemma findNextSpecial_eq (haystack : List Char) :
    findNextSpecial haystack = haystack.findIdx? isSpecial := by
  unfold findNextSpecial
  split
  · rfl
  · exact memchr3_eq haystack

section Scan

variable {row : List Char} {fieldStart pos literalStart : Nat} {fieldEscaped : Bool}
  {fieldBuffer : List Char} {c : Char}

lemma findNextSpecial_drop (h : row[pos]? = some c) :
    findNextSpecial (row.drop pos) =
      if isSpecial c then some 0 else (findNextSpecial (row.drop (pos + 1))).map (· + 1) := by
  obtain ⟨hlt, rfl⟩ := List.getElem?_eq_some_iff.1 h
  rw [findNextSpecial_eq, findNextSpecial_eq, List.drop_eq_getElem_cons hlt, List.findIdx?_cons]

lemma scanField_of_none (h : findNextSpecial (row.drop pos) = none) :
    scanField row fieldStart pos literalStart fieldEscaped fieldBuffer = none := by
  rw [scanField]
  split
  · rfl
  · rename_i hfind
    rw [h] at hfind
    cases hfind

lemma scanField_of_some {specialPos : Nat} (hle : pos ≤ specialPos)
    (h : findNextSpecial (row.drop pos) = some (specialPos - pos)) :
    scanField row fieldStart pos literalStart fieldEscaped fieldBuffer =
      let fieldBuffer :=
        if fieldEscaped ∧ literalStart < specialPos then
          fieldBuffer ++ slice row literalStart specialPos
        else fieldBuffer
      if row[specialPos]? = some '\t' then
        some ⟨specialPos, specialPos + 1, false, fieldEscaped, fieldBuffer⟩
      else if row[specialPos]? = some '\n' then
        some ⟨specialPos, specialPos + 1, true, fieldEscaped, fieldBuffer⟩
      else
        let fieldBuffer :=
          if fieldEscaped then fieldBuffer else fieldBuffer ++ slice row fieldStart specialPos
        match row[specialPos + 1]? with
        | some escaped =>
          scanField row fieldStart (specialPos + 2) (specialPos + 2) true
            (fieldBuffer ++ [unescape escaped])
        | none => scanField row fieldStart (specialPos + 1) (specialPos + 1) true fieldBuffer := by
  rw [scanField]
  split
  · rename_i hfind
    rw [h] at hfind
    cases hfind
  · rename_i offset hfind
    obtain rfl : offset = specialPos - pos := by
      rw [h] at hfind
      exact (Option.some.inj hfind).symm
    rw [Nat.add_sub_cancel' hle]

lemma scanField_skip (h : row[pos]? = some c) (hc : isSpecial c = false) :
    scanField row fieldStart pos literalStart fieldEscaped fieldBuffer =
      scanField row fieldStart (pos + 1) literalStart fieldEscaped fieldBuffer := by
  have hfind := findNextSpecial_drop h
  simp only [hc, Bool.false_eq_true, if_false] at hfind
  rcases hnext : findNextSpecial (row.drop (pos + 1)) with _ | offset
  · rw [scanField_of_none hnext, scanField_of_none (by rw [hfind, hnext]; rfl)]
  · have hpos : findNextSpecial (row.drop pos) = some (pos + 1 + offset - pos) := by
      rw [hfind, hnext]
      simp only [Option.map_some, Option.some.injEq]
      omega
    have hpos' : findNextSpecial (row.drop (pos + 1)) = some (pos + 1 + offset - (pos + 1)) := by
      rw [hnext, Nat.add_sub_cancel_left]
    rw [scanField_of_some (by omega) hpos, scanField_of_some (by omega) hpos']

def readSoFar (row : List Char) (fieldStart pos literalStart : Nat) (fieldEscaped : Bool)
    (fieldBuffer : List Char) : List Char :=
  if fieldEscaped then fieldBuffer ++ slice row literalStart pos else slice row fieldStart pos

lemma slice_self (row : List Char) (pos : Nat) : slice row pos pos = [] := by
  simp [slice]

lemma scanField_terminator (h : row[pos]? = some c) (hc : c = '\t' ∨ c = '\n') :
    scanField row fieldStart pos literalStart fieldEscaped fieldBuffer =
      some ⟨pos, pos + 1, c = '\n', fieldEscaped,
        if fieldEscaped ∧ literalStart < pos then fieldBuffer ++ slice row literalStart pos
        else fieldBuffer⟩ := by
  have hfind : findNextSpecial (row.drop pos) = some (pos - pos) := by
    rw [findNextSpecial_drop h]
    rcases hc with rfl | rfl <;> simp [isSpecial]
  rw [scanField_of_some le_rfl hfind]
  rcases hc with rfl | rfl <;> simp [h]

lemma scanField_escape (hslash : row[pos]? = some '\\') (h : row[pos + 1]? = some c)
    (hle : literalStart ≤ pos) (hbuffer : fieldEscaped = false → fieldBuffer = []) :
    scanField row fieldStart pos literalStart fieldEscaped fieldBuffer =
      scanField row fieldStart (pos + 2) (pos + 2) true
        (readSoFar row fieldStart pos literalStart fieldEscaped fieldBuffer ++ [unescape c]) := by
  have hfind : findNextSpecial (row.drop pos) = some (pos - pos) := by
    rw [findNextSpecial_drop hslash]
    simp [isSpecial]
  rw [scanField_of_some le_rfl hfind]
  simp only [hslash, h, Option.some.injEq, Char.reduceEq, if_false, readSoFar]
  congr 1
  cases fieldEscaped with
  | false => simp [hbuffer rfl]
  | true =>
    rcases hle.lt_or_eq with hlt | rfl
    · simp [hlt]
    · simp [slice_self]

end Scan

/-! ## Reading a field back -/

variable {row : List Char} {pos : Nat}

lemma slice_succ {start : Nat} {c : Char} (hle : start ≤ pos)
    (h : row[pos]? = some c) : slice row start (pos + 1) = slice row start pos ++ [c] := by
  have hget : (row.drop start)[pos - start]? = some c := by
    rw [List.getElem?_drop, Nat.add_sub_cancel' hle, h]
  unfold slice
  rw [Nat.sub_add_comm hle, List.take_add_one, hget]
  rfl

lemma readSoFar_succ {fieldStart literalStart : Nat} {fieldEscaped : Bool}
    {fieldBuffer : List Char} {c : Char} (hstart : fieldStart ≤ pos) (hliteral : literalStart ≤ pos)
    (h : row[pos]? = some c) :
    readSoFar row fieldStart (pos + 1) literalStart fieldEscaped fieldBuffer =
      readSoFar row fieldStart pos literalStart fieldEscaped fieldBuffer ++ [c] := by
  unfold readSoFar
  split
  · rw [slice_succ hliteral h, List.append_assoc]
  · exact slice_succ hstart h

lemma encodeChar_cases (c : Char) :
    encodeChar c = [c] ∧ isSpecial c = false ∨
      ∃ letter, encodeChar c = ['\\', letter] ∧ unescape letter = c ∧ letter ≠ 'N' := by
  unfold encodeChar
  split_ifs with h₁ h₂ h₃ h₄ h₅ h₆ h₇
  · exact .inr ⟨'b', rfl, h₁.symm, by decide⟩
  · exact .inr ⟨'f', rfl, h₂.symm, by decide⟩
  · exact .inr ⟨'n', rfl, h₃.symm, by decide⟩
  · exact .inr ⟨'r', rfl, h₄.symm, by decide⟩
  · exact .inr ⟨'t', rfl, h₅.symm, by decide⟩
  · exact .inr ⟨'v', rfl, h₆.symm, by decide⟩
  · exact .inr ⟨'\\', rfl, h₇.symm, by decide⟩
  · exact .inl ⟨rfl, by simp [isSpecial, h₃, h₅, h₇]⟩

def FieldScan.value (scan : FieldScan) (row : List Char) (fieldStart : Nat) : List Char :=
  if scan.fieldEscaped then scan.fieldBuffer else slice row fieldStart scan.fieldEnd

variable {tail : List Char}

/-- A scan over an encoded value reads the rest of it and stops behind the terminator. -/
lemma scanField_encode {fieldStart : Nat} {terminator : Char} (hterminator : terminator = '\t' ∨ terminator = '\n') (value : List Char)
    {literalStart : Nat} {fieldEscaped : Bool} {fieldBuffer : List Char}
    (hrow : row.drop pos = value.flatMap encodeChar ++ terminator :: tail)
    (hstart : fieldStart ≤ pos) (hliteral : literalStart ≤ pos)
    (hbuffer : fieldEscaped = false → fieldBuffer = []) :
    ∃ scan, scanField row fieldStart pos literalStart fieldEscaped fieldBuffer = some scan ∧
      scan.fieldEnd = pos + (value.flatMap encodeChar).length ∧ scan.pos = scan.fieldEnd + 1 ∧
      scan.rowTerminated = decide (terminator = '\n') ∧
      scan.value row fieldStart =
        readSoFar row fieldStart pos literalStart fieldEscaped fieldBuffer ++ value := by
  -- by induction on the value: each character is passed over or read with its backslash
  induction value generalizing pos literalStart fieldEscaped fieldBuffer with
  | nil =>
    have hget : row[pos]? = some terminator := by
      have := congrArg (·[0]?) hrow
      simpa using this
    refine ⟨_, scanField_terminator hget hterminator, rfl, rfl, rfl, ?_⟩
    simp only [FieldScan.value, readSoFar, List.append_nil]
    cases fieldEscaped with
    | false => rfl
    | true =>
      rcases hliteral.lt_or_eq with hlt | rfl
      · simp [hlt]
      · simp [slice_self]
  | cons c value ih =>
    rcases encodeChar_cases c with ⟨hencode, hplain⟩ | ⟨letter, hencode, hletter, -⟩
    · rw [List.flatMap_cons, hencode, List.singleton_append, List.cons_append] at hrow
      have hget : row[pos]? = some c := by
        have := congrArg (·[0]?) hrow
        simpa using this
      have hnext : row.drop (pos + 1) = value.flatMap encodeChar ++ terminator :: tail := by
        rw [← List.drop_drop, hrow]
        rfl
      obtain ⟨scan, hscan, hend, hpos, hdone, hvalue⟩ :=
        ih hnext (by omega) (Nat.le_succ_of_le hliteral) hbuffer
      refine ⟨scan, by rw [scanField_skip hget hplain, hscan], ?_, hpos, hdone, ?_⟩
      · rw [hend, List.flatMap_cons, hencode, List.length_append, List.length_singleton]
        omega
      · rw [hvalue, readSoFar_succ hstart hliteral hget, List.append_assoc]
        rfl
    · rw [List.flatMap_cons, hencode, List.cons_append, List.cons_append, List.cons_append,
        List.nil_append] at hrow
      have hslash : row[pos]? = some '\\' := by
        have := congrArg (·[0]?) hrow
        simpa using this
      have hget : row[pos + 1]? = some letter := by
        have := congrArg (·[1]?) hrow
        simpa using this
      have hnext : row.drop (pos + 2) = value.flatMap encodeChar ++ terminator :: tail := by
        rw [← List.drop_drop, hrow]
        rfl
      obtain ⟨scan, hscan, hend, hpos, hdone, hvalue⟩ :=
        @ih (pos + 2) (pos + 2) true _ hnext (by omega) le_rfl nofun
      refine ⟨scan, by rw [scanField_escape hslash hget hliteral hbuffer, hscan], ?_, hpos,
        hdone, ?_⟩
      · rw [hend, List.flatMap_cons, hencode, List.length_append]
        simp only [List.length_cons, List.length_nil]
        omega
      · rw [hvalue, hletter]
        simp [readSoFar, slice_self]

lemma scanField_nullMarker {terminator : Char} (hterminator : terminator = '\t' ∨ terminator = '\n')
    (hrow : row.drop pos = nullMarker ++ terminator :: tail) :
    ∃ scan, scanField row pos pos pos false [] = some scan ∧
      scan.fieldEnd = pos + nullMarker.length ∧ scan.pos = scan.fieldEnd + 1 ∧
      scan.rowTerminated = decide (terminator = '\n') := by
  have hget : ∀ n, row[pos + n]? = (nullMarker ++ terminator :: tail)[n]? := fun n => by
    rw [← hrow, List.getElem?_drop]
  have hscan := @scanField_escape row pos pos pos false [] 'N' (hget 0) (hget 1) le_rfl fun _ => rfl
  rw [scanField_terminator (hget 2) hterminator] at hscan
  exact ⟨_, hscan, rfl, rfl, rfl⟩

lemma flatMap_encodeChar_ne_nullMarker (value : List Char) :
    value.flatMap encodeChar ≠ nullMarker := by
  cases value with
  | nil => exact nofun
  | cons c value =>
    rw [List.flatMap_cons]
    rcases encodeChar_cases c with ⟨hencode, hplain⟩ | ⟨letter, hencode, -, hletter⟩
    · intro h
      rw [hencode, List.singleton_append] at h
      rw [(List.cons.inj h).1] at hplain
      exact absurd hplain (by decide)
    · intro h
      rw [hencode, List.cons_append, List.cons_append] at h
      exact hletter (List.cons.inj (List.cons.inj h).2).1

lemma slice_of_drop {text : List Char} (h : row.drop pos = text ++ tail) :
    slice row pos (pos + text.length) = text := by
  unfold slice
  rw [h, Nat.add_sub_cancel_left, List.take_left]

section Fields

variable {codec : TextCodec β} {row tail : List Char} {columnSchemas : List ColumnSchema}
  {pos columnIndex : Nat} {rowTerminated : Bool} {cells : List (Cell β)}

lemma parseFields_of_none (h : scanField row pos pos pos false [] = none)
    (hterminated : rowTerminated = true) (hcount : columnSchemas.length ≤ columnIndex) :
    parseFields codec row columnSchemas pos columnIndex rowTerminated cells = .ok cells := by
  rw [parseFields]
  split
  · simp [hterminated, hcount]
  · rename_i hscan
    rw [h] at hscan
    cases hscan

lemma parseFields_of_some {scan : FieldScan} {columnSchema : ColumnSchema}
    (h : scanField row pos pos pos false [] = some scan)
    (hcolumn : columnSchemas[columnIndex]? = some columnSchema)
    (htext : codec.specialized columnSchema.typ = none) :
    parseFields codec row columnSchemas pos columnIndex rowTerminated cells =
      parseFields codec row columnSchemas scan.pos (columnIndex + 1)
        (rowTerminated || scan.rowTerminated)
        (cells ++ [if slice row pos scan.fieldEnd = nullMarker then .null
          else .string (String.ofList (scan.value row pos))]) := by
  rw [parseFields]
  split
  · rename_i hscan
    rw [h] at hscan
    cases hscan
  · rename_i found hscan
    obtain rfl : scan = found := Option.some.inj (h.symm.trans hscan)
    simp only [hcolumn, TextCodec.parseCellFromPostgresText, htext, FieldScan.value]
    split <;> rfl

lemma parseFields_encodeField {terminator : Char}
    (hterminator : terminator = '\t' ∨ terminator = '\n') (value : Option String)
    (hrow : row.drop pos = encodeField value ++ terminator :: tail)
    {columnSchema : ColumnSchema} (hcolumn : columnSchemas[columnIndex]? = some columnSchema)
    (htext : codec.specialized columnSchema.typ = none) :
    parseFields codec row columnSchemas pos columnIndex rowTerminated cells =
      parseFields codec row columnSchemas (pos + (encodeField value).length + 1) (columnIndex + 1)
        (rowTerminated || decide (terminator = '\n')) (cells ++ [textCell value]) := by
  cases value with
  | none =>
    obtain ⟨scan, hscan, hend, hpos, hdone⟩ := scanField_nullMarker hterminator hrow
    have hraw : slice row pos (pos + nullMarker.length) = nullMarker := slice_of_drop hrow
    rw [parseFields_of_some hscan hcolumn htext, hpos, hend, hdone, hraw]
    rfl
  | some value =>
    obtain ⟨scan, hscan, hend, hpos, hdone, hvalue⟩ :=
      scanField_encode hterminator value.toList hrow le_rfl le_rfl fun _ => rfl
    have hread : readSoFar row pos pos pos false [] = [] := slice_self row pos
    rw [hread, List.nil_append] at hvalue
    have hraw : slice row pos (pos + (value.toList.flatMap encodeChar).length) =
        value.toList.flatMap encodeChar := slice_of_drop hrow
    rw [parseFields_of_some hscan hcolumn htext, hpos, hend, hdone, hvalue, hraw,
      if_neg (flatMap_encodeChar_ne_nullMarker _), String.ofList_toList]
    rfl

lemma encodeRow_cons_cons (value next : Option String) (rest : List (Option String)) :
    encodeRow (value :: next :: rest) = encodeField value ++ '\t' :: encodeRow (next :: rest) := by
  simp [encodeRow, List.intercalate]

lemma parseFields_encodeRow (values : List (Option String)) (hne : values ≠ [])
    (hrow : row.drop pos = encodeRow values)
    (hcount : columnSchemas.length = columnIndex + values.length)
    (htext : ∀ columnSchema ∈ columnSchemas, codec.specialized columnSchema.typ = none) :
    parseFields codec row columnSchemas pos columnIndex rowTerminated cells =
      .ok (cells ++ values.map textCell) := by
  induction values generalizing pos columnIndex rowTerminated cells with
  | nil => exact absurd rfl hne
  | cons value rest ih =>
    have hlt : columnIndex < columnSchemas.length := by simp [hcount]
    have hcolumn := List.getElem?_eq_getElem hlt
    have htyp := htext _ (List.getElem_mem hlt)
    cases rest with
    | nil =>
      have hfield : row.drop pos = encodeField value ++ '\n' :: [] := by
        rw [hrow]
        simp [encodeRow, List.intercalate]
      have hend : row.drop (pos + (encodeField value).length + 1) = [] := by
        rw [Nat.add_assoc, ← List.drop_drop, hfield]
        simp
      rw [parseFields_encodeField (.inr rfl) value hfield hcolumn htyp]
      rw [parseFields_of_none (scanField_of_none (by rw [hend, findNextSpecial_eq]; rfl)) (by simp)
        (by simp [hcount])]
      rfl
    | cons next rest =>
      rw [encodeRow_cons_cons] at hrow
      rw [parseFields_encodeField (.inl rfl) value hrow hcolumn htyp]
      rw [ih (by simp) ?_ (by simp only [List.length_cons] at hcount ⊢; omega)]
      · simp
      · rw [Nat.add_assoc, ← List.drop_drop, hrow]
        simp

end Fields

end CopyText

/-- A row of one or more text columns, encoded as the server does and parsed, gives back its values:
nulls as nulls and every text, the empty one and the one that looks like the null marker included,
as itself. Which of its two scans the parser uses makes no difference. -/
theorem parseTableRowFromPostgresCopyStr_encode (codec : TextCodec β)
    (columnSchemas : List ColumnSchema) (values : List (Option String)) (hne : values ≠ [])
    (hcount : columnSchemas.length = values.length)
    (htext : ∀ columnSchema ∈ columnSchemas, codec.specialized columnSchema.typ = none) :
    parseTableRowFromPostgresCopyStr codec (CopyText.encodeRow values) columnSchemas =
        .ok (values.map CopyText.textCell) ∧
      (∀ haystack, CopyText.memchr3 '\t' '\n' '\\' haystack =
        haystack.findIdx? CopyText.isSpecial) ∧
      Function.Injective (CopyText.textCell : Option String → Cell β) := by
  refine ⟨?_, CopyText.memchr3_eq, ?_⟩
  · exact CopyText.parseFields_encodeRow values hne rfl (by rw [hcount, Nat.zero_add]) htext
  · rintro (_ | a) (_ | b) h <;> simp_all [CopyText.textCell]

def CopyText.sampleColumns : List ColumnSchema :=
  [⟨"a", .text, -1, 1, none, true, none⟩, ⟨"b", .text, -1, 2, none, true, none⟩,
    ⟨"c", .text, -1, 3, none, true, none⟩]

theorem parseTableRowFromPostgresCopyStr_encode_sample :
    CopyText.encodeRow [none, some "", some "\\N\t"] =
        ['\\', 'N', '\t', '\t', '\\', '\\', 'N', '\\', 't', '\n'] ∧
      parseTableRowFromPostgresCopyStr (⟨fun _ => none, rfl⟩ : TextCodec Unit)
          (CopyText.encodeRow [none, some "", some "\\N\t"]) CopyText.sampleColumns =
        .ok [.null, .string "", .string "\\N\t"] :=
  ⟨by decide +kernel,
    (parseTableRowFromPostgresCopyStr_encode _ CopyText.sampleColumns
      [none, some "", some "\\N\t"] (by simp) rfl (fun _ _ => rfl)).1⟩

end Etl
