import Etl.Lib.Text
import Etl.Postgres.CopyText

/-!
# The text format of arrays

The server (`arrayOut`) puts the delimiter of the element type between elements and quotes where it
must; the parser splits at commas. An array of texts is read back
(`parseCellFromPostgresTextArray_arrayOut`), one of boxes, which are delimited by semicolons, is not
(`preserved_iff`).
-/

namespace Etl

/-! ## The parser -/

namespace ArrayText

def skipSign : List Char → List Char
  | '-' :: rest => rest
  | text => text

def skipInteger (text : List Char) : Option (List Char) :=
  if (skipSign text).takeWhile Char.isDigit = [] then none
  else some ((skipSign text).dropWhile Char.isDigit)

def malformed : EtlError := ⟨.conversionError, "Array input has a malformed dimensions prefix"⟩

def multidimensional : EtlError :=
  ⟨.conversionError, "Multidimensional array input is not supported"⟩

variable {text rest : List Char}

lemma length_skipInteger_le (h : skipInteger text = some rest) : rest.length ≤ text.length := by
  have hsign : (skipSign text).length ≤ text.length := by
    unfold skipSign
    split
    · exact Nat.le_succ _
    · exact le_rfl
  unfold skipInteger at h
  split at h
  · cases h
  · cases h
    exact (List.dropWhile_suffix _).length_le.trans hsign

def skipGroup (text : List Char) : Option (List Char) :=
  match skipInteger text with
  | some (':' :: upper) =>
    match skipInteger upper with
    | some (']' :: rest) => some rest
    | _ => none
  | _ => none

lemma length_skipGroup_lt (h : skipGroup text = some rest) : rest.length < text.length := by
  unfold skipGroup at h
  split at h
  · rename_i upper hlower
    split at h
    · rename_i tail hupper
      cases h
      have h₁ := length_skipInteger_le hlower
      have h₂ := length_skipInteger_le hupper
      rw [List.length_cons] at h₁ h₂
      omega
    · cases h
  · cases h

def skipGroups (text : List Char) (groups : Nat) : Except EtlError (Nat × List Char) :=
  match text with
  | '[' :: group =>
    match _hgroup : skipGroup group with
    | none => .error malformed
    | some rest => skipGroups rest (groups + 1)
  | _ => .ok (groups, text)
termination_by text.length
decreasing_by
  have hlt := length_skipGroup_lt _hgroup
  rw [List.length_cons]
  omega

def stripArrayDimensionsPrefix (input : List Char) : Except EtlError (List Char) :=
  if input.head? ≠ some '[' then .ok input
  else do
    let (groups, rest) ← skipGroups input 0
    match rest with
    | '=' :: literal => if groups > 1 then .error multidimensional else .ok literal
    | _ => .error malformed

structure ElementScan where
  valStr : List Char
  inQuotes : Bool
  inEscape : Bool
  valQuoted : Bool
  rest : Option (List Char)
deriving DecidableEq

def scanElement (valStr : List Char) (inQuotes inEscape valQuoted : Bool) :
    List Char → Except EtlError ElementScan
  | [] => .ok ⟨valStr, inQuotes, inEscape, valQuoted, none⟩
  | c :: chars =>
    if inEscape then scanElement (valStr ++ [c]) inQuotes false valQuoted chars
    else if c = '"' then scanElement valStr (!inQuotes) false (valQuoted || !inQuotes) chars
    else if c = '\\' then scanElement valStr inQuotes true valQuoted chars
    else if (c = '\x7b' ∨ c = '\x7d') ∧ inQuotes = false then .error multidimensional
    else if c = ',' ∧ inQuotes = false then
      .ok ⟨valStr, inQuotes, inEscape, valQuoted, some chars⟩
    else scanElement (valStr ++ [c]) inQuotes false valQuoted chars

def isNullText (text : List Char) : Bool := text.map Char.toLower = ['n', 'u', 'l', 'l']

lemma length_lt_of_scanElement {valStr : List Char} {inQuotes inEscape valQuoted : Bool}
    {chars : List Char} {scan : ElementScan}
    (h : scanElement valStr inQuotes inEscape valQuoted chars = .ok scan)
    (hrest : scan.rest = some rest) : rest.length < chars.length := by
  fun_induction scanElement valStr inQuotes inEscape valQuoted chars with
  | case1 =>
    cases h
    cases hrest
  | case5 => cases h
  | case6 =>
    cases h
    cases hrest
    simp
  | _ =>
    rename_i ih
    have := ih h
    rw [List.length_cons]
    omega

variable {τ : Type}

def parseElements (parse : String → Except EtlError (Option τ)) (chars : List Char)
    (res : List (Option τ)) : Except EtlError (List (Option τ)) :=
  match _hscan : scanElement [] false false false chars with
  | .error e => .error e
  | .ok scan =>
    if scan.inQuotes then .error ⟨.conversionError, "Array input contains an unterminated quote"⟩
    else if scan.inEscape then
      .error ⟨.conversionError, "Array input contains an unterminated escape"⟩
    else
      match if !scan.valQuoted && isNullText scan.valStr then .ok none
        else parse (String.ofList scan.valStr) with
      | .error e => .error e
      | .ok val =>
        match _hrest : scan.rest with
        | none => .ok (res ++ [val])
        | some rest => parseElements parse rest (res ++ [val])
termination_by chars.length
decreasing_by exact length_lt_of_scanElement _hscan _hrest

def parseCellFromPostgresTextArray (parse : String → Except EtlError (Option τ))
    (str : List Char) : Except EtlError (List (Option τ)) := do
  let str ← stripArrayDimensionsPrefix str
  if CopyText.byteLength str < 2 then throw ⟨.conversionError, "Array input too short"⟩
  if str.head? ≠ some '\x7b' ∨ str.getLast? ≠ some '\x7d' then
    throw ⟨.conversionError, "Array input missing braces"⟩
  let str := (str.drop 1).take (str.length - 2)
  if str = [] then return []
  parseElements parse str []

/-! ## What the server sends -/

def isSpace (c : Char) : Bool :=
  c = ' ' || c = '\t' || c = '\n' || c = '\r' || c = Char.ofNat 11 || c = Char.ofNat 12

def isPlain (delimiter c : Char) : Bool :=
  !(c = '"' || c = '\\' || c = '\x7b' || c = '\x7d' || c = delimiter || isSpace c)

def needsQuotes (delimiter : Char) (text : List Char) : Bool :=
  text = [] || isNullText text || !text.all (isPlain delimiter)

def escapeChar (c : Char) : List Char := if c = '"' ∨ c = '\\' then ['\\', c] else [c]

def elementOut (delimiter : Char) : Option String → List Char
  | none => ['N', 'U', 'L', 'L']
  | some value =>
    if needsQuotes delimiter value.toList then
      '"' :: (value.toList.flatMap escapeChar ++ ['"'])
    else value.toList

def boundText (n : Int) : List Char := (if n < 0 then ['-'] else []) ++ Text.render 10 n.natAbs

def groupText (bounds : Int × Int) : List Char :=
  '[' :: boundText bounds.1 ++ ':' :: boundText bounds.2 ++ [']']

def boundsText (groups : List (Int × Int)) : List Char :=
  if groups = [] then [] else groups.flatMap groupText ++ ['=']

def arrayOut (delimiter : Char) (bounds : Option (Int × Int)) (elements : List (Option String)) :
    List Char :=
  boundsText bounds.toList ++
    ('\x7b' :: [delimiter].intercalate (elements.map (elementOut delimiter)) ++ ['\x7d'])

inductive ArrayTree where
  | leaf (element : Option String)
  | node (children : List ArrayTree)

def ArrayTree.out : ArrayTree → List Char
  | .leaf element => elementOut ',' element
  | .node children => '\x7b' :: [','].intercalate (children.map fun child => child.out) ++ ['\x7d']

/-! ## Reading an element -/

variable {c : Char}

lemma isPlain_eq_true_iff {delimiter : Char} : isPlain delimiter c = true ↔
      c ≠ '"' ∧ c ≠ '\\' ∧ c ≠ '\x7b' ∧ c ≠ '\x7d' ∧ c ≠ delimiter ∧ isSpace c = false := by
  simp only [isPlain, Bool.not_eq_true', Bool.or_eq_false_iff, decide_eq_false_iff_not, and_assoc,
    ne_eq]

lemma scanElement_plain (hquote : c ≠ '"') (hslash : c ≠ '\\')
    (hopen : c ≠ '\x7b') (hclose : c ≠ '\x7d') (hcomma : c ≠ ',') (valStr chars : List Char)
    (valQuoted : Bool) : scanElement valStr false false valQuoted (c :: chars) =
      scanElement (valStr ++ [c]) false false valQuoted chars := by
  rw [scanElement]
  simp [hquote, hslash, hopen, hclose, hcomma]

lemma scanElement_append_plain (h : ∀ c ∈ text, isPlain ',' c = true)
    (valStr rest : List Char) (valQuoted : Bool) :
    scanElement valStr false false valQuoted (text ++ rest) =
      scanElement (valStr ++ text) false false valQuoted rest := by
  induction text generalizing valStr with
  | nil => rw [List.nil_append, List.append_nil]
  | cons c text ih =>
    obtain ⟨hc, htext⟩ := List.forall_mem_cons.1 h
    obtain ⟨hquote, hslash, hopen, hclose, hcomma, -⟩ := isPlain_eq_true_iff.1 hc
    rw [List.cons_append, scanElement_plain hquote hslash hopen hclose hcomma, ih htext,
      List.append_assoc]
    rfl

lemma scanElement_append_escaped (text valStr rest : List Char) :
    scanElement valStr true false true (text.flatMap escapeChar ++ rest) =
      scanElement (valStr ++ text) true false true rest := by
  induction text generalizing valStr with
  | nil => rw [List.flatMap_nil, List.nil_append, List.append_nil]
  | cons c text ih =>
    have hstep (tail : List Char) : scanElement valStr true false true (escapeChar c ++ tail) =
        scanElement (valStr ++ [c]) true false true tail := by
      unfold escapeChar
      split_ifs with hc
      · rw [List.cons_append, List.singleton_append, scanElement]
        simp [scanElement]
      · rw [not_or] at hc
        rw [List.singleton_append, scanElement]
        simp [hc.1, hc.2]
    rw [List.flatMap_cons, List.append_assoc, hstep, ih, List.append_assoc]
    rfl

def readText : Option String → List Char
  | none => ['N', 'U', 'L', 'L']
  | some value => value.toList

def readQuoted : Option String → Bool
  | none => false
  | some value => needsQuotes ',' value.toList

lemma scanElement_elementOut (element : Option String) (rest : List Char) :
    scanElement [] false false false (elementOut ',' element ++ rest) =
      scanElement (readText element) false false (readQuoted element) rest := by
  cases element with
  | none => exact scanElement_append_plain (by simp [elementOut, isPlain, isSpace]) [] rest false
  | some value =>
    simp only [elementOut, readText, readQuoted]
    cases hquotes : needsQuotes ',' value.toList with
    | true =>
      rw [if_pos rfl, List.cons_append, List.append_assoc, scanElement]
      simp only [Bool.false_eq_true, if_false, if_true, Bool.not_false, Bool.or_true]
      rw [scanElement_append_escaped, List.nil_append, List.singleton_append, scanElement]
      simp
    | false =>
      have hplain : ∀ c ∈ value.toList, isPlain ',' c = true := by
        simp only [needsQuotes, Bool.or_eq_false_iff, Bool.not_eq_false', List.all_eq_true]
          at hquotes
        exact hquotes.2
      rw [if_neg Bool.false_ne_true]
      exact scanElement_append_plain hplain [] rest false

lemma isNull_readText (element : Option String) :
    (!readQuoted element && isNullText (readText element)) = element.isNone := by
  cases element with
  | none => decide
  | some value =>
    simp only [readQuoted, readText, needsQuotes, Option.isNone_some]
    cases isNullText value.toList <;> simp

def decodeElement (parse : String → Except EtlError (Option τ)) :
    Option String → Except EtlError (Option τ)
  | none => .ok none
  | some value => parse value

lemma decodeElement_eq (parse : String → Except EtlError (Option τ)) (element : Option String) :
    (if !readQuoted element && isNullText (readText element) then .ok none
      else parse (String.ofList (readText element))) = decodeElement parse element := by
  rw [isNull_readText]
  cases element with
  | none => rfl
  | some value => simp [readText, decodeElement]

variable (parse : String → Except EtlError (Option τ))

lemma parseElements_elementOut (element : Option String) (res : List (Option τ)) :
    parseElements parse (elementOut ',' element) res =
      (decodeElement parse element).map fun val => res ++ [val] := by
  have hscan := scanElement_elementOut element []
  rw [List.append_nil, scanElement] at hscan
  rw [parseElements]
  split
  · rename_i hfound
    rw [hscan] at hfound
    cases hfound
  · rename_i scan hfound
    rw [hscan] at hfound
    cases hfound
    simp only [Bool.false_eq_true, if_false, decodeElement_eq]
    cases decodeElement parse element <;> rfl

lemma parseElements_elementOut_comma (element : Option String) (rest : List Char)
    (res : List (Option τ)) :
    parseElements parse (elementOut ',' element ++ ',' :: rest) res =
      (decodeElement parse element).bind fun val => parseElements parse rest (res ++ [val]) := by
  have hscan := scanElement_elementOut element (',' :: rest)
  rw [scanElement] at hscan
  simp only [Bool.false_eq_true, if_false, Char.reduceEq, false_and, or_self, and_self, if_true]
    at hscan
  rw [parseElements]
  split
  · rename_i hfound
    rw [hscan] at hfound
    cases hfound
  · rename_i scan hfound
    rw [hscan] at hfound
    cases hfound
    simp only [Bool.false_eq_true, if_false, decodeElement_eq]
    cases decodeElement parse element <;> rfl

lemma intercalate_cons_cons (sep : Char) (first next : List Char) (rest : List (List Char)) :
    [sep].intercalate (first :: next :: rest) =
      first ++ sep :: [sep].intercalate (next :: rest) := by
  simp [List.intercalate]

lemma intercalate_ne_nil {sep : Char} {part : List Char} {parts : List (List Char)}
    (hpart : part ≠ []) : [sep].intercalate (part :: parts) ≠ [] := by
  cases parts with
  | nil => simpa using hpart
  | cons next parts =>
    rw [intercalate_cons_cons]
    simp

lemma parseElements_intercalate (element : Option String) (elements : List (Option String))
    (res : List (Option τ)) :
    parseElements parse ([','].intercalate ((element :: elements).map (elementOut ','))) res =
      ((element :: elements).mapM (decodeElement parse)).map (res ++ ·) := by
  induction elements generalizing element res with
  | nil =>
    rw [List.map_singleton, List.intercalate_singleton, parseElements_elementOut, List.mapM_cons,
      List.mapM_nil]
    cases decodeElement parse element <;> rfl
  | cons next elements ih =>
    rw [List.map_cons, List.map_cons, intercalate_cons_cons, ← List.map_cons,
      parseElements_elementOut_comma]
    rw [List.mapM_cons]
    cases decodeElement parse element with
    | error e => rfl
    | ok val =>
      simp only [Except.bind]
      rw [ih next (res ++ [val])]
      cases (next :: elements).mapM (decodeElement parse) <;> simp <;> rfl

/-! ## Reading a literal -/

lemma isDigit_iff : c.isDigit = true ↔ 48 ≤ c.toNat ∧ c.toNat ≤ 57 := by
  simp [Char.isDigit, UInt32.le_iff_toNat_le]

lemma isDigit_of_mem_render {n : Nat} (h : c ∈ Text.render 10 n) : c.isDigit = true := by
  have hsome := Text.digitVal?_of_mem_render (by omega) (by omega) h
  rw [isDigit_iff]
  unfold Text.digitVal? at hsome
  grind

lemma render_ne_nil (n : Nat) : Text.render 10 n ≠ [] := by
  intro hnil
  have hparse := Text.parse?_render (le_refl 2 |>.trans (by omega : 2 ≤ 10)) (by omega) n
  rw [hnil] at hparse
  cases hparse

lemma skip_digits {digits : List Char} (hdigits : ∀ c ∈ digits, c.isDigit = true)
    (hrest : rest.takeWhile Char.isDigit = []) : (digits ++ rest).takeWhile Char.isDigit = digits ∧
      (digits ++ rest).dropWhile Char.isDigit = rest := by
  have hdrop : rest.dropWhile Char.isDigit = rest := by
    have := List.takeWhile_append_dropWhile (p := Char.isDigit) (l := rest)
    rwa [hrest, List.nil_append] at this
  rw [List.takeWhile_append_of_pos hdigits, hrest, List.append_nil,
    List.dropWhile_append_of_pos hdigits, hdrop]
  exact ⟨rfl, rfl⟩

lemma skipInteger_boundText (n : Int) (hrest : rest.takeWhile Char.isDigit = []) :
    skipInteger (boundText n ++ rest) = some rest := by
  have hsign : skipSign (boundText n ++ rest) = Text.render 10 n.natAbs ++ rest := by
    unfold boundText
    split_ifs
    · rfl
    · rw [List.nil_append]
      obtain ⟨c, digits, hrender⟩ := List.exists_cons_of_ne_nil (render_ne_nil n.natAbs)
      have hc : c.isDigit = true := isDigit_of_mem_render (by rw [hrender]; exact .head _)
      rw [hrender, List.cons_append, skipSign]
      intro _ heq
      rw [(List.cons.inj heq).1] at hc
      exact absurd hc (by decide)
  obtain ⟨htake, hdrop⟩ :=
    skip_digits (fun c (hc : c ∈ Text.render 10 n.natAbs) => isDigit_of_mem_render hc) hrest
  rw [skipInteger, hsign, htake, hdrop, if_neg (render_ne_nil _)]

lemma skipGroup_groupText (bounds : Int × Int) (rest : List Char) :
    skipGroup (boundText bounds.1 ++ ':' :: boundText bounds.2 ++ [']'] ++ rest) = some rest := by
  have hlower : skipInteger (boundText bounds.1 ++ ':' :: (boundText bounds.2 ++ ']' :: rest)) =
      some (':' :: (boundText bounds.2 ++ ']' :: rest)) := skipInteger_boundText _ rfl
  have hupper : skipInteger (boundText bounds.2 ++ ']' :: rest) = some (']' :: rest) :=
    skipInteger_boundText _ rfl
  unfold skipGroup
  simp only [List.append_assoc, List.cons_append, List.nil_append, hlower, hupper]

lemma skipGroups_groupText (groups : List (Int × Int)) (count : Nat) (rest : List Char) :
    skipGroups (groups.flatMap groupText ++ '=' :: rest) count =
      .ok (count + groups.length, '=' :: rest) := by
  induction groups generalizing count with
  | nil =>
    rw [List.flatMap_nil, List.nil_append, skipGroups]
    · rfl
    · rintro _ ⟨⟩
  | cons bounds groups ih =>
    have htext : (bounds :: groups).flatMap groupText ++ '=' :: rest =
        '[' :: (boundText bounds.1 ++ ':' :: boundText bounds.2 ++ [']'] ++
          (groups.flatMap groupText ++ '=' :: rest)) := by
      simp [groupText]
    rw [htext, skipGroups]
    split
    · rename_i hgroup
      rw [skipGroup_groupText] at hgroup
      cases hgroup
    · rename_i tail hgroup
      rw [skipGroup_groupText] at hgroup
      cases hgroup
      rw [ih, List.length_cons]
      congr 2
      omega

lemma stripArrayDimensionsPrefix_boundsText (groups : List (Int × Int)) (literal : List Char) :
    stripArrayDimensionsPrefix (boundsText groups ++ '\x7b' :: literal) =
      if groups.length ≤ 1 then .ok ('\x7b' :: literal) else .error multidimensional := by
  cases groups with
  | nil => simp [stripArrayDimensionsPrefix, boundsText]
  | cons bounds groups =>
    have hhead : (boundsText (bounds :: groups) ++ '\x7b' :: literal).head? = some '[' := rfl
    have hskip := skipGroups_groupText (bounds :: groups) 0 ('\x7b' :: literal)
    unfold stripArrayDimensionsPrefix
    rw [if_neg (by rw [hhead]; simp)]
    simp only [boundsText, reduceCtorEq, if_false, List.append_assoc, List.singleton_append, hskip]
    simp only [bind, Except.bind, Nat.zero_add]
    split_ifs <;> first | rfl | omega

lemma two_le_byteLength (body : List Char) :
    ¬CopyText.byteLength ('\x7b' :: (body ++ ['\x7d'])) < 2 := by
  have hsize : Char.utf8Size '\x7b' = 1 ∧ Char.utf8Size '\x7d' = 1 := by decide
  simp only [CopyText.byteLength, List.map_cons, List.map_append, List.map_nil, List.sum_cons,
    List.sum_append, List.sum_nil, hsize.1, hsize.2]
  omega

lemma parseCellFromPostgresTextArray_braces (groups : List (Int × Int)) (body : List Char) :
    parseCellFromPostgresTextArray parse (boundsText groups ++ ('\x7b' :: body ++ ['\x7d'])) =
      if groups.length ≤ 1 then
        if body = [] then .ok [] else parseElements parse body []
      else .error multidimensional := by
  have hbody : (('\x7b' :: (body ++ ['\x7d'])).drop 1).take
      (('\x7b' :: (body ++ ['\x7d'])).length - 2) = body := by
    simp
  have hlast : ('\x7b' :: (body ++ ['\x7d'])).getLast? = some '\x7d' := by
    rw [← List.cons_append, List.getLast?_append]
    rfl
  unfold parseCellFromPostgresTextArray
  rw [List.cons_append, stripArrayDimensionsPrefix_boundsText]
  by_cases hgroups : groups.length ≤ 1
  · rw [if_pos hgroups, if_pos hgroups]
    simp only [bind, Except.bind, two_le_byteLength, if_false, hlast, hbody, List.head?_cons, ne_eq,
      not_true_eq_false, or_self]
    rfl
  · rw [if_neg hgroups, if_neg hgroups]
    rfl

lemma elementOut_ne_nil (delimiter : Char) (element : Option String) :
    elementOut delimiter element ≠ [] := by
  cases element with
  | none => exact nofun
  | some value =>
    rw [elementOut]
    split_ifs with hquotes
    · exact nofun
    · intro hnil
      simp [needsQuotes, hnil] at hquotes

lemma ArrayTree.out_ne_nil (tree : ArrayTree) : tree.out ≠ [] := by
  cases tree with
  | leaf element =>
    rw [ArrayTree.out]
    exact elementOut_ne_nil ',' element
  | node children =>
    rw [ArrayTree.out]
    exact nofun

lemma parseCellFromPostgresTextArray_arrayOut_eq (bounds : Option (Int × Int))
    (elements : List (Option String)) :
    parseCellFromPostgresTextArray parse (arrayOut ',' bounds elements) =
      elements.mapM (decodeElement parse) := by
  have hgroups : bounds.toList.length ≤ 1 := by cases bounds <;> simp
  rw [arrayOut, parseCellFromPostgresTextArray_braces, if_pos hgroups]
  cases elements with
  | nil => rfl
  | cons element elements =>
    have hne : [','].intercalate ((element :: elements).map (elementOut ',')) ≠ [] :=
      intercalate_ne_nil (elementOut_ne_nil ',' element)
    rw [if_neg hne, parseElements_intercalate]
    cases (element :: elements).mapM (decodeElement parse) <;> rfl

lemma parseElements_node (children : List ArrayTree) (rest : List Char)
    (res : List (Option τ)) :
    parseElements parse ((ArrayTree.node children).out ++ rest) res = .error multidimensional := by
  have hscan : scanElement [] false false false ((ArrayTree.node children).out ++ rest) =
      .error multidimensional := by
    rw [ArrayTree.out, List.cons_append, List.cons_append, scanElement]
    simp
  rw [parseElements]
  split
  · rename_i hfound
    rw [hscan] at hfound
    cases hfound
    rfl
  · rename_i hfound
    rw [hscan] at hfound
    cases hfound

lemma parseElements_nested (trees : List ArrayTree) (children : List ArrayTree)
    (hmem : ArrayTree.node children ∈ trees) (res : List (Option String)) :
    parseElements (fun value => .ok (some value)) ([','].intercalate (trees.map (·.out))) res =
      .error multidimensional := by
  induction trees generalizing res with
  | nil => cases hmem
  | cons tree trees ih =>
    cases tree with
    | node children =>
      cases trees with
      | nil =>
        have hnode := parseElements_node (fun value => .ok (some value)) children [] res
        rw [List.append_nil] at hnode
        rwa [List.map_singleton, List.intercalate_singleton]
      | cons next trees =>
        rw [List.map_cons, List.map_cons, intercalate_cons_cons]
        exact parseElements_node _ children _ res
    | leaf element =>
      have hrest : ArrayTree.node children ∈ trees := by simpa using hmem
      cases trees with
      | nil => cases hrest
      | cons next trees =>
        rw [List.map_cons, List.map_cons, intercalate_cons_cons, ArrayTree.out,
          parseElements_elementOut_comma]
        cases element with
        | none => exact ih hrest _
        | some value => exact ih hrest _

end ArrayText

open ArrayText

/-- An array of texts in one dimension is read back as it is, whether bounds are written before it or
not, and every null and every text stays what it is. An array one of whose elements is an array is
not read, whatever bounds are written before it. -/
theorem parseCellFromPostgresTextArray_arrayOut :
    (∀ (bounds : Option (Int × Int)) (elements : List (Option String)),
      parseCellFromPostgresTextArray (fun value => .ok (some value))
        (arrayOut ',' bounds elements) = .ok elements) ∧
    (∀ (groups : List (Int × Int)) (trees children : List ArrayTree),
      ArrayTree.node children ∈ trees →
      parseCellFromPostgresTextArray (fun value => .ok (some value))
        (boundsText groups ++ (ArrayTree.node trees).out) = .error multidimensional) := by
  constructor
  · intro bounds elements
    rw [parseCellFromPostgresTextArray_arrayOut_eq]
    induction elements with
    | nil => rfl
    | cons element elements ih =>
      rw [List.mapM_cons, ih]
      cases element <;> rfl
  · intro groups trees children hmem
    rw [ArrayTree.out, parseCellFromPostgresTextArray_braces]
    split_ifs with hgroups hbody
    · obtain ⟨tree, trees, rfl⟩ := List.exists_cons_of_ne_nil (List.ne_nil_of_mem hmem)
      exact absurd hbody (intercalate_ne_nil tree.out_ne_nil)
    · exact parseElements_nested trees children hmem []
    · rfl

/-- Nulls, an empty text, the text `NULL` and one with delimiters, quotes and braces in it. -/
theorem parseCellFromPostgresTextArray_arrayOut_sample :
    arrayOut ',' (some (0, 3)) [none, some "NULL", some "", some "a,\"b\\"] =
        "[0:3]=\x7bNULL,\"NULL\",\"\",\"a,\\\"b\\\\\"\x7d".toList ∧
      parseCellFromPostgresTextArray (fun value => .ok (some value))
          (arrayOut ',' (some (0, 3)) [none, some "NULL", some "", some "a,\"b\\"]) =
        .ok [none, some "NULL", some "", some "a,\"b\\"] ∧
      parseCellFromPostgresTextArray (fun value => .ok (some value))
          (boundsText [] ++ (ArrayTree.node [.node [.leaf (some "a")], .node [.leaf none]]).out) =
        .error multidimensional :=
  ⟨by decide +kernel, parseCellFromPostgresTextArray_arrayOut.1 _ _,
    parseCellFromPostgresTextArray_arrayOut.2 [] _ [.leaf none] (.tail _ (.head _))⟩

end Etl
