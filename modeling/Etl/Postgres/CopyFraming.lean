import Etl.Postgres.CopyText

/-!
# Which texts the COPY parser takes for a row

Fields are separated by tabs and a row is ended by a newline (`SingleRow`). The parser ends a field
at either and asks only at the end for a newline, so it also accepts one between two fields, or more
text behind the last one.
-/

namespace Etl.CopyText

/-- Every backslash has the character it stands before. -/
inductive Balanced : List Char → Prop
  | nil : Balanced []
  | plain {c : Char} {text : List Char} : c ≠ '\\' → Balanced text → Balanced (c :: text)
  | escape {c : Char} {text : List Char} : Balanced text → Balanced ('\\' :: c :: text)

/-- A tab or newline stands behind a backslash only. -/
inductive FieldText : List Char → Prop
  | nil : FieldText []
  | plain {c : Char} {text : List Char} :
      isSpecial c = false → FieldText text → FieldText (c :: text)
  | escape {c : Char} {text : List Char} : FieldText text → FieldText ('\\' :: c :: text)

/-- So many fields with tabs between them, and a newline at the end. -/
def SingleRow (count : Nat) (text : List Char) : Prop :=
  ∃ fields : List (List Char), fields.length = count ∧ (∀ field ∈ fields, FieldText field) ∧
    text = ['\t'].intercalate fields ++ ['\n']

def NewlineLast (text : List Char) : Prop :=
  ∀ before after, text = before ++ '\n' :: after → Balanced before → after = []

def splitField : List Char → Option (List Char × Char × List Char)
  | [] => none
  | '\\' :: [] => none
  | '\\' :: c :: text =>
    (splitField text).map fun (field, terminator, rest) => ('\\' :: c :: field, terminator, rest)
  | '\t' :: text => some ([], '\t', text)
  | '\n' :: text => some ([], '\n', text)
  | c :: text =>
    (splitField text).map fun (field, terminator, rest) => (c :: field, terminator, rest)

def terminators : List Char → List Char
  | [] => []
  | '\\' :: [] => []
  | '\\' :: _ :: text => terminators text
  | '\t' :: text => '\t' :: terminators text
  | '\n' :: text => '\n' :: terminators text
  | _ :: text => terminators text

variable {text : List Char}

lemma FieldText.balanced (h : FieldText text) : Balanced text := by
  induction h with
  | nil => exact .nil
  | plain hc _ ih =>
    refine .plain ?_ ih
    rintro rfl
    exact absurd hc (by decide)
  | escape _ ih => exact .escape ih

lemma Balanced.append {a b : List Char} (ha : Balanced a) (hb : Balanced b) :
    Balanced (a ++ b) := by
  induction ha with
  | nil => exact hb
  | plain hc _ ih => exact .plain hc ih
  | escape _ ih => exact .escape ih

variable {c : Char}

lemma isSpecial_eq_true_iff : isSpecial c = true ↔ c = '\t' ∨ c = '\n' ∨ c = '\\' := by
  simp [isSpecial, or_assoc]

lemma isSpecial_eq_false_iff : isSpecial c = false ↔ c ≠ '\t' ∧ c ≠ '\n' ∧ c ≠ '\\' := by
  simp [isSpecial, and_assoc]

lemma terminators_plain (hc : isSpecial c = false) (text : List Char) :
    terminators (c :: text) = terminators text := by
  obtain ⟨htab, hnewline, hslash⟩ := isSpecial_eq_false_iff.1 hc
  rw [terminators] <;> simp_all

lemma Balanced.terminators_append {a : List Char} (ha : Balanced a) (b : List Char) :
    terminators (a ++ b) = terminators a ++ terminators b := by
  induction ha with
  | nil => rfl
  | @plain c text hc _ ih =>
    cases hspecial : isSpecial c with
    | false =>
      rw [List.cons_append, terminators_plain hspecial, terminators_plain hspecial, ih]
    | true =>
      rcases isSpecial_eq_true_iff.1 hspecial with rfl | rfl | rfl
      · rw [List.cons_append, terminators, terminators, ih, List.cons_append]
      · rw [List.cons_append, terminators, terminators, ih, List.cons_append]
      · exact absurd rfl hc
  | escape _ ih =>
    rw [List.cons_append, List.cons_append, terminators, terminators, ih]

variable {field : List Char}

lemma FieldText.terminators_eq (h : FieldText field) : terminators field = [] := by
  induction h with
  | nil => rfl
  | plain hc _ ih => rw [terminators_plain hc, ih]
  | escape _ ih => exact ih

lemma terminators_of_splitField_none (h : splitField text = none) : terminators text = [] := by
  fun_induction splitField text with
  | case1 => rfl
  | case2 => rfl
  | case3 c text ih => exact ih (Option.map_eq_none_iff.1 h)
  | case4 => cases h
  | case5 => cases h
  | case6 c text _ _ _ _ ih =>
    rw [terminators]
    · exact ih (Option.map_eq_none_iff.1 h)
    all_goals assumption

lemma splitField_spec {rest : List Char} {terminator : Char}
    (h : splitField text = some (field, terminator, rest)) :
    text = field ++ terminator :: rest ∧ FieldText field ∧
      (terminator = '\t' ∨ terminator = '\n') := by
  fun_induction splitField text generalizing field with
  | case1 => cases h
  | case2 => cases h
  | case3 c text ih =>
    obtain ⟨⟨field, terminator, rest⟩, hsplit, heq⟩ := Option.map_eq_some_iff.1 h
    cases heq
    obtain ⟨htext, hfield, hend⟩ := ih hsplit
    exact ⟨by rw [htext]; rfl, .escape hfield, hend⟩
  | case4 =>
    cases h
    exact ⟨rfl, .nil, .inl rfl⟩
  | case5 =>
    cases h
    exact ⟨rfl, .nil, .inr rfl⟩
  | case6 c text hlone hescape htab hnewline ih =>
    obtain ⟨⟨field, terminator, rest⟩, hsplit, heq⟩ := Option.map_eq_some_iff.1 h
    cases heq
    obtain ⟨htext, hfield, hend⟩ := ih hsplit
    have hslash : c ≠ '\\' := fun hc => by
      cases text with
      | nil => exact hlone hc rfl
      | cons d text => exact hescape d text hc rfl
    exact ⟨by rw [htext]; rfl, .plain (isSpecial_eq_false_iff.2 ⟨htab, hnewline, hslash⟩) hfield,
      hend⟩

lemma terminators_of_splitField_some {rest : List Char} {terminator : Char}
    (h : splitField text = some (field, terminator, rest)) :
    terminators text = terminator :: terminators rest := by
  obtain ⟨rfl, hfield, hend⟩ := splitField_spec h
  rw [hfield.balanced.terminators_append, hfield.terminators_eq, List.nil_append]
  rcases hend with rfl | rfl <;> rw [terminators]

/-! ## What the parser looks at -/

variable {row : List Char} {pos : Nat}

lemma of_drop_eq_cons
    (h : row.drop pos = c :: text) : row[pos]? = some c ∧ row.drop (pos + 1) = text := by
  constructor
  · have hget := congrArg (·[0]?) h
    simpa using hget
  · rw [← List.drop_drop, h]
    rfl

lemma scanField_eq_splitField {row text : List Char} {fieldStart pos literalStart : Nat}
    {fieldEscaped : Bool} {fieldBuffer : List Char} (hrow : row.drop pos = text)
    (hle : literalStart ≤ pos) (hbuffer : fieldEscaped = false → fieldBuffer = []) :
    (scanField row fieldStart pos literalStart fieldEscaped fieldBuffer).map
        (fun scan => (scan.pos, scan.rowTerminated)) =
      (splitField text).map fun split =>
        (pos + split.1.length + 1, decide (split.2.1 = '\n')) := by
  fun_induction splitField text
    generalizing pos literalStart fieldEscaped fieldBuffer with
  | case1 =>
    rw [scanField_of_none (by rw [hrow, findNextSpecial_eq]; rfl)]
    rfl
  | case2 =>
    obtain ⟨hget, hnext⟩ := of_drop_eq_cons hrow
    have hfind : findNextSpecial (row.drop pos) = some (pos - pos) := by
      rw [hrow, findNextSpecial_eq]
      simp [isSpecial]
    have hend : findNextSpecial (row.drop (pos + 1)) = none := by
      rw [hnext, findNextSpecial_eq]
      rfl
    have hlast : row[pos + 1]? = none := by
      rw [List.getElem?_eq_none_iff]
      exact List.drop_eq_nil_iff.1 hnext
    rw [scanField_of_some le_rfl hfind]
    simp [hget, hlast, scanField_of_none hend]
  | case3 c text ih =>
    obtain ⟨hslash, hrow⟩ := of_drop_eq_cons hrow
    obtain ⟨hget, hnext⟩ := of_drop_eq_cons hrow
    rw [scanField_escape hslash hget hle hbuffer, @ih (pos + 2) (pos + 2) true _ hnext le_rfl (by simp),
      Option.map_map]
    congr 1
    funext split
    simp only [Function.comp_apply, List.length_cons]
    congr 1
    omega
  | case4 text =>
    rw [scanField_terminator (of_drop_eq_cons hrow).1 (.inl rfl)]
    rfl
  | case5 text =>
    rw [scanField_terminator (of_drop_eq_cons hrow).1 (.inr rfl)]
    rfl
  | case6 c text hlone hescape htab hnewline ih =>
    obtain ⟨hget, hnext⟩ := of_drop_eq_cons hrow
    have hslash : c ≠ '\\' := fun hc => by
      cases text with
      | nil => exact hlone hc rfl
      | cons d text => exact hescape d text hc rfl
    rw [scanField_skip hget (isSpecial_eq_false_iff.2 ⟨htab, hnewline, hslash⟩),
      ih hnext (Nat.le_succ_of_le hle) hbuffer, Option.map_map]
    congr 1
    funext split
    simp only [Function.comp_apply, List.length_cons]
    congr 1
    omega

lemma terminators_of_scanField_none
    (h : scanField row pos pos pos false [] = none) : terminators (row.drop pos) = [] := by
  have hsplit := @scanField_eq_splitField row _ pos pos pos false [] rfl le_rfl fun _ => rfl
  rw [h, Option.map_none, eq_comm, Option.map_eq_none_iff] at hsplit
  exact terminators_of_splitField_none hsplit

lemma terminators_of_scanField_some {scan : FieldScan}
    (h : scanField row pos pos pos false [] = some scan) :
    ∃ terminator, terminators (row.drop pos) = terminator :: terminators (row.drop scan.pos) ∧
      scan.rowTerminated = decide (terminator = '\n') := by
  have hsplit := @scanField_eq_splitField row _ pos pos pos false [] rfl le_rfl fun _ => rfl
  rw [h, Option.map_some, eq_comm, Option.map_eq_some_iff] at hsplit
  obtain ⟨⟨field, terminator, rest⟩, hsplit, heq⟩ := hsplit
  obtain ⟨hpos, hdone⟩ := Prod.mk.inj heq
  refine ⟨terminator, ?_, hdone.symm⟩
  rw [terminators_of_splitField_some hsplit, ← hpos]
  have hrest : row.drop (pos + field.length + 1) = rest := by
    rw [Nat.add_assoc, ← List.drop_drop, (splitField_spec hsplit).1]
    simp
  rw [hrest]

variable {β : Type} {codec : TextCodec β} {row : List Char} {columnSchemas : List ColumnSchema}

lemma terminators_of_field {columnIndex : Nat} {rowTerminated : Bool} {scan : FieldScan}
    (hscan : scanField row pos pos pos false [] = some scan)
    (hrest : columnIndex + 1 + (terminators (row.drop scan.pos)).length = columnSchemas.length ∧
      ((rowTerminated || scan.rowTerminated) = true ∨ '\n' ∈ terminators (row.drop scan.pos))) :
    columnIndex + (terminators (row.drop pos)).length = columnSchemas.length ∧
      (rowTerminated = true ∨ '\n' ∈ terminators (row.drop pos)) := by
  obtain ⟨terminator, hterminators, hdone⟩ := terminators_of_scanField_some hscan
  obtain ⟨hcount, hnewline⟩ := hrest
  rw [hterminators]
  refine ⟨by rw [List.length_cons]; omega, ?_⟩
  simp only [hdone, Bool.or_eq_true, decide_eq_true_eq, List.mem_cons] at hnewline ⊢
  rcases hnewline with (hbefore | rfl) | hafter
  · exact .inl hbefore
  · exact .inr (.inl rfl)
  · exact .inr (.inr hafter)

lemma terminators_of_parseFields_ok {columnIndex : Nat} {rowTerminated : Bool}
    {values cells : List (Cell β)}
    (h : parseFields codec row columnSchemas pos columnIndex rowTerminated values = .ok cells)
    (hle : columnIndex ≤ columnSchemas.length) :
    columnIndex + (terminators (row.drop pos)).length = columnSchemas.length ∧
      (rowTerminated = true ∨ '\n' ∈ terminators (row.drop pos)) := by
  fun_induction parseFields codec row columnSchemas pos columnIndex rowTerminated values with
  | case1 => cases h
  | case2 pos columnIndex values hscan hcount =>
    rw [terminators_of_scanField_none hscan]
    exact ⟨by rw [List.length_nil]; omega, .inl rfl⟩
  | case3 => cases h
  | case4 => cases h
  | case5 pos columnIndex rowTerminated values scan hscan columnSchema hcolumn _ _ ih =>
    exact terminators_of_field hscan (ih h (List.getElem?_eq_some_iff.1 hcolumn).1)
  | case6 => cases h
  | case7 pos columnIndex rowTerminated values scan hscan columnSchema hcolumn _ _ _ _ _ ih =>
    exact terminators_of_field hscan (ih h (List.getElem?_eq_some_iff.1 hcolumn).1)

lemma parseFields_ok_of_terminators {pos columnIndex : Nat} {rowTerminated : Bool}
    {values : List (Cell β)}
    (htext : ∀ columnSchema ∈ columnSchemas, codec.specialized columnSchema.typ = none)
    (hcount : columnIndex + (terminators (row.drop pos)).length = columnSchemas.length)
    (hnewline : rowTerminated = true ∨ '\n' ∈ terminators (row.drop pos)) :
    ∃ cells, parseFields codec row columnSchemas pos columnIndex rowTerminated values = .ok cells := by
  induction hends : terminators (row.drop pos)
    generalizing pos columnIndex rowTerminated values with
  | nil =>
    simp only [hends, List.length_nil, Nat.add_zero, List.not_mem_nil, or_false] at hcount hnewline
    cases hscan : scanField row pos pos pos false [] with
    | none => exact ⟨_, parseFields_of_none hscan hnewline hcount.ge⟩
    | some scan =>
      obtain ⟨terminator, hterminators, -⟩ := terminators_of_scanField_some hscan
      rw [hends] at hterminators
      cases hterminators
  | cons terminator rest ih =>
    cases hscan : scanField row pos pos pos false [] with
    | none =>
      rw [terminators_of_scanField_none hscan] at hends
      cases hends
    | some scan =>
      obtain ⟨found, hterminators, hdone⟩ := terminators_of_scanField_some hscan
      rw [hends] at hterminators hcount hnewline
      obtain ⟨rfl, hrest⟩ := List.cons.inj hterminators
      rw [List.length_cons] at hcount
      have hlt : columnIndex < columnSchemas.length := by omega
      rw [parseFields_of_some hscan (List.getElem?_eq_getElem hlt) (htext _ (List.getElem_mem hlt))]
      refine ih (by rw [← hrest]; omega) ?_ hrest.symm
      rw [← hrest]
      simp only [hdone, Bool.or_eq_true, decide_eq_true_eq, List.mem_cons] at hnewline ⊢
      rcases hnewline with hbefore | hnow | hafter
      · exact .inl (.inl hbefore)
      · exact .inl (.inr hnow.symm)
      · exact .inr hafter

/-! ## Framing -/

lemma singleRow_of_newlineLast (hlast : NewlineLast text)
    (hnewline : '\n' ∈ terminators text) : SingleRow (terminators text).length text := by
  -- by induction on the terminators: the first field ends with a tab, or it is the last one
  induction hends : terminators text generalizing text with
  | nil =>
    rw [hends] at hnewline
    cases hnewline
  | cons terminator rest ih =>
    cases hsplit : splitField text with
    | none =>
      rw [terminators_of_splitField_none hsplit] at hends
      cases hends
    | some split =>
      obtain ⟨field, found, tail⟩ := split
      obtain ⟨rfl, hfield, hend⟩ := splitField_spec hsplit
      have hterminators := terminators_of_splitField_some hsplit
      rw [hterminators] at hends hnewline
      obtain ⟨rfl, hrest⟩ := List.cons.inj hends
      rcases hend with rfl | rfl
      · have htail : NewlineLast tail := fun before after heq hbalanced =>
          hlast (field ++ '\t' :: before) after (by rw [heq, List.append_assoc]; rfl)
            (hfield.balanced.append (.plain (by decide) hbalanced))
        have hmem : '\n' ∈ terminators tail := by simpa using hnewline
        obtain ⟨fields, hcount, hfields, htext⟩ := ih htail hmem hrest
        have hne : fields ≠ [] := by
          rintro rfl
          rw [hrest, List.eq_nil_of_length_eq_zero hcount.symm] at hmem
          cases hmem
        obtain ⟨next, fields, rfl⟩ := List.exists_cons_of_ne_nil hne
        refine ⟨field :: next :: fields, by simp [hcount], ?_, ?_⟩
        · intro other hother
          rcases List.mem_cons.1 hother with rfl | hother
          · exact hfield
          · exact hfields other hother
        · rw [htext]
          simp [List.intercalate]
      · obtain rfl := hlast field tail rfl hfield.balanced
        refine ⟨[field], by rw [← hrest]; rfl, by simpa using hfield, ?_⟩
        simp [List.intercalate]

lemma balanced_intercalate {fields : List (List Char)} (h : ∀ field ∈ fields, FieldText field) :
    Balanced (['\t'].intercalate fields) ∧
      '\n' ∉ terminators (['\t'].intercalate fields) := by
  induction fields with
  | nil => exact ⟨.nil, nofun⟩
  | cons field fields ih =>
    obtain ⟨hfield, hfields⟩ := List.forall_mem_cons.1 h
    obtain ⟨hbalanced, hnewline⟩ := ih hfields
    cases fields with
    | nil =>
      rw [List.intercalate_singleton]
      exact ⟨hfield.balanced, by rw [hfield.terminators_eq]; exact nofun⟩
    | cons next fields =>
      have hcons : ['\t'].intercalate (field :: next :: fields) =
          field ++ '\t' :: ['\t'].intercalate (next :: fields) := by
        simp [List.intercalate]
      rw [hcons, hfield.balanced.terminators_append, hfield.terminators_eq]
      refine ⟨hfield.balanced.append (.plain (by decide) hbalanced), ?_⟩
      rw [List.nil_append, terminators, List.mem_cons]
      rintro (habsurd | hmem)
      · exact absurd habsurd (by decide)
      · exact hnewline hmem

lemma SingleRow.newlineLast {count : Nat} (h : SingleRow count text) : NewlineLast text := by
  obtain ⟨fields, -, hfields, rfl⟩ := h
  obtain ⟨hbalanced, hnone⟩ := balanced_intercalate hfields
  intro before after heq hbefore
  rcases List.eq_nil_or_concat after with rfl | ⟨middle, c, rfl⟩
  · rfl
  -- a newline further ahead would be one of the text before the last character
  rw [List.concat_eq_append, ← List.cons_append, ← List.append_assoc] at heq
  obtain ⟨hbody, -⟩ := List.append_inj' heq rfl
  rw [hbody, hbefore.terminators_append, terminators] at hnone
  exact absurd (by simp) hnone

end Etl.CopyText

namespace Etl

open CopyText

/-- A text can be taken only for the row it is exactly if no newline, but one behind a backslash,
stands before its last character: then, and only then, every list of columns for which it parses has
as many columns as it has fields with a tab between them and a newline at the end. -/
theorem parseTableRowFromPostgresCopyStr_singleRow_iff {β : Type} (codec : TextCodec β)
    (rowStr : List Char) :
    (∀ columnSchemas cells,
      parseTableRowFromPostgresCopyStr codec rowStr columnSchemas = .ok cells →
        SingleRow columnSchemas.length rowStr) ↔ NewlineLast rowStr := by
  constructor
  · intro h
    by_contra hlast
    have hnewline : '\n' ∈ terminators rowStr := by
      simp only [NewlineLast, not_forall] at hlast
      obtain ⟨before, after, rfl, hbefore, -⟩ := hlast
      rw [hbefore.terminators_append, terminators]
      simp
    let columns := List.replicate (terminators rowStr).length
      (⟨"column", .text, -1, 1, none, true, none⟩ : ColumnSchema)
    have htext : ∀ columnSchema ∈ columns, codec.specialized columnSchema.typ = none := by
      intro columnSchema hmem
      rw [List.eq_of_mem_replicate hmem]
      exact codec.text
    obtain ⟨cells, hcells⟩ :=
      @parseFields_ok_of_terminators β codec rowStr columns 0 0 false [] htext
        (by simp [columns]) (.inr hnewline)
    exact hlast (h columns cells hcells).newlineLast
  · intro hlast columnSchemas cells hparse
    obtain ⟨hcount, hnewline⟩ := terminators_of_parseFields_ok hparse (Nat.zero_le _)
    rw [List.drop_zero] at hcount hnewline
    rw [← hcount, Nat.zero_add]
    exact singleRow_of_newlineLast hlast (hnewline.resolve_left nofun)

/-- A text with a newline between two fields, and one with more text behind the newline, are accepted
as rows of two columns and of one. -/
theorem parseTableRowFromPostgresCopyStr_accepts_two_rows :
    let codec : TextCodec Unit := ⟨fun _ => none, rfl⟩
    let columns : List ColumnSchema := CopyText.sampleColumns
    parseTableRowFromPostgresCopyStr codec ['1', '\n', '2', '\n'] (columns.take 2) =
        .ok [.string "1", .string "2"] ∧
      ¬SingleRow 2 ['1', '\n', '2', '\n'] ∧
      parseTableRowFromPostgresCopyStr codec ['1', '\n', '2'] (columns.take 1) =
        .ok [.string "1"] ∧
      ¬SingleRow 1 ['1', '\n', '2'] := by
  refine ⟨by decide +kernel, ?_, by decide +kernel, ?_⟩
  · intro h
    exact absurd (h.newlineLast ['1'] ['2', '\n'] rfl (.plain (by decide) .nil)) (by decide)
  · intro h
    exact absurd (h.newlineLast ['1'] ['2'] rfl (.plain (by decide) .nil)) (by decide)

end Etl
