import Etl.Postgres.ArrayText

/-!
# Cells from text

The decoders of the types with a representation of their own are a parameter; every other type is
kept as text. Of the built-in types only boxes have a delimiter that is not a comma
(`parseCellFromPostgresText_preserved_iff`).
-/

namespace Etl

open ArrayText

inductive CellKind where
  | bool | i16 | i32 | i64 | f32 | f64 | numeric | bytes | date | time | timeTz | timestamp
  | timestampTz | uuid | json | u32
deriving DecidableEq

def scalarKinds : List (String × CellKind) :=
  [("BOOL", .bool), ("INT2", .i16), ("INT4", .i32), ("INT8", .i64), ("FLOAT4", .f32),
   ("FLOAT8", .f64), ("NUMERIC", .numeric), ("BYTEA", .bytes), ("DATE", .date), ("TIME", .time),
   ("TIMETZ", .timeTz), ("TIMESTAMP", .timestamp), ("TIMESTAMPTZ", .timestampTz), ("UUID", .uuid),
   ("JSON", .json), ("JSONB", .json), ("OID", .u32)]

def arrayKinds : List (String × CellKind) :=
  [("BOOL_ARRAY", .bool), ("INT2_ARRAY", .i16), ("INT4_ARRAY", .i32), ("INT8_ARRAY", .i64),
   ("FLOAT4_ARRAY", .f32), ("FLOAT8_ARRAY", .f64), ("NUMERIC_ARRAY", .numeric),
   ("BYTEA_ARRAY", .bytes), ("DATE_ARRAY", .date), ("TIME_ARRAY", .time), ("TIMETZ_ARRAY", .timeTz),
   ("TIMESTAMP_ARRAY", .timestamp), ("TIMESTAMPTZ_ARRAY", .timestampTz), ("UUID_ARRAY", .uuid),
   ("JSON_ARRAY", .json), ("JSONB_ARRAY", .json), ("OID_ARRAY", .u32)]

def scalarKind (typ : PgType) : Option CellKind := scalarKinds.lookup (postgresTypeToString typ)

def arrayKind (typ : PgType) : Option CellKind := arrayKinds.lookup (postgresTypeToString typ)

inductive DecodedValue (γ : Type) where
  | text (value : String)
  | value (value : γ)
deriving DecidableEq

inductive CellValue (γ : Type) where
  | scalar (value : DecodedValue γ)
  | array (elements : List (Option (DecodedValue γ)))
deriving DecidableEq

section

variable {γ : Type} (decode : CellKind → String → Except EtlError γ)

def decodeArrayElement (typ : PgType) (value : String) : Except EtlError (DecodedValue γ) :=
  match arrayKind typ with
  | some kind => (decode kind value).map .value
  | none => .ok (.text value)

def parseVector (str : List Char) : Except EtlError (List (Option (DecodedValue γ))) :=
  (((str.drop 1).take (str.length - 2)).splitOn ',').mapM fun value =>
    (decode .f32 (String.ofList (Text.trim value))).map fun value => some (.value value)

def parseCellFromPostgresText (typ : PgType) (str : List Char) : Except EtlError (CellValue γ) :=
  match scalarKind typ with
  | some kind => (decode kind (String.ofList str)).map fun value => .scalar (.value value)
  | none =>
    if arrayKind typ = some .f32 ∧ str.head? = some '[' ∧ str.getLast? = some ']' then
      (parseVector decode str).map .array
    else if (arrayKind typ).isSome ∨ isArrayType typ then
      (parseCellFromPostgresTextArray
        (fun value => (decodeArrayElement decode typ value).map some) str).map .array
    else .ok (.scalar (.text (String.ofList str)))

def hasCodec (typ : PgType) : Bool :=
  (scalarKind typ).isSome || (arrayKind typ).isSome || isArrayType typ

def textCodec : TextCodec (CellValue γ) where
  specialized typ :=
    if hasCodec typ then some fun value => parseCellFromPostgresText decode typ value.toList
    else none
  text := by
    have htext : hasCodec .text = false := by decide +kernel
    simp [htext]

lemma parseCellFromPostgresText_textCodec (typ : PgType) (value : String) :
    (textCodec decode).parseCellFromPostgresText typ value =
      (parseCellFromPostgresText decode typ value.toList).map fun cell =>
        if hasCodec typ then .other cell else .string value := by
  cases hcodec : hasCodec typ with
  | true => simp [TextCodec.parseCellFromPostgresText, textCodec, hcodec]
  | false =>
    have hspecialized : (textCodec decode).specialized typ = none := by simp [textCodec, hcodec]
    simp only [hasCodec, Bool.or_eq_false_iff, Option.isSome_eq_false_iff, Option.isNone_iff_eq_none]
      at hcodec
    simp [TextCodec.parseCellFromPostgresText, hspecialized, parseCellFromPostgresText, hcodec,
      Except.map]

/-! ## What the server sends -/

def typdelim (typ : PgType) : Char := if postgresTypeToString typ = "BOX_ARRAY" then ';' else ','

def BoxText (value : String) : Prop :=
  ∃ a b c d : List Char, (∀ ch ∈ a ++ b ++ c ++ d, isPlain ';' ch = true) ∧
    value.toList = '(' :: a ++ ',' :: b ++ [')', ',', '('] ++ c ++ ',' :: d ++ [')']

/-- A value of a built-in array type with one dimension. -/
structure ArrayValue where
  typ : PgType
  builtin : typ.isMapped = true
  array : isArrayType typ = true
  bounds : Option (Int × Int)
  elements : List (Option String)
  boxes : typdelim typ = ';' → ∀ value, some value ∈ elements → BoxText value

def ArrayValue.out (array : ArrayValue) : List Char :=
  arrayOut (typdelim array.typ) array.bounds array.elements

def Matches (typ : PgType) : Option String → Option (DecodedValue γ) → Prop
  | none, none => True
  | some value, some decoded => decodeArrayElement decode typ value = .ok decoded
  | _, _ => False

def Preserved (array : ArrayValue) : Prop :=
  ∃ cells, parseCellFromPostgresText decode array.typ array.out = .ok (.array cells) ∧
    List.Forall₂ (Matches decode array.typ) array.elements cells

lemma scalarKind_eq_none (array : ArrayValue) : scalarKind array.typ = none := by
  have hnames : ∀ entry ∈ scalarKinds, entry.1.endsWith "_ARRAY" = false := by decide +kernel
  obtain ⟨typ, hbuiltin, harray, -, -, -⟩ := array
  cases typ with
  | other name => cases hbuiltin
  | mapped name mem =>
    refine List.lookup_eq_none_iff.2 fun entry hentry => ?_
    have hend := hnames entry hentry
    simp only [isArrayType] at harray
    simp only [postgresTypeToString, bne_iff_ne, ne_eq]
    rintro rfl
    rw [harray] at hend
    cases hend

lemma getLast?_arrayOut (delimiter : Char) (bounds : Option (Int × Int))
    (elements : List (Option String)) :
    (arrayOut delimiter bounds elements).getLast? = some '\x7d' := by
  rw [arrayOut, List.getLast?_append, List.getLast?_append]
  rfl

lemma parseCellFromPostgresText_out (array : ArrayValue) :
    parseCellFromPostgresText decode array.typ array.out =
      (parseCellFromPostgresTextArray
        (fun value => (decodeArrayElement decode array.typ value).map some) array.out).map
          .array := by
  have hlast : array.out.getLast? = some '\x7d' := getLast?_arrayOut _ _ _
  rw [parseCellFromPostgresText, scalarKind_eq_none]
  simp [hlast, array.array]

lemma mapM_decodeElement_eq_ok_iff (typ : PgType) (elements : List (Option String))
    (cells : List (Option (DecodedValue γ))) :
    elements.mapM (decodeElement fun value => (decodeArrayElement decode typ value).map some) =
        .ok cells ↔
      List.Forall₂ (Matches decode typ) elements cells := by
  have hmatches : ∀ element cell,
      decodeElement (fun value => (decodeArrayElement decode typ value).map some) element =
        .ok cell ↔ Matches decode typ element cell := by
    intro element cell
    cases element with
    | none => cases cell <;> simp [decodeElement, Matches]
    | some value =>
      cases hvalue : decodeArrayElement decode typ value <;> cases cell <;>
        simp [decodeElement, Matches, hvalue, Except.map]
  rw [Except.mapM_eq_ok_iff]
  simp only [hmatches]

lemma exists_matches_iff (typ : PgType) (elements : List (Option String)) :
    (∃ cells, List.Forall₂ (Matches decode typ) elements cells) ↔
      ∀ value, some value ∈ elements → ∃ decoded, decodeArrayElement decode typ value = .ok decoded := by
  induction elements with
  | nil => exact ⟨fun _ _ h => (List.not_mem_nil h).elim, fun _ => ⟨[], .nil⟩⟩
  | cons element elements ih =>
    constructor
    · rintro ⟨all, hall⟩ value hvalue
      obtain ⟨cell, cells, hcell, hrest, rfl⟩ := List.forall₂_cons_left_iff.1 hall
      obtain heq | hvalue := List.mem_cons.1 hvalue
      · subst heq
        cases cell with
        | none => exact hcell.elim
        | some decoded => exact ⟨decoded, hcell⟩
      · exact ih.1 ⟨cells, hrest⟩ value hvalue
    · intro h
      obtain ⟨cells, hcells⟩ := ih.2 fun value hvalue => h value (.tail _ hvalue)
      cases element with
      | none => exact ⟨none :: cells, .cons trivial hcells⟩
      | some value =>
        obtain ⟨decoded, hdecoded⟩ := h value (.head _)
        exact ⟨some decoded :: cells, .cons hdecoded hcells⟩

/-! ## Splitting at commas -/

lemma scanElement_unquoted {chars : List Char}
    (h : ∀ c ∈ chars, c ≠ '"' ∧ c ≠ '\\' ∧ c ≠ '\x7b' ∧ c ≠ '\x7d') (valStr : List Char)
    (hval : ',' ∉ valStr) :
    ∃ scan, scanElement valStr false false false chars = .ok scan ∧ ',' ∉ scan.valStr ∧
      ∀ rest, scan.rest = some rest → ',' ∈ chars ∧ rest ⊆ chars := by
  induction chars generalizing valStr with
  | nil => exact ⟨_, rfl, hval, nofun⟩
  | cons c chars ih =>
    obtain ⟨⟨hquote, hslash, hopen, hclose⟩, hchars⟩ := List.forall_mem_cons.1 h
    by_cases hcomma : c = ','
    · subst hcomma
      refine ⟨⟨valStr, false, false, false, some chars⟩, by rw [scanElement]; simp, hval, ?_⟩
      rintro rest ⟨⟩
      exact ⟨.head _, fun _ hc => .tail _ hc⟩
    · obtain ⟨scan, hscan, hscanned, hrest⟩ := ih hchars (valStr ++ [c]) (by
        simp only [List.mem_append, List.mem_singleton, not_or]
        exact ⟨hval, fun heq => hcomma heq.symm⟩)
      refine ⟨scan, by rw [scanElement_plain hquote hslash hopen hclose hcomma, hscan], hscanned,
        fun rest heq => ?_⟩
      obtain ⟨hmem, hsubset⟩ := hrest rest heq
      exact ⟨.tail _ hmem, fun _ hc => .tail _ (hsubset hc)⟩

lemma notMem_of_decoded {scan : ElementScan} {val : Option (DecodedValue γ)}
    (hscan : ',' ∉ scan.valStr)
    (hval : (if !scan.valQuoted && isNullText scan.valStr then Except.ok none
      else .ok (some (DecodedValue.text (String.ofList scan.valStr)))) = (.ok val : Except EtlError _))
    {value : String} (heq : val = some (.text value)) : ',' ∉ value.toList := by
  subst heq
  split_ifs at hval with hnull
  · cases hval
  · cases hval
    rwa [String.toList_ofList]

lemma parseElements_unquoted {chars : List Char}
    (h : ∀ c ∈ chars, c ≠ '"' ∧ c ≠ '\\' ∧ c ≠ '\x7b' ∧ c ≠ '\x7d')
    {res cells : List (Option (DecodedValue γ))}
    (hparse : parseElements (fun value => .ok (some (.text value))) chars res = .ok cells) :
    ∃ read, cells = res ++ read ∧ (∀ value, some (.text value) ∈ read → ',' ∉ value.toList) ∧
      (',' ∉ chars → read.length = 1) := by
  generalize hparser : (fun value : String => Except.ok (some (DecodedValue.text value))) = parse at hparse
  fun_induction parseElements parse chars res with
  | case1 => cases hparse
  | case2 => cases hparse
  | case3 => cases hparse
  | case4 => cases hparse
  | case5 chars res scan hscan _ _ val hval hrest =>
    cases hparse
    subst hparser
    obtain ⟨found, hfound, hcomma, -⟩ := scanElement_unquoted h [] List.not_mem_nil
    rw [hscan] at hfound
    cases hfound
    refine ⟨[val], rfl, fun value hvalue => ?_, fun _ => rfl⟩
    exact notMem_of_decoded hcomma hval (List.mem_singleton.1 hvalue).symm
  | case6 chars res scan hscan _ _ val hval rest hrest ih =>
    obtain ⟨found, hfound, hcomma, hfollows⟩ := scanElement_unquoted h [] List.not_mem_nil
    rw [hscan] at hfound
    cases hfound
    obtain ⟨hmem, hsubset⟩ := hfollows rest hrest
    obtain ⟨read, rfl, hread, -⟩ := ih (fun c hc => h c (hsubset hc)) hparse
    subst hparser
    refine ⟨val :: read, by simp, fun value hvalue => ?_, fun habsent => absurd hmem habsent⟩
    obtain heq | hvalue := List.mem_cons.1 hvalue
    · exact notMem_of_decoded hcomma hval heq.symm
    · exact hread value hvalue

lemma BoxText.plain {value : String} (h : BoxText value) :
    needsQuotes ';' value.toList = false ∧ ',' ∈ value.toList ∧
      ∀ c ∈ value.toList, isPlain ';' c = true := by
  obtain ⟨a, b, c, d, hplain, htext⟩ := h
  have hchars : ∀ ch ∈ value.toList, isPlain ';' ch = true := by
    intro ch hch
    have hcases : ch ∈ a ++ b ++ c ++ d ∨ ch = '(' ∨ ch = ',' ∨ ch = ')' := by
      simp only [htext, List.cons_append, List.mem_cons, List.mem_append, List.not_mem_nil,
        or_false] at hch ⊢
      tauto
    rcases hcases with hmem | rfl | rfl | rfl
    · exact hplain ch hmem
    all_goals decide
  refine ⟨?_, by rw [htext]; simp, hchars⟩
  have hall : value.toList.all (isPlain ';') = true := List.all_eq_true.2 hchars
  have hnull : isNullText value.toList = false := by
    rw [htext]
    rfl
  have hne : value.toList ≠ [] := by
    rw [htext]
    exact nofun
  simp only [needsQuotes, hall, hnull]
  simpa using hne

lemma elementOut_box {element : Option String}
    (h : ∀ value, element = some value → BoxText value) :
    (∀ c ∈ elementOut ';' element, c ≠ '"' ∧ c ≠ '\\' ∧ c ≠ '\x7b' ∧ c ≠ '\x7d') := by
  cases element with
  | none => simp [elementOut]
  | some value =>
    obtain ⟨hquotes, -, hplain⟩ := (h value rfl).plain
    intro c hc
    rw [elementOut, if_neg (by rw [hquotes]; exact Bool.false_ne_true)] at hc
    obtain ⟨hquote, hslash, hopen, hclose, -⟩ := isPlain_eq_true_iff.1 (hplain c hc)
    exact ⟨hquote, hslash, hopen, hclose⟩

lemma mem_intercalate {sep c : Char} {parts : List (List Char)}
    (h : c ∈ [sep].intercalate parts) : c = sep ∨ ∃ part ∈ parts, c ∈ part := by
  induction parts with
  | nil => cases h
  | cons part parts ih =>
    cases parts with
    | nil => exact .inr ⟨part, .head _, by simpa using h⟩
    | cons next parts =>
      rw [intercalate_cons_cons, List.mem_append, List.mem_cons] at h
      rcases h with hpart | rfl | hrest
      · exact .inr ⟨part, .head _, hpart⟩
      · exact .inl rfl
      · rcases ih hrest with hsep | ⟨found, hfound, hc⟩
        · exact .inl hsep
        · exact .inr ⟨found, .tail _ hfound, hc⟩

lemma elements_of_boxes {bounds : Option (Int × Int)} {elements : List (Option String)}
    (hboxes : ∀ value, some value ∈ elements → BoxText value)
    (hparse : parseCellFromPostgresTextArray (fun value => .ok (some (DecodedValue.text value)))
      (arrayOut ';' bounds elements) =
        .ok (elements.map fun element => element.map (DecodedValue.text : String → DecodedValue γ))) :
    elements = [] ∨ elements = [none] := by
  have hgroups : bounds.toList.length ≤ 1 := by cases bounds <;> simp
  rw [arrayOut, parseCellFromPostgresTextArray_braces, if_pos hgroups] at hparse
  cases elements with
  | nil => exact .inl rfl
  | cons element elements =>
    have hne : [';'].intercalate ((element :: elements).map (elementOut ';')) ≠ [] :=
      intercalate_ne_nil (elementOut_ne_nil ';' element)
    rw [if_neg hne] at hparse
    have hplain : ∀ c ∈ [';'].intercalate ((element :: elements).map (elementOut ';')),
        c ≠ '"' ∧ c ≠ '\\' ∧ c ≠ '\x7b' ∧ c ≠ '\x7d' := by
      intro c hc
      rcases mem_intercalate hc with rfl | ⟨part, hpart, hc⟩
      · decide
      · obtain ⟨found, hfound, rfl⟩ := List.mem_map.1 hpart
        exact elementOut_box (fun value heq => hboxes value (heq ▸ hfound)) c hc
    obtain ⟨read, hread, htext, hone⟩ := parseElements_unquoted hplain hparse
    rw [List.nil_append] at hread
    subst hread
    -- a box would have been read with its commas
    have hnone : ∀ other ∈ element :: elements, other = none := by
      intro other hother
      cases other with
      | none => rfl
      | some value =>
        have hcell := List.mem_map_of_mem (f := fun element => element.map
          (DecodedValue.text : String → DecodedValue γ)) hother
        exact absurd (hboxes value hother).plain.2.1 (htext value hcell)
    -- and nulls have no comma between them
    have hcomma : ',' ∉ [';'].intercalate ((element :: elements).map (elementOut ';')) := by
      intro hmem
      rcases mem_intercalate hmem with heq | ⟨part, hpart, hc⟩
      · exact absurd heq (by decide)
      · obtain ⟨found, hfound, rfl⟩ := List.mem_map.1 hpart
        rw [hnone found hfound] at hc
        exact absurd hc (by decide)
    have hlength := hone hcomma
    rw [List.length_map, List.length_cons, Nat.add_eq_right, List.length_eq_zero_iff] at hlength
    subst hlength
    rw [hnone element (.head _)]
    exact .inr rfl

lemma decodeArrayElement_box {typ : PgType} (h : typdelim typ = ';') (value : String) :
    decodeArrayElement decode typ value = .ok (.text value) := by
  have hname : postgresTypeToString typ = "BOX_ARRAY" := by
    by_contra hname
    rw [typdelim, if_neg hname] at h
    exact absurd h (by decide)
  have hkind : arrayKind typ = none := by
    rw [arrayKind, hname]
    decide +kernel
  rw [decodeArrayElement, hkind]

lemma Matches.eq_map {typ : PgType} {elements : List (Option String)}
    {cells : List (Option (DecodedValue γ))} (h : List.Forall₂ (Matches decode typ) elements cells)
    (htext : ∀ value, decodeArrayElement decode typ value = .ok (.text value)) :
    cells = elements.map fun element => element.map DecodedValue.text := by
  induction h with
  | nil => rfl
  | @cons element cell elements cells hcell _ ih =>
    rw [List.map_cons, ih]
    congr 1
    cases element with
    | none =>
      cases cell with
      | none => rfl
      | some decoded => exact hcell.elim
    | some value =>
      cases cell with
      | none => exact hcell.elim
      | some decoded =>
        have hdecoded : decodeArrayElement decode typ value = .ok decoded := hcell
        rw [htext] at hdecoded
        cases hdecoded
        rfl

/-- An array is read back exactly if the values of its elements can be decoded, and the elements are
delimited by commas or there is nothing to split. -/
theorem parseCellFromPostgresText_preserved_iff (array : ArrayValue) :
    Preserved decode array ↔
      (∀ value, some value ∈ array.elements →
        ∃ decoded, decodeArrayElement decode array.typ value = .ok decoded) ∧
      (typdelim array.typ = ',' ∨ array.elements = [] ∨ array.elements = [none]) := by
  unfold Preserved
  rw [parseCellFromPostgresText_out]
  constructor
  · rintro ⟨cells, hparse, hmatch⟩
    refine ⟨(exists_matches_iff decode _ _).1 ⟨cells, hmatch⟩, ?_⟩
    by_cases hdelim : typdelim array.typ = ','
    · exact .inl hdelim
    · have hbox : typdelim array.typ = ';' := by
        unfold typdelim at hdelim ⊢
        by_contra hne
        exact hdelim (if_neg fun hname => hne (if_pos hname))
      have hdecode := decodeArrayElement_box decode hbox
      refine .inr (@elements_of_boxes γ array.bounds _ (array.boxes hbox) ?_)
      have hparser : (fun value => (decodeArrayElement decode array.typ value).map some) =
          fun value => .ok (some (.text value)) := by
        funext value
        rw [hdecode]
        rfl
      rw [ArrayValue.out, hbox, hparser] at hparse
      rw [← Matches.eq_map decode hmatch hdecode]
      cases hread : parseCellFromPostgresTextArray
          (fun value => .ok (some (DecodedValue.text value : DecodedValue γ)))
          (arrayOut ';' array.bounds array.elements) with
      | error =>
        rw [hread] at hparse
        cases hparse
      | ok read =>
        rw [hread] at hparse
        cases hparse
        rfl
  · rintro ⟨hdecode, hsplit⟩
    have hcomma : array.out = arrayOut ',' array.bounds array.elements := by
      unfold ArrayValue.out
      rcases hsplit with hdelim | hnil | hnone
      · rw [hdelim]
      · rw [hnil]
        rfl
      · rw [hnone]
        rfl
    obtain ⟨cells, hcells⟩ := (exists_matches_iff decode _ _).2 hdecode
    refine ⟨cells, ?_, hcells⟩
    rw [hcomma, parseCellFromPostgresTextArray_arrayOut_eq,
      (mapM_decodeElement_eq_ok_iff decode _ _ _).2 hcells]
    rfl

end

def noDecoder (_ : CellKind) (_ : String) : Except EtlError Unit :=
  .error ⟨.conversionError, "Unexpected value"⟩

def sampleBoxes : ArrayValue where
  typ := .mapped "BOX_ARRAY" (by simp [typeNames])
  builtin := rfl
  array := by decide +kernel
  bounds := none
  elements := [some "(1,1),(0,0)"]
  boxes := by
    intro _ value hvalue
    cases List.mem_singleton.1 hvalue
    exact ⟨['1'], ['1'], ['0'], ['0'], by simp [isPlain, isSpace], by simp⟩

/-- A box is read as four pieces. -/
theorem parseCellFromPostgresText_splits_box :
    sampleBoxes.out = "\x7b(1,1),(0,0)\x7d".toList ∧
      parseCellFromPostgresText noDecoder sampleBoxes.typ sampleBoxes.out =
        .ok (.array (["(1", "1)", "(0", "0)"].map fun value => some (.text value))) ∧
      ¬Preserved noDecoder sampleBoxes := by
  refine ⟨by decide +kernel, by decide +kernel, ?_⟩
  rintro ⟨cells, hparse, hmatch⟩
  have hcells : parseCellFromPostgresText noDecoder sampleBoxes.typ sampleBoxes.out =
      .ok (.array (["(1", "1)", "(0", "0)"].map fun value => some (.text value))) := by
    decide +kernel
  rw [hparse] at hcells
  cases hcells
  exact absurd hmatch.length_eq (by decide)

end Etl
