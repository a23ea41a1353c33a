import Etl.Numeric.Parse

/-!
# What is displayed

The last group is cut off at the scale, where a parsed value has zeros only. The index of a group is
a 16-bit integer, where formatting fails for the largest weights.
-/

namespace Etl

open Machine Positional

/-! ## Texts of digits -/

section Texts

variable {ds integer fraction : List ℤ} {sign : Sign} {d : ℤ}

def digitsText (ds : List ℤ) : List Char := ds.map fun d => Text.digitChar d.toNat

def signText : Sign → List Char
  | .positive => []
  | .negative => ['-']

def plainText (sign : Sign) (integer fraction : List ℤ) : List Char :=
  signText sign ++ (digitsText integer ++ if fraction = [] then [] else '.' :: digitsText fraction)

def decimals (d : ℤ) : List ℤ := [d / 1000, d / 100 % 10, d / 10 % 10, d % 10]

lemma digitChar_spec (h : 0 ≤ d ∧ d < 10) :
    (Text.digitChar d.toNat).isDigit = true ∧ digitValue (Text.digitChar d.toNat) = d ∧
      Text.isWhiteSpace (Text.digitChar d.toNat) = false ∧
      (Text.digitChar d.toNat = '0' ↔ d = 0) := by
  obtain ⟨h₁, h₂⟩ := h
  interval_cases d <;> decide

lemma isDigits_decimals (h : 0 ≤ d ∧ d < 10000) : IsDigits 10 (decimals d) := by
  simp only [IsDigits, decimals, List.forall_mem_cons]
  refine ⟨by omega, by omega, by omega, by omega, by simp⟩

lemma placeValue_decimals (d : ℤ) : placeValue 10 ((4 : ℕ) - 1) (decimals d) = d := by
  have hsum : d = d / 1000 * 1000 + d / 100 % 10 * 100 + d / 10 % 10 * 10 + d % 10 := by omega
  have hcast : (d : ℚ) = (d / 1000 : ℤ) * 1000 + (d / 100 % 10 : ℤ) * 100 +
      (d / 10 % 10 : ℤ) * 10 + (d % 10 : ℤ) := by exact_mod_cast hsum
  rw [hcast]
  simp only [decimals, placeValue_cons, placeValue_nil]
  norm_num
  ring

lemma leftpad_render {n : ℕ} (hn : n < 10000) :
    (Text.render 10 n).leftpad 4 '0' =
      [n / 1000, n / 100 % 10, n / 10 % 10, n % 10].map Text.digitChar := by
  have hzero : Text.digitChar 0 = '0' := rfl
  by_cases h₀ : n = 0
  · subst h₀
    rfl
  rw [Text.render, if_neg h₀, Nat.digits_def' (by decide) (by omega)]
  by_cases h₁ : n / 10 = 0
  · simp [h₁, show n % 10 = n by omega, show n / 1000 = 0 by omega, show n / 100 = 0 by omega, hzero,
      List.leftpad]
  rw [Nat.digits_def' (by decide) (by omega)]
  by_cases h₂ : n / 100 = 0
  · simp [h₂, Nat.div_div_eq_div_mul, show n / 1000 = 0 by omega, hzero, List.leftpad]
  rw [Nat.digits_def' (by decide) (by omega)]
  by_cases h₃ : n / 1000 = 0
  · simp [h₃, Nat.div_div_eq_div_mul, hzero, List.leftpad]
  rw [Nat.digits_def' (by decide) (by omega)]
  simp [Nat.div_div_eq_div_mul, show n / 10000 = 0 by omega,
    show n / 1000 % 10 = n / 1000 by omega, List.leftpad]

lemma formatPadded_eq (h : 0 ≤ d ∧ d < 10000) : formatPadded d = digitsText (decimals d) := by
  obtain ⟨n, rfl⟩ := Int.eq_ofNat_of_zero_le h.1
  rw [formatPadded, if_neg (by omega), Int.natAbs_natCast, leftpad_render (by omega)]
  rfl

lemma digitsText_append (xs ys : List ℤ) :
    digitsText (xs ++ ys) = digitsText xs ++ digitsText ys := List.map_append

lemma digitsText_flatMap {ι : Type} (l : List ι) (f : ι → List ℤ) :
    digitsText (l.flatMap f) = l.flatMap fun i => digitsText (f i) := List.map_flatMap

lemma dropWhile_digitsText (h : IsDigits 10 ds) :
    (digitsText ds).dropWhile (· = '0') = digitsText (ds.dropWhile (· = 0)) := by
  induction ds with
  | nil => rfl
  | cons d ds ih =>
    have hd := (digitChar_spec (h d List.mem_cons_self)).2.2.2
    rw [digitsText, List.map_cons, List.dropWhile_cons, List.dropWhile_cons, ← digitsText,
      ih h.of_cons]
    by_cases hzero : d = 0
    · rw [if_pos (by simpa using hd.2 hzero), if_pos (by simpa using hzero)]
    · rw [if_neg (by simpa using fun heq => hzero (hd.1 heq)), if_neg (by simpa using hzero)]
      rfl

lemma moreDigits_digitsText (h : IsDigits 10 ds) : MoreDigits (digitsText ds) ds := by
  induction ds with
  | nil => exact .nil
  | cons d ds ih =>
    obtain ⟨hdigit, hvalue, -⟩ := digitChar_spec (h d List.mem_cons_self)
    have hcons := MoreDigits.digit hdigit (ih h.of_cons)
    rwa [hvalue] at hcons

lemma run_digitsText (h : IsDigits 10 ds) (hne : ds ≠ []) : Run (digitsText ds) ds := by
  refine (moreDigits_digitsText h).run_of_startsWithDigit ?_
  obtain ⟨d, ds, rfl⟩ := List.exists_cons_of_ne_nil hne
  exact (digitChar_spec (h d List.mem_cons_self)).1

lemma signText_spec (sign : Sign) : SignText (signText sign) sign := by
  cases sign with
  | positive => exact .none
  | negative => exact .minus

lemma isWhiteSpace_digitsText (h : IsDigits 10 ds) :
    ∀ c ∈ digitsText ds, Text.isWhiteSpace c = false := by
  intro c hc
  obtain ⟨d, hd, rfl⟩ := List.mem_map.1 hc
  exact (digitChar_spec (h d hd)).2.2.1

lemma readsAs_plainText (hinteger : IsDigits 10 integer) (hne : integer ≠ [])
    (hfraction : IsDigits 10 fraction) (sign : Sign) :
    ReadsAs (plainText sign integer fraction) sign ⟨integer, fraction, 0⟩ := by
  refine ⟨signText sign, _, Text.trim_eq_self fun c hc => ?_, signText_spec sign, _, [],
    (List.append_nil _).symm, ?_, .none⟩
  · rw [plainText, List.mem_append, List.mem_append] at hc
    rcases hc with hc | hc | hc
    · cases sign with
      | positive => cases hc
      | negative =>
        obtain rfl := List.mem_singleton.1 hc
        rfl
    · exact isWhiteSpace_digitsText hinteger c hc
    · split_ifs at hc
      · cases hc
      · rcases List.mem_cons.1 hc with rfl | hc
        · rfl
        · exact isWhiteSpace_digitsText hfraction c hc
  · have hrun := run_digitsText hinteger hne
    split_ifs with hempty
    · subst hempty
      rw [List.append_nil]
      exact .integer hrun
    · exact .both hrun (run_digitsText hfraction hempty)

lemma length_plainText_le (sign : Sign) (integer fraction : List ℤ) :
    (plainText sign integer fraction).length ≤ integer.length + fraction.length + 2 := by
  have hsign : (signText sign).length ≤ 1 := by cases sign <;> decide
  rw [plainText]
  split_ifs <;> simp [digitsText] <;> omega

end Texts

/-! ## The fraction -/

section Fraction

variable {ds : List ℤ} {scale : ℕ} {d : ℤ}

def digitAt (ds : List ℤ) (d : ℤ) : ℤ := if 0 ≤ d then ds.getD d.toNat 0 else 0

def groupCount (scale : ℕ) : ℕ := (scale + 3) / 4

def fractionDigits (ds : List ℤ) (scale : ℕ) (d : ℤ) : List ℤ :=
  ((List.range (groupCount scale)).flatMap fun i : ℕ => decimals (digitAt ds (d + i))).take scale

lemma digitAt_mem (h : IsDigits 10000 ds) (d : ℤ) : 0 ≤ digitAt ds d ∧ digitAt ds d < 10000 := by
  rw [digitAt]
  split_ifs
  · exact h.getD_mem (by decide) d.toNat
  · decide

lemma fractionDigits_step (hscale : scale ≠ 0) (ds : List ℤ) (d : ℤ) :
    fractionDigits ds scale d =
      (decimals (digitAt ds d)).take (min 4 scale) ++
        fractionDigits ds (scale - min 4 scale) (d + 1) := by
  have hcount : groupCount scale = groupCount (scale - min 4 scale) + 1 := by
    rw [groupCount, groupCount]
    omega
  rw [fractionDigits, hcount, List.range_succ_eq_map, List.flatMap_cons, List.take_append,
    List.flatMap_map, Nat.cast_zero, add_zero, fractionDigits]
  congr 1
  · rw [List.take_eq_take_iff]
    simp [decimals]
    omega
  · rw [show (decimals (digitAt ds d)).length = 4 from rfl,
      show scale - 4 = scale - min 4 scale by omega]
    congr 2
    funext i
    rw [Nat.cast_succ, show d + ((i : ℤ) + 1) = d + 1 + i by ring]

lemma formatFraction_eq (h : IsDigits 10000 ds) (hlow : -2 ^ 15 ≤ d)
    (hhigh : d + groupCount scale < 2 ^ 15) :
    formatFraction ds scale d = some (digitsText (fractionDigits ds scale d)) := by
  induction scale using Nat.strong_induction_on generalizing d with
  | h scale ih =>
    by_cases hscale : scale = 0
    · subst hscale
      rw [formatFraction]
      rfl
    · have hcount : groupCount scale = groupCount (scale - min 4 scale) + 1 := by
        rw [groupCount, groupCount]
        omega
      have hrest := ih (scale - min 4 scale) (by omega) (d := d + 1) (by omega) (by omega)
      rw [formatFraction, if_neg hscale, i16?_eq (by omega) (by omega), fractionDigits_step hscale]
      simp only [Option.bind_eq_bind, Option.bind_some, hrest, Option.pure_def]
      rw [← digitAt, formatPadded_eq (digitAt_mem h d), digitsText_append]
      simp [digitsText, List.map_take]

lemma formatFraction_eq_none (ds : List ℤ) (hlow : -2 ^ 15 ≤ d) (hd : d < 2 ^ 15)
    (hhigh : 2 ^ 15 ≤ d + groupCount scale) : formatFraction ds scale d = none := by
  induction scale using Nat.strong_induction_on generalizing d with
  | h scale ih =>
    have hscale : scale ≠ 0 := by
      rintro rfl
      rw [groupCount] at hhigh
      omega
    have hcount : groupCount scale = groupCount (scale - min 4 scale) + 1 := by
      rw [groupCount, groupCount]
      omega
    rw [formatFraction, if_neg hscale]
    by_cases hnext : d + 1 < 2 ^ 15
    · have hrest := ih (scale - min 4 scale) (by omega) (d := d + 1) (by omega) hnext (by omega)
      rw [i16?_eq (by omega) hnext]
      simp [hrest]
    · have hoverflow : i16? (d + 1) = none := if_neg (by omega)
      rw [hoverflow]
      rfl

end Fraction

/-! ## The digits that are displayed -/

section Digits

variable {ds : List ℤ} {scale : ℕ} {w : ℤ}

def integerGroups (w : ℤ) : ℕ := (w + 1).toNat

def pointAligned (w : ℤ) (ds : List ℤ) : List ℤ := aligned (-1 - w).toNat ds

def paddedInteger (w : ℤ) (ds : List ℤ) : List ℤ :=
  (List.range (integerGroups w)).flatMap fun i => decimals ((pointAligned w ds).getD i 0)

def integerDigits (w : ℤ) (ds : List ℤ) : List ℤ :=
  if w < 0 then [0] else (paddedInteger w ds).dropWhile (· = 0)

lemma digitAt_eq (w : ℤ) (ds : List ℤ) (i : ℕ) :
    digitAt ds (w + 1 + i) = (pointAligned w ds).getD (integerGroups w + i) 0 := by
  rw [pointAligned, ← getD_aligned_eq, digitAt, integerGroups]
  rw [show (((w + 1).toNat + i : ℕ) : ℤ) - ((-1 - w).toNat : ℕ) = w + 1 + i by omega]

lemma length_flatMap_decimals {ι : Type} (l : List ι) (g : ι → ℤ) :
    (l.flatMap fun i => decimals (g i)).length = 4 * l.length := by
  induction l with
  | nil => rfl
  | cons i l ih =>
    rw [List.flatMap_cons, List.length_append, ih, List.length_cons,
      show (decimals (g i)).length = 4 from rfl]
    ring

lemma isDigits_flatMap_decimals {l : List ℤ} (h : IsDigits 10000 l) :
    IsDigits 10 (l.flatMap decimals) := by
  intro d hd
  obtain ⟨g, hg, hd⟩ := List.mem_flatMap.1 hd
  exact isDigits_decimals (h g hg) d hd

def allGroups (w : ℤ) (ds : List ℤ) (scale : ℕ) : List ℤ :=
  (List.range (integerGroups w + groupCount scale)).map (fun i => (pointAligned w ds).getD i 0) ++
    (pointAligned w ds).drop (integerGroups w + groupCount scale)

lemma isDigits_allGroups (h : IsDigits 10000 ds) (w : ℤ) (scale : ℕ) :
    IsDigits 10000 (allGroups w ds scale) := by
  have hpoint : IsDigits 10000 (pointAligned w ds) := isDigits_aligned h (by decide) _
  intro d hd
  rcases List.mem_append.1 hd with hd | hd
  · obtain ⟨i, -, rfl⟩ := List.mem_map.1 hd
    exact hpoint.getD_mem (by decide) i
  · exact hpoint d (List.mem_of_mem_drop hd)

lemma placeValue_allGroups (w : ℤ) (ds : List ℤ) (scale : ℕ) :
    placeValue 10 (4 * integerGroups w - 1) ((allGroups w ds scale).flatMap decimals) =
      placeValue 10000 w ds := by
  have hweight : (4 * integerGroups w - 1 : ℤ) =
      (4 : ℕ) * (integerGroups w - 1 : ℤ) + (4 : ℕ) - 1 := by
    push_cast
    ring
  have hpoint : (integerGroups w - 1 : ℤ) - ((-1 - w).toNat : ℕ) = w := by
    rw [integerGroups]
    omega
  rw [hweight, placeValue_flatMap (k := 4) (f := decimals) (by decide) (fun _ _ => rfl)
      fun d _ => placeValue_decimals d,
    allGroups, placeValue_map_getD, pointAligned, placeValue_aligned, hpoint]
  rfl

lemma take_allGroups (w : ℤ) (ds : List ℤ) (scale : ℕ) :
    ((allGroups w ds scale).flatMap decimals).take (4 * integerGroups w + scale) =
      paddedInteger w ds ++ fractionDigits ds scale (w + 1) := by
  have hsplit : (allGroups w ds scale).flatMap decimals = paddedInteger w ds ++
      ((List.range (groupCount scale)).flatMap (fun i : ℕ => decimals (digitAt ds (w + 1 + i))) ++
        ((pointAligned w ds).drop (integerGroups w + groupCount scale)).flatMap decimals) := by
    simp only [allGroups, List.range_add, List.map_append, List.flatMap_append, List.flatMap_map,
      List.map_map, paddedInteger, digitAt_eq, List.append_assoc, Function.comp_def]
  have hinteger : (paddedInteger w ds).length = 4 * integerGroups w := by
    rw [paddedInteger, length_flatMap_decimals, List.length_range]
  have hfraction : scale ≤ ((List.range (groupCount scale)).flatMap
      fun i : ℕ => decimals (digitAt ds (w + 1 + i))).length := by
    rw [length_flatMap_decimals, List.length_range, groupCount]
    omega
  rw [hsplit, ← hinteger, List.take_length_add_append, List.take_append_of_le_length hfraction,
    fractionDigits]

lemma placeValue_displayed (h : IsDigits 10000 ds)
    (hint : ∃ k : ℤ, placeValue 10000 w ds * 10 ^ scale = k) :
    placeValue 10 (4 * integerGroups w - 1)
        (paddedInteger w ds ++ fractionDigits ds scale (w + 1)) = placeValue 10000 w ds := by
  have hvalue := placeValue_allGroups w ds scale
  have hlength : 4 * integerGroups w + scale ≤
      ((allGroups w ds scale).flatMap decimals).length := by
    have hcount : scale ≤ 4 * groupCount scale := by
      rw [groupCount]
      omega
    rw [length_flatMap_decimals _ fun d => d, allGroups, List.length_append, List.length_map,
      List.length_range]
    omega
  rw [← take_allGroups, placeValue_take_eq (s := scale) (by decide)
    (isDigits_flatMap_decimals (isDigits_allGroups h w scale)) (by push_cast; ring) hlength
    (by rw [hvalue]; exact hint), hvalue]

lemma dropWhile_decimals_ne_nil {d : ℤ} (hd : d ≠ 0) (h : 0 ≤ d ∧ d < 10000) :
    (decimals d).dropWhile (· = 0) ≠ [] := by
  rw [ne_eq, List.dropWhile_eq_nil_iff]
  simp only [decimals, List.forall_mem_cons, decide_eq_true_eq]
  omega

lemma paddedInteger_eq {k : ℕ} (hw : (k : ℤ) = w) (ds : List ℤ) :
    paddedInteger w ds =
      decimals (ds.getD 0 0) ++ (List.range k).flatMap fun i => decimals (ds.getD (i + 1) 0) := by
  subst hw
  have hgroups : integerGroups k = k + 1 := by
    rw [integerGroups]
    omega
  have hpoint : pointAligned k ds = ds := by
    rw [pointAligned, show (-1 - (k : ℤ)).toNat = 0 by omega]
    rfl
  rw [paddedInteger, hgroups, hpoint, List.range_succ_eq_map, List.flatMap_cons, List.flatMap_map]

variable (h : IsDigits 10000 ds) (hhead : ds.head? ≠ some 0) (hne : ds ≠ [])

include h hhead hne

lemma getD_zero_spec : ds.getD 0 0 ≠ 0 ∧ 0 ≤ ds.getD 0 0 ∧ ds.getD 0 0 < 10000 := by
  obtain ⟨d, ds, rfl⟩ := List.exists_cons_of_ne_nil hne
  exact ⟨by simpa using hhead, h.getD_mem (by decide) 0⟩

lemma integerDigits_eq {k : ℕ} (hw : (k : ℤ) = w) :
    integerDigits w ds = (decimals (ds.getD 0 0)).dropWhile (· = 0) ++
      (List.range k).flatMap fun i => decimals (ds.getD (i + 1) 0) := by
  obtain ⟨hzero, hmem⟩ := getD_zero_spec h hhead hne
  rw [integerDigits, if_neg (by omega), paddedInteger_eq hw, List.dropWhile_append,
    if_neg (by simpa using dropWhile_decimals_ne_nil hzero hmem)]

lemma formatInteger_eq (w : ℤ) : formatInteger w ds = digitsText (integerDigits w ds) := by
  by_cases hw : w < 0
  · rw [formatInteger, if_pos hw, integerDigits, if_pos hw]
    rfl
  · obtain ⟨k, hk⟩ := Int.eq_ofNat_of_zero_le (not_lt.1 hw)
    obtain ⟨hzero, hmem⟩ := getD_zero_spec h hhead hne
    have hfirst : (digitsText (decimals (ds.getD 0 0))).dropWhile (· = '0') =
        digitsText ((decimals (ds.getD 0 0)).dropWhile (· = 0)) :=
      dropWhile_digitsText (isDigits_decimals hmem)
    have hfirst_ne : digitsText ((decimals (ds.getD 0 0)).dropWhile (· = 0)) ≠ [] := by
      rw [digitsText, ne_eq, List.map_eq_nil_iff]
      exact dropWhile_decimals_ne_nil hzero hmem
    rw [formatInteger, if_neg hw, integerDigits_eq h hhead hne hk.symm, digitsText_append,
      digitsText_flatMap, show (w + 1).toNat = k + 1 by omega, List.range_succ_eq_map,
      List.flatMap_cons, List.flatMap_map]
    dsimp only
    rw [if_pos rfl, formatPadded_eq hmem, hfirst, if_neg (by simpa using hfirst_ne)]
    refine congrArg _ (List.flatMap_congr fun i _ => ?_)
    rw [if_neg (by simp), formatPadded_eq (h.getD_mem (by decide) _)]

lemma isDigits_integerDigits (w : ℤ) :
    IsDigits 10 (integerDigits w ds) ∧ integerDigits w ds ≠ [] := by
  by_cases hw : w < 0
  · rw [integerDigits, if_pos hw]
    exact ⟨by simp [IsDigits], by simp⟩
  · obtain ⟨k, hk⟩ := Int.eq_ofNat_of_zero_le (not_lt.1 hw)
    obtain ⟨hzero, hmem⟩ := getD_zero_spec h hhead hne
    rw [integerDigits_eq h hhead hne hk.symm]
    refine ⟨fun d hd => ?_,
      List.append_ne_nil_of_left_ne_nil (dropWhile_decimals_ne_nil hzero hmem) _⟩
    rcases List.mem_append.1 hd with hd | hd
    · exact isDigits_decimals hmem d ((List.dropWhile_sublist _).mem hd)
    · obtain ⟨i, -, hd⟩ := List.mem_flatMap.1 hd
      exact isDigits_decimals (h.getD_mem (by decide) _) d hd

omit h hhead hne in
lemma placeValue_integerDigits (w : ℤ) (ds : List ℤ) :
    placeValue 10 ((integerDigits w ds).length - 1) (integerDigits w ds) =
        placeValue 10 (4 * integerGroups w - 1) (paddedInteger w ds) ∧
      (integerDigits w ds).length ≤ 4 * integerGroups w + 1 := by
  have hlength : (paddedInteger w ds).length = 4 * integerGroups w := by
    rw [paddedInteger, length_flatMap_decimals, List.length_range]
  by_cases hw : w < 0
  · have hgroups : integerGroups w = 0 := by
      rw [integerGroups]
      omega
    rw [integerDigits, if_pos hw, paddedInteger, hgroups]
    simp [placeValue_cons]
  · rw [integerDigits, if_neg hw]
    have hsplit := (List.takeWhile_append_dropWhile (p := (· = 0)) (l := paddedInteger w ds)).symm
    have hzeros : ∀ d ∈ (paddedInteger w ds).takeWhile (· = 0), d = 0 := fun d hd => by
      simpa using List.mem_takeWhile_imp hd
    have hsum := congrArg List.length hsplit
    rw [List.length_append, hlength] at hsum
    refine ⟨?_, by omega⟩
    nth_rewrite 3 [hsplit]
    rw [placeValue_append, placeValue_eq_zero hzeros, zero_add]
    congr 1
    omega

end Digits

/-! ## Parsed values -/

section Parsed

variable {s : List Char} {numeral numeral' : Numeral} {sign : Sign} {w : ℤ} {scale : ℕ}
  {ds integer fraction : List ℤ} {v v' : PgNumeric}

lemma Numeral.exists_value_mul_eq_intCast (numeral : Numeral) :
    ∃ k : ℤ, numeral.value * 10 ^ numeral.scale = k := by
  obtain ⟨k, hk⟩ := exists_placeValue_eq_intCast 10 (numeral.integer ++ numeral.fraction)
  obtain ⟨j, hj⟩ : ∃ j : ℕ, (j : ℤ) = numeral.scale - (numeral.fraction.length - numeral.exponent) :=
    ⟨_, Int.toNat_of_nonneg (by rw [Numeral.scale]; omega)⟩
  refine ⟨k * 10 ^ j, ?_⟩
  have hweight : (numeral.integer.length - 1 + numeral.exponent : ℤ) =
      ((numeral.integer ++ numeral.fraction).length - 1) + (j - numeral.scale) := by
    rw [List.length_append]
    push_cast
    omega
  rw [← numeral.value_eq, hweight, placeValue_add (by decide), hk, Nat.cast_ofNat,
    zpow_sub₀ (by norm_num), zpow_natCast, zpow_natCast]
  push_cast
  field_simp

lemma Numeral.StoredAs.unique {sign' : Sign} (h : numeral.StoredAs sign v)
    (h' : numeral'.StoredAs sign' v') (hvalue : numeral.value = numeral'.value)
    (hscale : numeral.scale = numeral'.scale) (hsign : numeral.value = 0 ∨ sign = sign') :
    v = v' := by
  have hpos : ∀ {w : ℤ} {ds : List ℤ}, ds ≠ [] → Normal 10000 ds → placeValue 10000 w ds ≠ 0 :=
    fun hne hnormal => (placeValue_pos (by decide) hnormal.digits hnormal.last hne _).ne'
  cases h with
  | zero hzero =>
    cases h' with
    | zero _ => rw [hscale]
    | value hne hnormal _ heq => exact absurd (heq.trans (hvalue ▸ hzero)) (hpos hne hnormal)
  | value hne hnormal _ heq =>
    cases h' with
    | zero hzero => exact absurd (heq.trans (hvalue.trans hzero)) (hpos hne hnormal)
    | value hne' hnormal' _ heq' =>
      obtain ⟨rfl, rfl⟩ := eq_of_placeValue_eq_of_normal (by decide) hnormal hnormal' hne
        (heq.trans (hvalue.trans heq'.symm))
      rcases hsign with hzero | rfl
      · exact absurd (heq.trans hzero) (hpos hne hnormal)
      · rw [hscale]

/-- The sign and the number that were read, exactly the digits of the scale, and read back as the
same value. -/
def DisplaysFaithfully (s : List Char) (v : PgNumeric) (scale : ℕ) : Prop :=
  ∃ text, v.display = some text ∧ PgNumeric.fromStr text = some (.ok v) ∧
    ∀ sign numeral, ReadsAs s sign numeral →
      ∃ integer fraction, IsDigits 10 integer ∧ integer ≠ [] ∧ IsDigits 10 fraction ∧
        fraction.length = scale ∧ Numeral.value ⟨integer, fraction, 0⟩ = numeral.value ∧
        text = plainText (if numeral.value = 0 then .positive else sign) integer fraction

lemma fromStr_plainText (hstored : numeral.StoredAs sign v) (hrepresentable : numeral.Representable)
    {sign' : Sign} (hsign : numeral.value = 0 ∨ sign = sign') (hinteger : IsDigits 10 integer)
    (hne : integer ≠ []) (hfraction : IsDigits 10 fraction) (hlength : integer.length ≤ 2 ^ 20)
    (hscale : fraction.length = numeral.scale)
    (hvalue : Numeral.value ⟨integer, fraction, 0⟩ = numeral.value) :
    PgNumeric.fromStr (plainText sign' integer fraction) = some (.ok v) := by
  have hreads := readsAs_plainText hinteger hne hfraction sign'
  have hscale' : Numeral.scale ⟨integer, fraction, 0⟩ = numeral.scale := by
    rw [← hscale, Numeral.scale]
    simp
  have hmax : postgresNumericMaxScale = 16383 := rfl
  have hle := length_plainText_le sign' integer fraction
  have hrange := hrepresentable.scale
  have hrepresentable' : Numeral.Representable ⟨integer, fraction, 0⟩ :=
    ⟨show |(0 : ℤ)| ≤ maxExponent by decide, hscale'.le.trans hrange,
      fun hne => hvalue ▸ hrepresentable.weight (hvalue ▸ hne)⟩
  rcases hreads.fromStr_spec (by omega) with ⟨-, v', heq, hstored'⟩ | ⟨hnot, -⟩
  · rw [heq, hstored.unique hstored' hvalue.symm hscale'.symm hsign]
  · exact absurd hrepresentable' hnot

lemma length_fractionDigits (ds : List ℤ) (scale : ℕ) (d : ℤ) :
    (fractionDigits ds scale d).length = scale := by
  rw [fractionDigits, List.length_take, length_flatMap_decimals, List.length_range, groupCount]
  omega

lemma isDigits_fractionDigits (h : IsDigits 10000 ds) (scale : ℕ) (d : ℤ) :
    IsDigits 10 (fractionDigits ds scale d) := by
  intro e he
  obtain ⟨i, -, he⟩ := List.mem_flatMap.1 (List.mem_of_mem_take he)
  exact isDigits_decimals (digitAt_mem h _) e he

lemma formatScale_eq (h : IsDigits 10000 ds) (hw : IsWeight w)
    (hscale : scale = 0 ∨ w + 1 + groupCount scale < 2 ^ 15) :
    formatScale w scale ds = some (if fractionDigits ds scale (w + 1) = [] then []
      else '.' :: digitsText (fractionDigits ds scale (w + 1))) := by
  have hempty : fractionDigits ds scale (w + 1) = [] ↔ scale = 0 := by
    rw [← List.length_eq_zero_iff, length_fractionDigits]
  have hmin : postgresNumericMinWeight = -2 ^ 15 := rfl
  have hlow := hw.1
  rw [formatScale]
  by_cases hzero : scale = 0
  · rw [if_neg (by omega), if_pos (hempty.2 hzero)]
  · have hfits := hscale.resolve_left hzero
    rw [if_pos (by omega), if_neg (fun h => hzero (hempty.1 h)), i16?_eq (by omega) (by omega),
      Option.bind_some, formatFraction_eq h (by omega) hfits]
    rfl

lemma formatScale_eq_none (hw : IsWeight w) (hscale : scale ≠ 0)
    (hoverflow : 2 ^ 15 ≤ w + 1 + groupCount scale) (ds : List ℤ) : formatScale w scale ds = none := by
  have hmin : postgresNumericMinWeight = -2 ^ 15 := rfl
  have hlow := hw.1
  rw [formatScale, if_pos (by omega)]
  by_cases hnext : w + 1 < 2 ^ 15
  · rw [i16?_eq (by omega) hnext, Option.bind_some,
      formatFraction_eq_none ds (by omega) hnext hoverflow]
    rfl
  · have hfirst : i16? (w + 1) = none := if_neg (by omega)
    rw [hfirst]
    rfl

lemma formatNumericValue_eq (hne : ds ≠ []) (hnormal : Normal 10000 ds) (hw : IsWeight w)
    (hscale : scale = 0 ∨ w + 1 + groupCount scale < 2 ^ 15) (sign : Sign) :
    formatNumericValue sign w scale ds =
      some (plainText sign (integerDigits w ds) (fractionDigits ds scale (w + 1))) := by
  have hsign : (if sign = .negative then ['-'] else []) = signText sign := by cases sign <;> rfl
  rw [formatNumericValue, if_neg (by simpa using hne), formatScale_eq hnormal.digits hw hscale,
    formatInteger_eq hnormal.digits hnormal.head hne, hsign, plainText, ← List.append_assoc]
  rfl

lemma formatNumericValue_zero (scale : ℕ) (sign : Sign) (w : ℤ) :
    formatNumericValue sign w scale [] =
      some (plainText .positive [0] (List.replicate scale 0)) := by
  rw [formatNumericValue, List.isEmpty_nil, if_pos rfl, plainText]
  cases scale with
  | zero => rfl
  | succ n => simp [digitsText, signText, Text.digitChar]

lemma value_displayed (hnormal : Normal 10000 ds)
    (hint : ∃ k : ℤ, placeValue 10000 w ds * 10 ^ scale = k) :
    Numeral.value ⟨integerDigits w ds, fractionDigits ds scale (w + 1), 0⟩ = placeValue 10000 w ds := by
  have hlength : (paddedInteger w ds).length = 4 * integerGroups w := by
    rw [paddedInteger, length_flatMap_decimals, List.length_range]
  have hdisplayed := placeValue_displayed hnormal.digits hint
  rw [placeValue_append, hlength] at hdisplayed
  rw [Numeral.value, (placeValue_integerDigits w ds).1, zpow_zero, mul_one, ← hdisplayed]
  congr 2
  push_cast
  ring

lemma formatNumericValue_eq_none (hne : ds ≠ []) (hw : IsWeight w) (hscale : scale ≠ 0)
    (hoverflow : 2 ^ 15 ≤ w + 1 + groupCount scale) (sign : Sign) :
    formatNumericValue sign w scale ds = none := by
  rw [formatNumericValue, if_neg (by simpa using hne), formatScale_eq_none hw hscale hoverflow]
  rfl

lemma displaysFaithfully_of (hreads : ReadsAs s sign numeral) (hstored : numeral.StoredAs sign v)
    (hrepresentable : numeral.Representable) (hinteger : IsDigits 10 integer)
    (hne : integer ≠ []) (hfraction : IsDigits 10 fraction) (hlength : integer.length ≤ 2 ^ 20)
    (hscale : fraction.length = numeral.scale)
    (hvalue : Numeral.value ⟨integer, fraction, 0⟩ = numeral.value)
    (hdisplay : v.display =
      some (plainText (if numeral.value = 0 then .positive else sign) integer fraction)) :
    DisplaysFaithfully s v numeral.scale := by
  refine ⟨_, hdisplay, fromStr_plainText hstored hrepresentable ?_ hinteger hne hfraction hlength
    hscale hvalue, fun sign' numeral' hreads' => ?_⟩
  · by_cases hzero : numeral.value = 0
    · exact .inl hzero
    · exact .inr (if_neg hzero).symm
  · obtain ⟨rfl, rfl⟩ := hreads.unique hreads'
    exact ⟨integer, fraction, hinteger, hne, hfraction, hscale, hvalue, rfl⟩

lemma displaysFaithfully_zero (hreads : ReadsAs s sign numeral)
    (hrepresentable : numeral.Representable) (hzero : numeral.value = 0) :
    DisplaysFaithfully s (.value .positive 0 numeral.scale []) numeral.scale := by
  have hfraction : IsDigits 10 (List.replicate numeral.scale 0) := fun d hd => by
    rw [List.eq_of_mem_replicate hd]
    decide
  have hvalue : Numeral.value ⟨[0], List.replicate numeral.scale 0, 0⟩ = numeral.value := by
    rw [hzero, Numeral.value, placeValue_eq_zero (by simp),
      placeValue_eq_zero fun d hd => List.eq_of_mem_replicate hd]
    simp
  refine displaysFaithfully_of hreads (.zero hzero) hrepresentable (by simp [IsDigits]) (by simp)
    hfraction (by simp) List.length_replicate hvalue ?_
  rw [if_pos hzero]
  exact formatNumericValue_zero numeral.scale .positive 0

lemma displaysFaithfully_value (hreads : ReadsAs s sign numeral)
    (hrepresentable : numeral.Representable) (hne : ds ≠ []) (hnormal : Normal 10000 ds)
    (hw : IsWeight w) (hvalue : placeValue 10000 w ds = numeral.value)
    (hscale : numeral.scale = 0 ∨ w + 1 + groupCount numeral.scale < 2 ^ 15) :
    DisplaysFaithfully s (.value sign w numeral.scale ds) numeral.scale := by
  have hint : ∃ k : ℤ, placeValue 10000 w ds * 10 ^ numeral.scale = k := by
    rw [hvalue]
    exact numeral.exists_value_mul_eq_intCast
  have hnonzero : numeral.value ≠ 0 := by
    rw [← hvalue]
    exact (placeValue_pos (by decide) hnormal.digits hnormal.last hne w).ne'
  have hmax : postgresNumericMaxWeight = 32767 := rfl
  have hhigh := hw.2
  have hlength : (integerDigits w ds).length ≤ 2 ^ 20 := by
    have hle := (placeValue_integerDigits w ds).2
    rw [integerGroups] at hle
    omega
  have hinteger := isDigits_integerDigits hnormal.digits hnormal.head hne w
  refine displaysFaithfully_of hreads (.value hne hnormal hw hvalue) hrepresentable hinteger.1
    hinteger.2 (isDigits_fractionDigits hnormal.digits numeral.scale (w + 1)) hlength
    (length_fractionDigits ..) ((value_displayed hnormal hint).trans hvalue) ?_
  rw [if_neg hnonzero]
  exact formatNumericValue_eq hne hnormal hw hscale sign

/-- A value that was parsed is displayed faithfully unless the index of the group behind the last one
that is displayed exceeds 16 bits. -/
theorem display_faithful_iff (s : List Char) (sign : Sign) (w : ℤ) (scale : ℕ) (ds : List ℤ)
    (h : PgNumeric.fromStr s = some (.ok (.value sign w scale ds))) :
    DisplaysFaithfully s (.value sign w scale ds) scale ↔
      scale = 0 ∨ w + 1 + (scale + 3) / 4 ≤ 2 ^ 15 - 1 := by
  have hfits : w + 1 + (scale + 3) / 4 ≤ 2 ^ 15 - 1 ↔ w + 1 + groupCount scale < 2 ^ 15 := by
    rw [groupCount]
    omega
  rw [hfits]
  rcases fromStr_eq_ok h with ⟨sign', numeral, hreads, hrepresentable, hstored⟩ | hspecial
  · generalize hv : PgNumeric.value sign w scale ds = v at hstored ⊢
    cases hstored with
    | zero hzero =>
      cases hv
      have hmax : postgresNumericMaxScale = 16383 := rfl
      have hscale := hrepresentable.scale
      exact ⟨fun _ => .inr (by rw [groupCount]; omega),
        fun _ => displaysFaithfully_zero hreads hrepresentable hzero⟩
    | @value w ds hne hnormal hw hvalue =>
      cases hv
      refine ⟨?_, displaysFaithfully_value hreads hrepresentable hne hnormal hw hvalue⟩
      rintro ⟨text, hdisplay, -⟩
      by_contra hcond
      rw [not_or, not_lt] at hcond
      rw [PgNumeric.display, formatNumericValue_eq_none hne hw hcond.1 hcond.2] at hdisplay
      cases hdisplay
  · generalize Text.trim s = trimmed at hspecial
    cases hspecial

theorem display_faithful_iff_price :
    PgNumeric.fromStr "-12.50".toList = some (.ok (.value .negative 0 2 [12, 5000])) ∧
      DisplaysFaithfully "-12.50".toList (.value .negative 0 2 [12, 5000]) 2 := by
  have hparse : PgNumeric.fromStr "-12.50".toList =
      some (.ok (.value .negative 0 2 [12, 5000])) := by decide
  exact ⟨hparse, (display_faithful_iff _ _ _ _ _ hparse).2 (.inr (by decide))⟩

def halfText (k : ℕ) : List Char := '1' :: (List.replicate (4 * k) '0' ++ ".5".toList)

def halfDigits (k : ℕ) : List ℤ := 1 :: (List.replicate k 0 ++ [5000])

lemma halfDigits_ne_nil (k : ℕ) : halfDigits k ≠ [] := List.cons_ne_nil _ _

lemma normal_halfDigits (k : ℕ) : Normal 10000 (halfDigits k) := by
  refine ⟨fun d hd => ?_, by simp [halfDigits], ?_⟩
  · rw [halfDigits, List.mem_cons, List.mem_append, List.mem_singleton] at hd
    rcases hd with rfl | hd | rfl
    · decide
    · rw [List.eq_of_mem_replicate hd]
      decide
    · decide
  · rw [halfDigits, ← List.cons_append, List.getLast?_concat]
    decide

lemma halfText_eq (k : ℕ) :
    halfText k = plainText .positive (1 :: List.replicate (4 * k) 0) [5] := by
  rw [halfText, plainText, digitsText, List.map_cons, List.map_replicate]
  rfl

lemma readsAs_halfText (k : ℕ) :
    ReadsAs (halfText k) .positive ⟨1 :: List.replicate (4 * k) 0, [5], 0⟩ := by
  rw [halfText_eq]
  refine readsAs_plainText (fun d hd => ?_) (by simp) (by simp [IsDigits]) .positive
  rcases List.mem_cons.1 hd with rfl | hd
  · decide
  · rw [List.eq_of_mem_replicate hd]
    decide

lemma placeValue_halfDigits (k : ℕ) :
    placeValue 10000 k (halfDigits k) =
      Numeral.value ⟨1 :: List.replicate (4 * k) 0, [5], 0⟩ := by
  have hzeros : ∀ n : ℕ, ∀ d ∈ List.replicate n (0 : ℤ), d = 0 :=
    fun n d hd => List.eq_of_mem_replicate hd
  rw [halfDigits, Numeral.value, placeValue_cons, placeValue_append, placeValue_eq_zero (hzeros k),
    placeValue_cons, placeValue_cons, placeValue_eq_zero (hzeros (4 * k)), List.length_cons,
    List.length_replicate, List.length_replicate, show (k : ℤ) - 1 - k = -1 by ring,
    show ((4 * k + 1 : ℕ) : ℤ) - 1 = (4 * k : ℕ) by push_cast; ring, zpow_natCast, zpow_natCast,
    pow_mul, placeValue_cons]
  norm_num

lemma fromStr_halfText {k : ℕ} (hk : k < 2 ^ 15) :
    PgNumeric.fromStr (halfText k) = some (.ok (.value .positive k 1 (halfDigits k))) := by
  have hmin : postgresNumericMinWeight = -2 ^ 15 := rfl
  have hmax : postgresNumericMaxWeight = 2 ^ 15 - 1 := rfl
  have hweight : IsWeight k := ⟨by omega, by omega⟩
  have hne := halfDigits_ne_nil k
  have hvalue := placeValue_halfDigits k
  have hrepresentable : Numeral.Representable ⟨1 :: List.replicate (4 * k) 0, [5], 0⟩ :=
    ⟨show |(0 : ℤ)| ≤ maxExponent by decide, show 1 ≤ postgresNumericMaxScale by decide,
      fun _ => hvalue ▸ (isWeight_iff hne (normal_halfDigits k)).1 hweight⟩
  have hlength : (halfText k).length < 2 ^ 30 := by
    rw [halfText, List.length_cons, List.length_append, List.length_replicate,
      show ".5".toList.length = 2 from rfl]
    omega
  rcases (readsAs_halfText k).fromStr_spec hlength with ⟨-, v, heq, hstored⟩ | ⟨hnot, -⟩
  · rw [heq, hstored.unique (.value hne (normal_halfDigits k) hweight hvalue) rfl rfl (.inr rfl)]
    rfl
  · exact absurd hrepresentable hnot

/-- At the largest weight there is no index for a group behind the decimal point. -/
theorem display_overflows :
    PgNumeric.fromStr (halfText 32767) = some (.ok (.value .positive 32767 1 (halfDigits 32767))) ∧
      PgNumeric.display (.value .positive 32767 1 (halfDigits 32767)) = none :=
  ⟨fromStr_halfText (by decide), formatNumericValue_eq_none (halfDigits_ne_nil _)
    ⟨by decide, by decide⟩ (by decide) (by decide) .positive⟩

end Parsed

end Etl
