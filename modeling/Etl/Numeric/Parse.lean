import Etl.Lib.Except
import Etl.Numeric.Grammar

/-!
# What is parsed

The stored form of a number has digits of base 10000 without a zero at either end. The parser turns
a numeral into it (`convertToBase10000_eq_some`).
-/

namespace Etl

open Machine Positional

/-! ## Alignment -/

section Alignment

variable {D : List ℤ} {offset g p : ℕ} {w : ℤ}

def aligned (offset : ℕ) (D : List ℤ) : List ℤ := List.replicate offset 0 ++ D

def groupOf (offset : ℕ) (D : List ℤ) (g : ℕ) : ℤ :=
  groupValue 10 4 (fun i => (aligned offset D).getD i 0) g

lemma getD_aligned_add (offset : ℕ) (D : List ℤ) (i : ℕ) :
    (aligned offset D).getD (offset + i) 0 = D.getD i 0 := by
  rw [aligned, List.getD_append_right _ _ _ _ (by simp)]
  simp

lemma getD_aligned_of_lt (h : p < offset) : (aligned offset D).getD p 0 = 0 := by
  rw [aligned, List.getD_append _ _ _ _ (by simpa using h), List.getD_replicate _ h]

lemma placeValue_aligned (b offset : ℕ) (D : List ℤ) (w : ℤ) :
    placeValue b w (aligned offset D) = placeValue b (w - offset) D := by
  rw [aligned, placeValue_append, List.length_replicate,
    placeValue_eq_zero fun d hd => List.eq_of_mem_replicate hd, zero_add]

lemma isDigits_aligned {b : ℕ} (hD : IsDigits b D) (hb : 0 < b) (offset : ℕ) :
    IsDigits b (aligned offset D) := by
  intro d hd
  rcases List.mem_append.1 hd with hd | hd
  · rw [List.eq_of_mem_replicate hd]
    exact ⟨le_rfl, by exact_mod_cast hb⟩
  · exact hD d hd

lemma getD_aligned_mem (hD : IsDigits 10 D) (offset p : ℕ) :
    0 ≤ (aligned offset D).getD p 0 ∧ (aligned offset D).getD p 0 < 10 :=
  (isDigits_aligned hD (by decide) offset).getD_mem (by decide) p

lemma groupOf_eq (offset : ℕ) (D : List ℤ) (g : ℕ) :
    groupOf offset D g = ((((aligned offset D).getD (4 * g) 0 * 10 +
      (aligned offset D).getD (4 * g + 1) 0) * 10 + (aligned offset D).getD (4 * g + 2) 0) * 10) +
      (aligned offset D).getD (4 * g + 3) 0 := by
  simp only [groupOf, groupValue, Finset.sum_range_succ, Finset.sum_range_zero]
  norm_num
  ring

lemma groupOf_mem (hD : IsDigits 10 D) (offset g : ℕ) :
    0 ≤ groupOf offset D g ∧ groupOf offset D g < 10000 := by
  have h := getD_aligned_mem hD offset
  have h₀ := h (4 * g)
  have h₁ := h (4 * g + 1)
  have h₂ := h (4 * g + 2)
  have h₃ := h (4 * g + 3)
  rw [groupOf_eq]
  omega

lemma groupOf_eq_zero (h : ∀ p, p / 4 = g → (aligned offset D).getD p 0 = 0) :
    groupOf offset D g = 0 := by
  rw [groupOf_eq, h _ (by omega), h _ (by omega), h _ (by omega), h _ (by omega)]
  rfl

lemma groupOf_ne_zero (hD : IsDigits 10 D) (h : (aligned offset D).getD p 0 ≠ 0) :
    groupOf offset D (p / 4) ≠ 0 := by
  have hmem := getD_aligned_mem hD offset
  have h₀ := hmem (4 * (p / 4))
  have h₁ := hmem (4 * (p / 4) + 1)
  have h₂ := hmem (4 * (p / 4) + 2)
  have h₃ := hmem (4 * (p / 4) + 3)
  intro hzero
  rw [groupOf_eq] at hzero
  -- the place is one of the four, and all of them are zero
  have hp : p = 4 * (p / 4) ∨ p = 4 * (p / 4) + 1 ∨ p = 4 * (p / 4) + 2 ∨ p = 4 * (p / 4) + 3 := by
    omega
  rcases hp with hp | hp | hp | hp <;> rw [hp] at h <;> omega

def groupsFrom (offset : ℕ) (D : List ℤ) (first last : ℕ) : List ℤ :=
  (List.range (last - first + 1)).map fun i => groupOf offset D (first + i)

structure Bounds (D : List ℤ) (first last : ℕ) : Prop where
  first_ne : D.getD first 0 ≠ 0
  last_ne : D.getD last 0 ≠ 0
  before : ∀ i < first, D.getD i 0 = 0
  after : ∀ i, last < i → D.getD i 0 = 0

variable {first last : ℕ}

lemma Bounds.le (h : Bounds D first last) : first ≤ last :=
  not_lt.1 fun hlt => h.first_ne (h.after first hlt)

lemma Bounds.lt_length (h : Bounds D first last) : last < D.length := by
  by_contra hge
  exact h.last_ne (List.getD_eq_default _ _ (not_lt.1 hge))

lemma Bounds.group_le (h : Bounds D first last) (offset : ℕ) :
    (offset + first) / 4 ≤ (offset + last) / 4 :=
  Nat.div_le_div_right (Nat.add_le_add_left h.le offset)

lemma Bounds.getD_before (h : Bounds D first last) (hp : p < offset + first) :
    (aligned offset D).getD p 0 = 0 := by
  by_cases hlt : p < offset
  · exact getD_aligned_of_lt hlt
  · obtain ⟨i, rfl⟩ := Nat.exists_eq_add_of_le (not_lt.1 hlt)
    rw [getD_aligned_add, h.before i (by omega)]

lemma Bounds.getD_after (h : Bounds D first last) (hp : offset + last < p) :
    (aligned offset D).getD p 0 = 0 := by
  obtain ⟨i, rfl⟩ := Nat.exists_eq_add_of_le (show offset ≤ p by omega)
  rw [getD_aligned_add, h.after i (by omega)]

lemma Bounds.normal_groupsFrom (h : Bounds D first last) (hD : IsDigits 10 D) (offset : ℕ) :
    Normal 10000 (groupsFrom offset D ((offset + first) / 4) ((offset + last) / 4)) := by
  have hle := h.group_le offset
  refine ⟨fun d hd => ?_, ?_, ?_⟩
  · obtain ⟨i, -, rfl⟩ := List.mem_map.1 hd
    exact groupOf_mem hD offset _
  · rw [groupsFrom, List.range_succ_eq_map, List.map_cons, List.head?_cons, ne_eq,
      Option.some.injEq, add_zero]
    exact groupOf_ne_zero hD (by rw [getD_aligned_add]; exact h.first_ne)
  · rw [groupsFrom, List.range_succ, List.map_append, List.map_singleton, List.getLast?_concat,
      ne_eq, Option.some.injEq, Nat.add_sub_cancel' hle]
    exact groupOf_ne_zero hD (by rw [getD_aligned_add]; exact h.last_ne)

lemma Bounds.placeValue_groupsFrom (h : Bounds D first last) (offset : ℕ) (w : ℤ) :
    placeValue 10000 (w - ((offset + first) / 4 : ℕ))
        (groupsFrom offset D ((offset + first) / 4) ((offset + last) / 4)) =
      placeValue 10 (4 * w + 3 - offset) D := by
  have hle := h.group_le offset
  have hzero : ∀ d ∈ (List.range ((offset + first) / 4)).map (groupOf offset D), d = 0 := by
    intro d hd
    obtain ⟨g, hg, rfl⟩ := List.mem_map.1 hd
    have hg' := List.mem_range.1 hg
    exact groupOf_eq_zero fun p hp => h.getD_before (by omega)
  have hgroups : placeValue 10 ((4 : ℕ) * w + (4 : ℕ) - 1) (aligned offset D) =
      placeValue 10000 w ((List.range ((offset + last) / 4 + 1)).map (groupOf offset D)) :=
    placeValue_groupValue (by decide) (fun i hi => h.getD_after (by omega)) w
  calc placeValue 10000 (w - ((offset + first) / 4 : ℕ))
        (groupsFrom offset D ((offset + first) / 4) ((offset + last) / 4))
      = placeValue 10000 w ((List.range ((offset + first) / 4)).map (groupOf offset D) ++
          groupsFrom offset D ((offset + first) / 4) ((offset + last) / 4)) := by
        rw [placeValue_append, placeValue_eq_zero hzero, zero_add, List.length_map,
          List.length_range]
    _ = placeValue 10000 w ((List.range ((offset + last) / 4 + 1)).map (groupOf offset D)) := by
        rw [show (offset + last) / 4 + 1 =
            (offset + first) / 4 + ((offset + last) / 4 - (offset + first) / 4 + 1) by omega,
          List.range_add, List.map_append, List.map_map]
        rfl
    _ = placeValue 10 (4 * w + 3) (aligned offset D) := by
        rw [show (4 * w + 3 : ℤ) = (4 : ℕ) * w + (4 : ℕ) - 1 by push_cast; ring]
        exact hgroups.symm
    _ = placeValue 10 (4 * w + 3 - offset) D := placeValue_aligned ..

end Alignment

/-! ## The conversion -/

section Conversion

variable {D : List ℤ} {offset g scale : ℕ} {dweight d w : ℤ} {sign : Sign}

lemma exists_bounds {first : ℕ} (h : D.findIdx? (· ≠ 0) = some first) :
    Bounds D first (D.length - 1 - D.reverse.findIdx (· ≠ 0)) := by
  obtain ⟨hlt, hfirst, hbefore⟩ := List.findIdx?_eq_some_iff_getElem.1 h
  have hfound : D.reverse.findIdx (· ≠ 0) < D.reverse.length :=
    List.findIdx_lt_length.2 ⟨_, List.mem_reverse.2 (List.getElem_mem hlt), hfirst⟩
  have hlast := List.findIdx_getElem (w := hfound)
  rw [List.getElem_reverse] at hlast
  rw [List.length_reverse] at hfound
  refine ⟨?_, ?_, fun i hi => ?_, fun i hi => ?_⟩
  · rw [List.getD_eq_getElem _ _ hlt]
    simpa using hfirst
  · rw [List.getD_eq_getElem _ _ (by omega)]
    simpa using hlast
  · rw [List.getD_eq_getElem _ _ (hi.trans hlt)]
    simpa using hbefore i hi
  · by_cases hi' : i < D.length
    · have hnot := List.not_of_lt_findIdx
        (show D.length - 1 - i < D.reverse.findIdx (· ≠ 0) by omega)
      rw [List.getElem_reverse] at hnot
      rw [List.getD_eq_getElem _ _ hi']
      simpa [show D.length - 1 - (D.length - 1 - i) = i by omega] using hnot
    · exact List.getD_eq_default _ _ (not_lt.1 hi')

lemma getD_aligned_eq (offset : ℕ) (D : List ℤ) (p : ℕ) :
    (if 0 ≤ (p : ℤ) - offset then D.getD ((p : ℤ) - offset).toNat 0 else 0) =
      (aligned offset D).getD p 0 := by
  split_ifs with h
  · obtain ⟨i, rfl⟩ := Nat.exists_eq_add_of_le (show offset ≤ p by omega)
    rw [getD_aligned_add]
    congr
    omega
  · exact (getD_aligned_of_lt (by omega)).symm

lemma pushDecimalDigit_eq_some {digit : ℤ} {p : ℕ}
    (h : pushDecimalDigit D offset digit p = some d) :
    d = digit * 10 + (aligned offset D).getD p 0 := by
  obtain ⟨index, hindex, h⟩ := Option.bind_eq_some_iff.1 h
  obtain ⟨rfl, -⟩ := checked_eq_some_iff.1 hindex
  obtain ⟨shifted, hshifted, h⟩ := Option.bind_eq_some_iff.1 h
  obtain ⟨rfl, -⟩ := checked_eq_some_iff.1 hshifted
  rw [getD_aligned_eq] at h
  exact (checked_eq_some_iff.1 h).1

lemma pushDecimalDigit_eq (hD : IsDigits 10 D) {digit : ℤ} {p : ℕ} (hdigit : 0 ≤ digit ∧ digit < 1000)
    (hp : p < 2 ^ 31) (hoffset : offset < 4) :
    pushDecimalDigit D offset digit p = some (digit * 10 + (aligned offset D).getD p 0) := by
  have hmem := getD_aligned_mem hD offset p
  simp only [pushDecimalDigit, i32?_eq (show -2 ^ 31 ≤ (p : ℤ) - offset by omega)
    (show (p : ℤ) - offset < 2 ^ 31 by omega), Option.bind_eq_bind, Option.bind_some, getD_aligned_eq,
    i16?_eq (show -2 ^ 15 ≤ digit * 10 by omega) (show digit * 10 < 2 ^ 15 by omega)]
  exact i16?_eq (by omega) (by omega)

lemma groupDigit_eq_some (h : groupDigit D offset g = some d) : d = groupOf offset D g := by
  obtain ⟨start, hstart, h⟩ := Option.bind_eq_some_iff.1 h
  obtain ⟨rfl, -⟩ := checked_eq_some_iff.1 hstart
  obtain ⟨-, -, h⟩ := Option.bind_eq_some_iff.1 h
  obtain ⟨d₁, h₁, h⟩ := Option.bind_eq_some_iff.1 h
  obtain ⟨d₂, h₂, h⟩ := Option.bind_eq_some_iff.1 h
  obtain ⟨d₃, h₃, h⟩ := Option.bind_eq_some_iff.1 h
  obtain ⟨d₄, h₄, h⟩ := Option.bind_eq_some_iff.1 h
  cases h
  rw [mul_comm] at h₁ h₂ h₃ h₄
  have e₁ := pushDecimalDigit_eq_some (p := 4 * g) (by exact_mod_cast h₁)
  have e₂ := pushDecimalDigit_eq_some (p := 4 * g + 1) (by exact_mod_cast h₂)
  have e₃ := pushDecimalDigit_eq_some (p := 4 * g + 2) (by exact_mod_cast h₃)
  have e₄ := pushDecimalDigit_eq_some (p := 4 * g + 3) (by exact_mod_cast h₄)
  rw [groupOf_eq, e₄, e₃, e₂, e₁, zero_mul, zero_add]

lemma groupDigit_eq (hD : IsDigits 10 D) (hg : 4 * g + 4 < 2 ^ 31) (hoffset : offset < 4) :
    groupDigit D offset g = some (groupOf offset D g) := by
  have hpush : ∀ (digit : ℤ) (p : ℕ), 0 ≤ digit ∧ digit < 1000 → p < 4 * g + 4 →
      pushDecimalDigit D offset digit p = some (digit * 10 + (aligned offset D).getD p 0) :=
    fun _ _ hdigit hp => pushDecimalDigit_eq hD hdigit (by omega) hoffset
  have hstart : i32? ((g : ℤ) * 4) = some ((g : ℤ) * 4) := i32?_eq (by omega) (by omega)
  have hend : i32? ((g : ℤ) * 4 + 4) = some ((g : ℤ) * 4 + 4) := i32?_eq (by omega) (by omega)
  have hmem := getD_aligned_mem hD offset
  have h₀ := hmem (4 * g)
  have h₁ := hmem (4 * g + 1)
  have h₂ := hmem (4 * g + 2)
  rw [groupOf_eq]
  generalize hd₀ : (aligned offset D).getD (4 * g) 0 = d₀ at h₀ ⊢
  generalize hd₁ : (aligned offset D).getD (4 * g + 1) 0 = d₁ at h₁ ⊢
  generalize hd₂ : (aligned offset D).getD (4 * g + 2) 0 = d₂ at h₂ ⊢
  have e₀ := hpush 0 (4 * g) (by omega) (by omega)
  have e₁ := hpush d₀ (4 * g + 1) (by omega) (by omega)
  have e₂ := hpush (d₀ * 10 + d₁) (4 * g + 2) (by omega) (by omega)
  have e₃ := hpush ((d₀ * 10 + d₁) * 10 + d₂) (4 * g + 3) (by omega) (by omega)
  rw [hd₀, zero_mul, zero_add] at e₀
  rw [hd₁] at e₁
  rw [hd₂] at e₂
  rw [show ((4 * g : ℕ) : ℤ) = g * 4 by push_cast; ring] at e₀
  rw [show ((4 * g + 1 : ℕ) : ℤ) = g * 4 + 1 by push_cast; ring] at e₁
  rw [show ((4 * g + 2 : ℕ) : ℤ) = g * 4 + 2 by push_cast; ring] at e₂
  rw [show ((4 * g + 3 : ℕ) : ℤ) = g * 4 + 3 by push_cast; ring] at e₃
  rw [groupDigit, hstart, Option.bind_eq_bind, Option.bind_some, hend, Option.bind_some]
  simp only [List.foldlM_cons, List.foldlM_nil, e₀, e₁, e₂, e₃, Option.bind_eq_bind,
    Option.bind_some, Option.pure_def]

lemma base10000Weight_eq_some (h : base10000Weight dweight = some w) : w = dweight / 4 := by
  rw [base10000Weight] at h
  split at h
  · obtain ⟨sum, hsum, h⟩ := Option.bind_eq_some_iff.1 h
    obtain ⟨rfl, -⟩ := checked_eq_some_iff.1 hsum
    obtain ⟨rfl, -⟩ := checked_eq_some_iff.1 h
    omega
  · obtain ⟨negated, hnegated, h⟩ := Option.bind_eq_some_iff.1 h
    obtain ⟨rfl, -⟩ := checked_eq_some_iff.1 hnegated
    obtain ⟨places, hplaces, h⟩ := Option.bind_eq_some_iff.1 h
    obtain ⟨rfl, -⟩ := checked_eq_some_iff.1 hplaces
    obtain ⟨groups, hgroups, h⟩ := Option.bind_eq_some_iff.1 h
    obtain ⟨rfl, -⟩ := checked_eq_some_iff.1 hgroups
    obtain ⟨rfl, -⟩ := checked_eq_some_iff.1 h
    omega

lemma base10000Weight_eq (hlow : -2 ^ 31 < dweight) (hhigh : dweight + 4 < 2 ^ 31) :
    base10000Weight dweight = some (dweight / 4) := by
  rw [base10000Weight]
  split
  · rw [i32?_eq (by omega) hhigh, Option.bind_eq_bind, Option.bind_some,
      i32?_eq (by omega) (by omega)]
    congr 1
    omega
  · rw [i32?_eq (by omega) (by omega), Option.bind_eq_bind, Option.bind_some,
      i32?_eq (by omega) (by omega), Option.bind_some, i32?_eq (by omega) (by omega),
      Option.bind_some, i32?_eq (by omega) (by omega)]
    congr 1
    omega

def offsetOf (dweight : ℤ) : ℕ := (3 - dweight % 4).toNat

lemma offsetOf_lt (dweight : ℤ) : offsetOf dweight < 4 := by
  rw [offsetOf]
  omega

lemma natCast_offsetOf (dweight : ℤ) :
    ((offsetOf dweight : ℕ) : ℤ) = (dweight / 4 + 1) * 4 - (dweight + 1) := by
  rw [offsetOf]
  omega

lemma alignment_eq_some {o : ℤ} (h : alignment dweight = some (w, o)) :
    w = dweight / 4 ∧ o = offsetOf dweight := by
  obtain ⟨weight, hweight, h⟩ := Option.bind_eq_some_iff.1 h
  obtain rfl := base10000Weight_eq_some hweight
  obtain ⟨groups, hgroups, h⟩ := Option.bind_eq_some_iff.1 h
  obtain ⟨rfl, -⟩ := checked_eq_some_iff.1 hgroups
  obtain ⟨aligned, haligned, h⟩ := Option.bind_eq_some_iff.1 h
  obtain ⟨rfl, -⟩ := checked_eq_some_iff.1 haligned
  obtain ⟨places, hplaces, h⟩ := Option.bind_eq_some_iff.1 h
  obtain ⟨rfl, -⟩ := checked_eq_some_iff.1 hplaces
  obtain ⟨offset, hoffset, h⟩ := Option.bind_eq_some_iff.1 h
  obtain ⟨rfl, -⟩ := checked_eq_some_iff.1 hoffset
  cases h
  exact ⟨rfl, (natCast_offsetOf dweight).symm⟩

lemma alignment_eq (hlow : -2 ^ 31 < dweight) (hhigh : dweight + 4 < 2 ^ 31) :
    alignment dweight = some (dweight / 4, (offsetOf dweight : ℤ)) := by
  rw [alignment, base10000Weight_eq hlow hhigh, Option.bind_eq_bind, Option.bind_some,
    i32?_eq (by omega) (by omega), Option.bind_some, i32?_eq (by omega) (by omega),
    Option.bind_some, i32?_eq (by omega) (by omega), Option.bind_some,
    i32?_eq (by omega) (by omega), Option.bind_some, natCast_offsetOf]
  rfl

def IsWeight (w : ℤ) : Prop := postgresNumericMinWeight ≤ w ∧ w ≤ postgresNumericMaxWeight

/-- Nothing for a zero, and otherwise the digits without the zeros at the ends. -/
inductive Converts (D : List ℤ) (dweight : ℤ) (scale : ℕ) (sign : Sign) :
    Except ParseNumericError PgNumeric → Prop
  | zero (h : ∀ d ∈ D, d = 0) : Converts D dweight scale sign (.ok (.value .positive 0 scale []))
  | value {w ds} (hnormal : Normal 10000 ds) (hne : ds ≠ [])
      (hvalue : placeValue 10000 w ds = placeValue 10 dweight D) (hw : IsWeight w) :
      Converts D dweight scale sign (.ok (.value sign w scale ds))
  | outOfRange {w ds} (hnormal : Normal 10000 ds) (hne : ds ≠ [])
      (hvalue : placeValue 10000 w ds = placeValue 10 dweight D) (hw : ¬ IsWeight w) :
      Converts D dweight scale sign (.error .valueOutOfRange)

lemma Bounds.converts {first last : ℕ} (h : Bounds D first last) (hD : IsDigits 10 D)
    (dweight : ℤ) (scale : ℕ) (sign : Sign) :
    let w := dweight / 4 - ((offsetOf dweight + first) / 4 : ℕ)
    let ds := groupsFrom (offsetOf dweight) D ((offsetOf dweight + first) / 4)
      ((offsetOf dweight + last) / 4)
    (IsWeight w → Converts D dweight scale sign (.ok (.value sign w scale ds))) ∧
      (¬ IsWeight w → Converts D dweight scale sign (.error .valueOutOfRange)) := by
  have hnormal := h.normal_groupsFrom hD (offsetOf dweight)
  have hvalue := h.placeValue_groupsFrom (offsetOf dweight) (dweight / 4)
  have hoffset := natCast_offsetOf dweight
  rw [show 4 * (dweight / 4) + 3 - (offsetOf dweight : ℤ) = dweight by omega] at hvalue
  have hne : groupsFrom (offsetOf dweight) D ((offsetOf dweight + first) / 4)
      ((offsetOf dweight + last) / 4) ≠ [] := by
    simp [groupsFrom]
  exact ⟨.value hnormal hne hvalue, .outOfRange hnormal hne hvalue⟩

lemma natCast_add_div_four (m n : ℕ) : ((m : ℤ) + n) / 4 = ((m + n) / 4 : ℕ) := by
  omega

lemma toNat_sub_add_one {m n : ℕ} (h : m ≤ n) : ((n : ℤ) - m + 1).toNat = n - m + 1 := by
  omega

lemma Bounds.retainGroups_eq_some {first last : ℕ} {r : Except ParseNumericError PgNumeric}
    (hbounds : Bounds D first last) (hD : IsDigits 10 D)
    (h : retainGroups D (dweight / 4) (offsetOf dweight) first last scale sign = some r) :
    Converts D dweight scale sign r := by
  have hle := hbounds.group_le (offsetOf dweight)
  obtain ⟨hvalue, hrange⟩ := hbounds.converts hD dweight scale sign
  obtain ⟨first', hfirst, h⟩ := Option.bind_eq_some_iff.1 h
  obtain ⟨rfl, -⟩ := checked_eq_some_iff.1 hfirst
  obtain ⟨last', hlast, h⟩ := Option.bind_eq_some_iff.1 h
  obtain ⟨rfl, -⟩ := checked_eq_some_iff.1 hlast
  obtain ⟨firstPosition, hfirstPosition, h⟩ := Option.bind_eq_some_iff.1 h
  obtain ⟨rfl, -⟩ := checked_eq_some_iff.1 hfirstPosition
  obtain ⟨lastPosition, hlastPosition, h⟩ := Option.bind_eq_some_iff.1 h
  obtain ⟨rfl, -⟩ := checked_eq_some_iff.1 hlastPosition
  obtain ⟨finalWeight, hfinalWeight, h⟩ := Option.bind_eq_some_iff.1 h
  obtain ⟨rfl, -⟩ := checked_eq_some_iff.1 hfinalWeight
  rw [natCast_add_div_four, natCast_add_div_four] at h
  split at h
  · rename_i hw
    cases h
    exact hrange hw
  · rename_i hw
    obtain ⟨difference, hdifference, h⟩ := Option.bind_eq_some_iff.1 h
    obtain ⟨rfl, -⟩ := checked_eq_some_iff.1 hdifference
    obtain ⟨retainedGroups, hretainedGroups, h⟩ := Option.bind_eq_some_iff.1 h
    obtain ⟨rfl, -⟩ := checked_eq_some_iff.1 hretainedGroups
    obtain ⟨digits, hdigits, h⟩ := Option.bind_eq_some_iff.1 h
    cases h
    have hmap := Option.eq_map_of_mapM_eq_some
      (g := fun i => groupOf (offsetOf dweight) D ((offsetOf dweight + first) / 4 + i))
      (fun i _ d hd => groupDigit_eq_some (by exact_mod_cast hd)) hdigits
    rw [toNat_sub_add_one hle] at hmap
    rw [hmap]
    exact hvalue (not_not.1 hw)

lemma convertToBase10000_eq_some {r : Except ParseNumericError PgNumeric} (hD : IsDigits 10 D)
    (hne : D ≠ []) (hscale : scale ≤ postgresNumericMaxScale)
    (h : convertToBase10000 D dweight scale sign = some r) : Converts D dweight scale sign r := by
  have hmax : postgresNumericMaxScale = 16383 := rfl
  rw [convertToBase10000, if_neg (by omega), if_neg (by simpa using hne), Int.toNat_natCast] at h
  obtain ⟨⟨weight, offset⟩, halignment, h⟩ := Option.bind_eq_some_iff.1 h
  obtain ⟨rfl, rfl⟩ := alignment_eq_some halignment
  dsimp only at h
  split at h
  · rename_i hfind
    cases h
    exact .zero fun d hd => by simpa using List.findIdx?_eq_none_iff.1 hfind d hd
  · rename_i first hfind
    exact (exists_bounds hfind).retainGroups_eq_some hD h

lemma Bounds.isSome_retainGroups {first last : ℕ} (hbounds : Bounds D first last)
    (hD : IsDigits 10 D) (hlength : D.length ≤ 2 ^ 30) (hlow : -2 ^ 31 < dweight)
    (hhigh : dweight < 2 ^ 31) (scale : ℕ) (sign : Sign) :
    (retainGroups D (dweight / 4) (offsetOf dweight) first last scale sign).isSome := by
  have hle := hbounds.group_le (offsetOf dweight)
  have hfirst := hbounds.le
  have hlast := hbounds.lt_length
  have hoffset := offsetOf_lt dweight
  have hdigits : (List.range ((offsetOf dweight + last) / 4 - (offsetOf dweight + first) / 4 +
        1)).mapM (fun i : ℕ => groupDigit D (offsetOf dweight)
          (((offsetOf dweight + first) / 4 : ℕ) + i)) =
      some (groupsFrom (offsetOf dweight) D ((offsetOf dweight + first) / 4)
        ((offsetOf dweight + last) / 4)) := by
    refine Option.mapM_eq_some_map fun i hi => ?_
    have hi' := List.mem_range.1 hi
    rw [← Nat.cast_add]
    exact groupDigit_eq hD (by omega) hoffset
  rw [retainGroups, i32?_eq (by omega) (by omega), Option.bind_eq_bind, Option.bind_some,
    i32?_eq (by omega) (by omega), Option.bind_some, i32?_eq (by omega) (by omega),
    Option.bind_some, i32?_eq (by omega) (by omega), Option.bind_some]
  dsimp only
  rw [natCast_add_div_four, natCast_add_div_four, i32?_eq (by omega) (by omega), Option.bind_some]
  split
  · rfl
  · rw [i32?_eq (by omega) (by omega), Option.bind_some, i32?_eq (by omega) (by omega),
      Option.bind_some, toNat_sub_add_one hle, hdigits]
    rfl

lemma isSome_convertToBase10000 (hD : IsDigits 10 D) (hlength : D.length ≤ 2 ^ 30)
    (hlow : -2 ^ 31 < dweight) (hhigh : dweight + 4 < 2 ^ 31) (dscale : ℤ) (sign : Sign) :
    (convertToBase10000 D dweight dscale sign).isSome := by
  rw [convertToBase10000]
  split
  · rfl
  · split
    · rfl
    · rw [alignment_eq hlow hhigh, Option.bind_eq_bind, Option.bind_some]
      dsimp only
      split
      · rfl
      · rename_i first hfind
        exact (exists_bounds hfind).isSome_retainGroups hD hlength hlow (by omega) _ sign

end Conversion

/-! ## Numerals and their stored form -/

section Stored

variable {numeral : Numeral} {text x : List Char} {ds : List ℤ} {w e : ℤ} {sign : Sign}
  {v : PgNumeric} {r : Except ParseNumericError PgNumeric}

def Numeral.value (numeral : Numeral) : ℚ :=
  (placeValue 10 (numeral.integer.length - 1) numeral.integer + placeValue 10 (-1) numeral.fraction) *
    10 ^ numeral.exponent

structure Numeral.Representable (numeral : Numeral) : Prop where
  exponent : |numeral.exponent| ≤ maxExponent
  scale : numeral.scale ≤ postgresNumericMaxScale
  weight : numeral.value ≠ 0 → (10000 : ℚ) ^ postgresNumericMinWeight ≤ numeral.value ∧
    numeral.value < (10000 : ℚ) ^ (postgresNumericMaxWeight + 1)

inductive Numeral.StoredAs (numeral : Numeral) (sign : Sign) : PgNumeric → Prop
  | zero (h : numeral.value = 0) : StoredAs numeral sign (.value .positive 0 numeral.scale [])
  | value {w : ℤ} {ds : List ℤ} (hne : ds ≠ []) (hnormal : Normal 10000 ds) (hw : IsWeight w)
      (hvalue : placeValue 10000 w ds = numeral.value) :
      StoredAs numeral sign (.value sign w numeral.scale ds)

lemma Numeral.value_eq (numeral : Numeral) :
    placeValue 10 (numeral.integer.length - 1 + numeral.exponent)
      (numeral.integer ++ numeral.fraction) = numeral.value := by
  rw [placeValue_add (by decide), placeValue_append, Numeral.value]
  congr 3
  ring

lemma isWeight_iff (hne : ds ≠ []) (hnormal : Normal 10000 ds) :
    IsWeight w ↔ (10000 : ℚ) ^ postgresNumericMinWeight ≤ placeValue 10000 w ds ∧
      placeValue 10000 w ds < (10000 : ℚ) ^ (postgresNumericMaxWeight + 1) := by
  obtain ⟨d, ds, rfl⟩ := List.exists_cons_of_ne_nil hne
  have hd : d ≠ 0 := by simpa using hnormal.head
  have hlow := zpow_le_placeValue (by decide) hnormal.digits hd w
  have hhigh := placeValue_lt (by decide) hnormal.digits w
  have hbase : (1 : ℚ) < (10000 : ℕ) := by norm_num
  rw [Nat.cast_ofNat] at hlow hhigh hbase
  rw [IsWeight]
  constructor
  · rintro ⟨hmin, hmax⟩
    exact ⟨((zpow_le_zpow_iff_right₀ hbase).2 hmin).trans hlow,
      lt_of_lt_of_le hhigh ((zpow_le_zpow_iff_right₀ hbase).2 (by omega))⟩
  · rintro ⟨hmin, hmax⟩
    have hmin' := (zpow_lt_zpow_iff_right₀ hbase).1 (lt_of_le_of_lt hmin hhigh)
    have hmax' := (zpow_lt_zpow_iff_right₀ hbase).1 (lt_of_le_of_lt hlow hmax)
    omega

lemma Numeral.ReadFrom.isDigits (h : numeral.ReadFrom text) :
    IsDigits 10 (numeral.integer ++ numeral.fraction) ∧ numeral.integer ++ numeral.fraction ≠ [] := by
  obtain ⟨t, x, -, ht, -⟩ := h
  generalize numeral.integer = integer at ht ⊢
  generalize numeral.fraction = fraction at ht ⊢
  cases ht with
  | integer h => exact ⟨by simpa using h.isDigits, by simpa using h.ne_nil⟩
  | point h => exact ⟨by simpa using h.isDigits, by simpa using h.ne_nil⟩
  | both h h' => exact ⟨List.forall_mem_append.2 ⟨h.isDigits, h'.isDigits⟩, by simp [h.ne_nil]⟩
  | fraction h => exact ⟨by simpa using h.isDigits, by simpa using h.ne_nil⟩

lemma Converts.spec (h : Converts (numeral.integer ++ numeral.fraction)
      (numeral.integer.length - 1 + numeral.exponent) numeral.scale sign r)
    (hexponent : |numeral.exponent| ≤ maxExponent)
    (hscale : numeral.scale ≤ postgresNumericMaxScale) :
    numeral.Representable ∧ (∃ v, r = .ok v ∧ numeral.StoredAs sign v) ∨
      ¬ numeral.Representable ∧ r = .error .valueOutOfRange := by
  have hvalue := numeral.value_eq
  generalize numeral.integer ++ numeral.fraction = D at h hvalue
  generalize (numeral.integer.length - 1 + numeral.exponent : ℤ) = dweight at h hvalue
  cases h with
  | zero h =>
    have hzero : numeral.value = 0 := by rw [← hvalue, placeValue_eq_zero h]
    exact .inl ⟨⟨hexponent, hscale, fun hne => absurd hzero hne⟩, _, rfl, .zero hzero⟩
  | @value w ds hnormal hne heq hw =>
    rw [hvalue] at heq
    exact .inl ⟨⟨hexponent, hscale, fun _ => heq ▸ (isWeight_iff hne hnormal).1 hw⟩, _, rfl,
      .value hne hnormal hw heq⟩
  | @outOfRange w ds hnormal hne heq hw =>
    rw [hvalue] at heq
    have hpos := placeValue_pos (by decide) hnormal.digits hnormal.last hne w
    refine .inr ⟨fun hrepresentable => hw ?_, rfl⟩
    rw [isWeight_iff hne hnormal, heq]
    exact hrepresentable.weight (heq ▸ hpos.ne')

lemma exists_storedAs_of_parseNumericValue (h : parseNumericValue text sign = some (.ok v)) :
    ∃ numeral : Numeral, numeral.ReadFrom text ∧ numeral.Representable ∧ numeral.StoredAs sign v := by
  obtain ⟨numeral, hread, hexponent, hscale, hconvert⟩ := parseNumericValue_eq_ok h
  obtain ⟨hdigits, hne⟩ := hread.isDigits
  rcases (convertToBase10000_eq_some hdigits hne hscale hconvert).spec hexponent hscale with
    ⟨hrepresentable, _, ⟨⟩, hstored⟩ | ⟨-, ⟨⟩⟩
  exact ⟨numeral, hread, hrepresentable, hstored⟩

lemma ExponentText.two_le_length (h : ExponentText x e) (he : e ≠ 0) : 2 ≤ x.length := by
  cases h with
  | none => exact absurd rfl he
  | plain _ h => cases h; simp
  | plus _ h => simp
  | minus _ h => simp

lemma Numeral.ReadFrom.isSome_convertToBase10000 (h : numeral.ReadFrom text)
    (hlength : text.length < 2 ^ 30) (hexponent : |numeral.exponent| ≤ maxExponent) (sign : Sign) :
    (convertToBase10000 (numeral.integer ++ numeral.fraction)
      (numeral.integer.length - 1 + numeral.exponent) numeral.scale sign).isSome := by
  have hdigits := h.isDigits.1
  obtain ⟨t, x, rfl, ht, hx⟩ := h
  have hle := ht.length_le
  have hguard : maxExponent = 1073741823 := by decide
  obtain ⟨hlow, hhigh⟩ := abs_le.1 hexponent
  rw [List.length_append] at hlength
  refine Etl.isSome_convertToBase10000 hdigits (by rw [List.length_append]; omega) (by omega) ?_ _ sign
  by_cases he : numeral.exponent = 0
  · omega
  · have := hx.two_le_length he
    omega

lemma Numeral.ReadFrom.parseNumericValue_spec (h : numeral.ReadFrom text)
    (hlength : text.length < 2 ^ 30) (sign : Sign) :
    numeral.Representable ∧ (∃ v, parseNumericValue text sign = some (.ok v) ∧
        numeral.StoredAs sign v) ∨
      ¬ numeral.Representable ∧ parseNumericValue text sign = some (.error .valueOutOfRange) := by
  rw [h.parseNumericValue_eq hlength.le]
  split_ifs with hrange
  · refine .inr ⟨fun hrepresentable => ?_, rfl⟩
    rcases hrange with hexponent | hscale
    · exact absurd hrepresentable.exponent (not_le.2 hexponent)
    · exact absurd hrepresentable.scale (not_le.2 hscale)
  · rw [not_or, not_lt, not_lt] at hrange
    obtain ⟨r, hr⟩ := Option.isSome_iff_exists.1
      (h.isSome_convertToBase10000 hlength hrange.1 sign)
    obtain ⟨hdigits, hne⟩ := h.isDigits
    rw [hr]
    rcases (convertToBase10000_eq_some hdigits hne hrange.2 hr).spec hrange.1 hrange.2 with
      ⟨hrepresentable, v, rfl, hstored⟩ | ⟨hnot, rfl⟩
    · exact .inl ⟨hrepresentable, v, rfl, hstored⟩
    · exact .inr ⟨hnot, rfl⟩

end Stored

section Texts

variable {text trimmed body s : List Char} {numeral : Numeral} {sign : Sign} {v : PgNumeric}

inductive SignText : List Char → Sign → Prop
  | none : SignText [] .positive
  | plus : SignText ['+'] .positive
  | minus : SignText ['-'] .negative

def ReadsAs (text : List Char) (sign : Sign) (numeral : Numeral) : Prop :=
  ∃ s body, Text.trim text = s ++ body ∧ SignText s sign ∧ numeral.ReadFrom body

def IsInfinity (body : List Char) : Prop :=
  Text.eqIgnoreAsciiCase body "infinity".toList = true ∨ Text.eqIgnoreAsciiCase body "inf".toList = true

inductive SpecialText : List Char → PgNumeric → Prop
  | naN {body : List Char} (h : Text.eqIgnoreAsciiCase body "nan".toList = true) : SpecialText body .naN
  | positiveInfinity {s body : List Char} (hs : SignText s .positive) (h : IsInfinity body) :
      SpecialText (s ++ body) .positiveInfinity
  | negativeInfinity {s body : List Char} (hs : SignText s .negative) (h : IsInfinity body) :
      SpecialText (s ++ body) .negativeInfinity

def Unsigned (body : List Char) : Prop := body.head? ≠ some '+' ∧ body.head? ≠ some '-'

lemma splitSign_append (hs : SignText s sign) (hbody : Unsigned body) :
    splitSign (s ++ body) = (sign, body, !s.isEmpty) := by
  cases hs with
  | none =>
    rw [List.nil_append, splitSign]
    · rfl
    · rintro rest rfl
      exact hbody.1 rfl
    · rintro rest rfl
      exact hbody.2 rfl
  | plus => rfl
  | minus => rfl

lemma splitSign_spec (trimmed : List Char) :
    ∃ s, trimmed = s ++ (splitSign trimmed).2.1 ∧ SignText s (splitSign trimmed).1 ∧
      (splitSign trimmed).2.2 = !s.isEmpty := by
  rw [splitSign.eq_def]
  split
  · exact ⟨['+'], rfl, .plus, rfl⟩
  · exact ⟨['-'], rfl, .minus, rfl⟩
  · exact ⟨[], rfl, .none, rfl⟩

lemma Numeral.ReadFrom.exists_head (h : numeral.ReadFrom body) :
    ∃ c ∈ body.head?, (c.isDigit || c = '.') = true := by
  obtain ⟨t, x, rfl, ht, -⟩ := h
  have hrun : ∀ {t u : List Char} {ds : List ℤ}, Run t ds →
      ∃ c ∈ (t ++ u).head?, (c.isDigit || c = '.') = true := by
    rintro _ u _ ⟨hc, -⟩
    exact ⟨_, rfl, by simp [hc]⟩
  generalize numeral.integer = integer at ht
  generalize numeral.fraction = fraction at ht
  cases ht with
  | integer h => exact hrun h
  | point h => rw [List.append_assoc]; exact hrun h
  | both h _ => rw [List.append_assoc]; exact hrun h
  | fraction _ => exact ⟨'.', rfl, rfl⟩

lemma fromStr_eq (h : Text.trim text = s ++ body) (hs : SignText s sign) (hbody : Unsigned body)
    (hne : body ≠ []) :
    PgNumeric.fromStr text =
      if (body.head?.any fun c => c.isDigit || c = '.') = true then parseNumericValue body sign
      else some (parseSpecialValue body sign !s.isEmpty) := by
  rw [PgNumeric.fromStr]
  simp only [h, splitSign_append hs hbody]
  rw [if_neg (by simp [hne])]

lemma Numeral.ReadFrom.unsigned (h : numeral.ReadFrom body) : Unsigned body := by
  obtain ⟨c, hhead, hc⟩ := h.exists_head
  constructor <;>
  · intro heq
    obtain rfl := Option.some.inj (heq.symm.trans hhead)
    exact absurd hc (by decide)

lemma Numeral.ReadFrom.fromStr_eq (h : numeral.ReadFrom body)
    (htext : Text.trim text = s ++ body) (hs : SignText s sign) :
    PgNumeric.fromStr text = parseNumericValue body sign := by
  obtain ⟨c, hhead, hc⟩ := h.exists_head
  rw [Etl.fromStr_eq htext hs h.unsigned (by rintro rfl; cases hhead), if_pos]
  rw [show body.head? = some c from hhead]
  exact hc

lemma toLower_eq_self {c : Char} (h : c.toNat ≤ 57) : c.toLower = c := by
  have hupper : ¬ (c.val ≥ 65 ∧ c.val ≤ 90) := by
    rintro ⟨hlow, -⟩
    rw [ge_iff_le, UInt32.le_iff_toNat_le] at hlow
    change 65 ≤ c.toNat at hlow
    omega
  exact dif_neg hupper

lemma special_head {c l : Char} (hc : c.toLower = l) (hl : l = 'n' ∨ l = 'i') :
    (c.isDigit || c = '.') = false ∧ c ≠ '+' ∧ c ≠ '-' := by
  have hnot : ∀ d : Char, d.toNat ≤ 57 → c ≠ d := by
    rintro d hd rfl
    rw [toLower_eq_self hd] at hc
    subst hc
    rcases hl with rfl | rfl <;> exact absurd hd (by decide)
  refine ⟨?_, hnot _ (by decide), hnot _ (by decide)⟩
  rw [Bool.or_eq_false_iff]
  refine ⟨?_, by simpa using hnot '.' (by decide)⟩
  by_contra hdigit
  rw [Bool.not_eq_false] at hdigit
  have hd := digitValue_mem hdigit
  exact hnot c (by rw [digitValue] at hd; omega) rfl

lemma fromStr_eq_parseSpecialValue {l : Char} {ls : List Char}
    (h : Text.eqIgnoreAsciiCase body (l :: ls) = true) (hlower : l.toLower = l) (hl : l = 'n' ∨ l = 'i')
    (htext : Text.trim text = s ++ body) (hs : SignText s sign) :
    PgNumeric.fromStr text = some (parseSpecialValue body sign !s.isEmpty) := by
  rw [Text.eqIgnoreAsciiCase, decide_eq_true_eq] at h
  rcases body with _ | ⟨c, body⟩
  · cases h
  · rw [List.map_cons, List.map_cons, List.cons.injEq, hlower] at h
    obtain ⟨hdigit, hplus, hminus⟩ := special_head h.1 hl
    rw [fromStr_eq htext hs ⟨by simpa using hplus, by simpa using hminus⟩ (by simp), if_neg]
    rw [List.head?_cons, Option.any_some, hdigit]
    exact Bool.false_ne_true

lemma IsInfinity.fromStr_eq (h : IsInfinity body) (htext : Text.trim text = s ++ body)
    (hs : SignText s sign) :
    PgNumeric.fromStr text = some (.ok (match sign with
      | .positive => .positiveInfinity
      | .negative => .negativeInfinity)) := by
  have heq : PgNumeric.fromStr text = some (parseSpecialValue body sign !s.isEmpty) := by
    rcases h with h | h
    · exact fromStr_eq_parseSpecialValue h rfl (.inr rfl) htext hs
    · exact fromStr_eq_parseSpecialValue h rfl (.inr rfl) htext hs
  have hnan : Text.eqIgnoreAsciiCase body "nan".toList ≠ true := by
    intro hnan
    rw [Text.eqIgnoreAsciiCase, decide_eq_true_eq] at hnan
    rw [IsInfinity, Text.eqIgnoreAsciiCase, Text.eqIgnoreAsciiCase, decide_eq_true_eq, decide_eq_true_eq,
      hnan] at h
    exact absurd h (by decide)
  rw [heq, parseSpecialValue.eq_def, Text.trimEnd_of_trim_eq_append htext]
  dsimp only
  rw [if_neg hnan, if_pos (by rw [Bool.or_eq_true]; exact h)]
  cases sign <;> rfl

lemma SpecialText.fromStr_eq (h : SpecialText (Text.trim text) v) :
    PgNumeric.fromStr text = some (.ok v) := by
  generalize htrimmed : Text.trim text = trimmed at h
  cases h with
  | naN h =>
    rw [fromStr_eq_parseSpecialValue h rfl (.inl rfl) htrimmed .none, parseSpecialValue.eq_def,
      Text.trimEnd_of_trim_eq_append (show _ = [] ++ _ from htrimmed)]
    dsimp only
    rw [if_pos h]
    rfl
  | positiveInfinity hs h => exact h.fromStr_eq htrimmed hs
  | negativeInfinity hs h => exact h.fromStr_eq htrimmed hs

lemma specialText_of_parseSpecialValue (hs : SignText s sign) (hbody : Text.trimEnd body = body)
    (h : parseSpecialValue body sign (!s.isEmpty) = .ok v) : SpecialText (s ++ body) v := by
  rw [parseSpecialValue.eq_def, hbody] at h
  dsimp only at h
  split at h
  · rename_i hnan
    split at h
    · cases h
    · rename_i hexplicit
      cases h
      obtain rfl : s = [] := by simpa using hexplicit
      exact .naN hnan
  · split at h
    · rename_i hinfinity
      rw [Bool.or_eq_true] at hinfinity
      cases sign with
      | positive =>
        cases h
        exact .positiveInfinity hs hinfinity
      | negative =>
        cases h
        exact .negativeInfinity hs hinfinity
    · cases h

lemma fromStr_eq_ok (h : PgNumeric.fromStr text = some (.ok v)) :
    (∃ sign numeral, ReadsAs text sign numeral ∧ numeral.Representable ∧ numeral.StoredAs sign v) ∨
      SpecialText (Text.trim text) v := by
  obtain ⟨s, htext, hs, hexplicit⟩ := splitSign_spec (Text.trim text)
  rw [PgNumeric.fromStr] at h
  dsimp only at h
  split at h
  · cases h
  · split at h
    · obtain ⟨numeral, hread, hrepresentable, hstored⟩ := exists_storedAs_of_parseNumericValue h
      exact .inl ⟨_, numeral, ⟨s, _, htext, hs, hread⟩, hrepresentable, hstored⟩
    · rw [hexplicit] at h
      rw [htext]
      exact .inr (specialText_of_parseSpecialValue hs (Text.trimEnd_of_trim_eq_append htext)
        (Option.some.inj h))

lemma isSome_fromStr (hlength : text.length < 2 ^ 30) : (PgNumeric.fromStr text).isSome := by
  obtain ⟨s, htext, hs, -⟩ := splitSign_spec (Text.trim text)
  have hle : (splitSign (Text.trim text)).2.1.length < 2 ^ 30 := by
    have htrim := Text.length_trim_le text
    rw [htext, List.length_append] at htrim
    omega
  rw [PgNumeric.fromStr]
  dsimp only
  split
  · rfl
  · split
    · rcases isSome_parseNumericValue_or hle.le (splitSign (Text.trim text)).1 with
        hsome | ⟨numeral, hread⟩
      · exact hsome
      · rcases hread.parseNumericValue_spec hle (splitSign (Text.trim text)).1 with
          ⟨-, v, heq, -⟩ | ⟨-, heq⟩ <;> rw [heq] <;> rfl
    · rfl

lemma ReadsAs.fromStr_spec (h : ReadsAs text sign numeral) (hlength : text.length < 2 ^ 30) :
    numeral.Representable ∧ (∃ v, PgNumeric.fromStr text = some (.ok v) ∧
        numeral.StoredAs sign v) ∨
      ¬ numeral.Representable ∧ PgNumeric.fromStr text = some (.error .valueOutOfRange) := by
  obtain ⟨s, body, htext, hs, hread⟩ := h
  have htrim := Text.length_trim_le text
  rw [htext, List.length_append] at htrim
  rw [hread.fromStr_eq htext hs]
  exact hread.parseNumericValue_spec (by omega) sign

lemma ReadsAs.unique {sign' : Sign} {numeral' : Numeral} (h : ReadsAs text sign numeral)
    (h' : ReadsAs text sign' numeral') : sign = sign' ∧ numeral = numeral' := by
  obtain ⟨s, body, htext, hs, hread⟩ := h
  obtain ⟨s', body', htext', hs', hread'⟩ := h'
  have hsplit := splitSign_append hs hread.unsigned
  rw [← htext, htext', splitSign_append hs' hread'.unsigned, Prod.mk.injEq, Prod.mk.injEq] at hsplit
  obtain ⟨rfl, rfl, -⟩ := hsplit
  exact ⟨rfl, hread.unique hread'⟩

/-- A text of less than a gigabyte is parsed without overflow. A numeral becomes its stored form if
it has one and is rejected as out of range if not; what is neither a numeral nor one of the special
values is rejected. -/
theorem fromStr_denotes (text : List Char) (hlength : text.length < 2 ^ 30) :
    (∃ r, PgNumeric.fromStr text = some r) ∧
      (∀ sign numeral, ReadsAs text sign numeral → numeral.Representable →
        ∃ v, PgNumeric.fromStr text = some (.ok v) ∧ numeral.StoredAs sign v) ∧
      (∀ sign numeral, ReadsAs text sign numeral → ¬ numeral.Representable →
        PgNumeric.fromStr text = some (.error .valueOutOfRange)) ∧
      (∀ v, SpecialText (Text.trim text) v → PgNumeric.fromStr text = some (.ok v)) ∧
      ((∀ sign numeral, ¬ ReadsAs text sign numeral) → (∀ v, ¬ SpecialText (Text.trim text) v) →
        ∃ e, PgNumeric.fromStr text = some (.error e)) := by
  obtain ⟨r, hr⟩ := Option.isSome_iff_exists.1 (isSome_fromStr hlength)
  refine ⟨⟨r, hr⟩, fun sign numeral hreads hrepresentable => ?_,
    fun sign numeral hreads hnot => ?_, fun v h => h.fromStr_eq, fun hnumeral hspecial => ?_⟩
  · rcases hreads.fromStr_spec hlength with ⟨-, h⟩ | ⟨hnot, -⟩
    · exact h
    · exact absurd hrepresentable hnot
  · rcases hreads.fromStr_spec hlength with ⟨hrepresentable, -⟩ | ⟨-, h⟩
    · exact absurd hrepresentable hnot
    · exact h
  · cases r with
    | error e => exact ⟨e, hr⟩
    | ok v =>
      rcases fromStr_eq_ok hr with ⟨sign, numeral, hreads, -⟩ | h
      · exact absurd hreads (hnumeral sign numeral)
      · exact absurd h (hspecial v)

theorem fromStr_denotes_scientific :
    "-12.5e1".toList.length < 2 ^ 30 ∧ ∃ v, PgNumeric.fromStr "-12.5e1".toList = some (.ok v) ∧
      Numeral.StoredAs ⟨[1, 2], [5], 1⟩ .negative v := by
  have hlength : "-12.5e1".toList.length < 2 ^ 30 := by decide
  have hreads : ReadsAs "-12.5e1".toList .negative ⟨[1, 2], [5], 1⟩ :=
    ⟨['-'], "12.5e1".toList, by decide, .minus, "12.5".toList, "e1".toList, rfl,
      .both (.mk rfl (.digit rfl .nil)) (.mk rfl .nil), .plain (.inl rfl) (.mk rfl .nil)⟩
  have hvalue : Numeral.value ⟨[1, 2], [5], 1⟩ = 125 := by
    simp [Numeral.value, placeValue_cons]
    norm_num
  have hbase : (1 : ℚ) ≤ 10000 := by norm_num
  refine ⟨hlength, (fromStr_denotes _ hlength).2.1 _ _ hreads ⟨by decide, by decide, fun _ => ?_⟩⟩
  rw [hvalue]
  constructor
  · exact (zpow_le_zpow_right₀ hbase (by decide : postgresNumericMinWeight ≤ 0)).trans (by norm_num)
  · refine lt_of_lt_of_le (by norm_num : (125 : ℚ) < 10000 ^ (1 : ℤ)) ?_
    exact zpow_le_zpow_right₀ hbase (by decide)

section Overflow

variable {n : ℕ}

lemma moreDigits_replicate_zero (n : ℕ) :
    MoreDigits (List.replicate n '0') (List.replicate n 0) := by
  induction n with
  | zero => exact .nil
  | succ n ih => exact .digit rfl ih

lemma readFrom_replicate_zero (n : ℕ) :
    Numeral.ReadFrom ⟨List.replicate (n + 1) 0, [], 0⟩ (List.replicate (n + 1) '0') :=
  ⟨_, [], (List.append_nil _).symm, .integer (.mk rfl (moreDigits_replicate_zero n)), .none⟩

lemma trim_replicate_zero (n : ℕ) :
    Text.trim (List.replicate n '0') = [] ++ List.replicate n '0' := by
  refine Text.trim_eq_self fun c hc => ?_
  rw [List.eq_of_mem_replicate hc]
  rfl

lemma representable_replicate_zero (n : ℕ) :
    Numeral.Representable ⟨List.replicate n 0, [], 0⟩ := by
  refine ⟨show |(0 : ℤ)| ≤ maxExponent by decide, show 0 ≤ postgresNumericMaxScale by decide,
    fun hne => absurd ?_ hne⟩
  rw [Numeral.value, placeValue_eq_zero fun d hd => List.eq_of_mem_replicate hd]
  simp

lemma parseNumericValue_replicate_zero (hn : n = 2 ^ 31) (sign : Sign) :
    parseNumericValue (List.replicate (n + 1) '0') sign = none := by
  have hroom : Mantissa.Room ⟨[], false, -1, 0⟩ ((List.replicate n (0 : ℤ)).length + 0) := by
    rw [List.length_replicate]
    exact ⟨by simp, by simp, by simp; omega, by simp; omega⟩
  obtain ⟨hparse, -⟩ := (moreDigits_replicate_zero n).parseMantissa_append (u := ['0']) hroom
  have hcounter : i32? n = none := if_neg (by omega)
  have hpush : ((Mantissa.mk [] false (-1) 0).extend (List.replicate n 0)).push
      (digitValue '0') = none := by
    simp [Mantissa.extend, Mantissa.push, hcounter]
  have hstart : mantissaStart (List.replicate (n + 1) '0') =
      (⟨[], false, -1, 0⟩, List.replicate n '0' ++ ['0']) := by
    rw [← List.replicate_succ']
    rfl
  have hdigit : startsWithDigit (List.replicate n '0' ++ ['0']) = true := by
    rw [← List.replicate_succ']
    rfl
  rw [parseNumericValue, hstart]
  dsimp only
  rw [hdigit, hparse, parseMantissa_digit rfl, hpush]
  rfl

lemma fromStr_zeros (hn : n = 2 ^ 31) :
    ReadsAs (List.replicate (n + 1) '0') .positive ⟨List.replicate (n + 1) 0, [], 0⟩ ∧
      Numeral.Representable ⟨List.replicate (n + 1) 0, [], 0⟩ ∧
      PgNumeric.fromStr (List.replicate (n + 1) '0') = none := by
  have hread := readFrom_replicate_zero n
  have htrim := trim_replicate_zero (n + 1)
  refine ⟨⟨[], _, htrim, .none, hread⟩, representable_replicate_zero (n + 1), ?_⟩
  rw [hread.fromStr_eq htrim .none, parseNumericValue_replicate_zero hn]

theorem fromStr_overflows :
    ReadsAs (List.replicate (2 ^ 31 + 1) '0') .positive ⟨List.replicate (2 ^ 31 + 1) 0, [], 0⟩ ∧
      Numeral.Representable ⟨List.replicate (2 ^ 31 + 1) 0, [], 0⟩ ∧
      PgNumeric.fromStr (List.replicate (2 ^ 31 + 1) '0') = none :=
  fromStr_zeros rfl

end Overflow

end Texts

end Etl
