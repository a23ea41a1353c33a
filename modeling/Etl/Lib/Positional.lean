import Mathlib

/-!
# Positional numbers

Normal forms, without a zero at either end, are unique (`eq_of_placeValue_eq_of_normal`). Digits can
be grouped (`placeValue_groupValue`) and written out again (`placeValue_flatMap`).
-/

namespace Positional

def placeValue (b : ℕ) (w : ℤ) (ds : List ℤ) : ℚ :=
  ∑ i ∈ Finset.range ds.length, (ds.getD i 0 : ℚ) * (b : ℚ) ^ (w - i)

def IsDigits (b : ℕ) (ds : List ℤ) : Prop := ∀ d ∈ ds, 0 ≤ d ∧ d < b

structure Normal (b : ℕ) (ds : List ℤ) : Prop where
  digits : IsDigits b ds
  head : ds.head? ≠ some 0
  last : ds.getLast? ≠ some 0

variable {b : ℕ} {w : ℤ} {d : ℤ} {ds xs ys : List ℤ}

@[simp] lemma placeValue_nil (b : ℕ) (w : ℤ) : placeValue b w [] = 0 := rfl

lemma placeValue_cons (b : ℕ) (w d : ℤ) (ds : List ℤ) :
    placeValue b w (d :: ds) = d * (b : ℚ) ^ w + placeValue b (w - 1) ds := by
  rw [placeValue, List.length_cons, Finset.sum_range_succ', add_comm]
  simp only [List.getD_cons_zero, Nat.cast_zero, sub_zero, List.getD_cons_succ, placeValue]
  refine congrArg _ (Finset.sum_congr rfl fun i _ => ?_)
  rw [show w - ((i + 1 : ℕ) : ℤ) = w - 1 - i by push_cast; ring]

lemma placeValue_append (b : ℕ) (w : ℤ) (xs ys : List ℤ) :
    placeValue b w (xs ++ ys) = placeValue b w xs + placeValue b (w - xs.length) ys := by
  induction xs generalizing w with
  | nil => simp
  | cons x xs ih =>
    rw [List.cons_append, placeValue_cons, ih, placeValue_cons, List.length_cons,
      show w - 1 - (xs.length : ℤ) = w - ((xs.length + 1 : ℕ) : ℤ) by push_cast; ring]
    ring

lemma placeValue_eq_zero (h : ∀ d ∈ ds, d = 0) (b : ℕ) (w : ℤ) : placeValue b w ds = 0 := by
  induction ds generalizing w with
  | nil => rfl
  | cons d ds ih =>
    rw [placeValue_cons, h d List.mem_cons_self, ih fun d hd => h d (List.mem_cons_of_mem _ hd)]
    simp

lemma placeValue_add (hb : b ≠ 0) (w k : ℤ) (ds : List ℤ) :
    placeValue b (w + k) ds = placeValue b w ds * (b : ℚ) ^ k := by
  have hb' : (b : ℚ) ≠ 0 := by exact_mod_cast hb
  induction ds generalizing w with
  | nil => simp
  | cons d ds ih =>
    rw [placeValue_cons, placeValue_cons, show w + k - 1 = w - 1 + k by ring, ih, zpow_add₀ hb']
    ring

lemma IsDigits.of_cons (h : IsDigits b (d :: ds)) : IsDigits b ds := fun x hx =>
  h x (List.mem_cons_of_mem _ hx)

lemma IsDigits.getD_mem (h : IsDigits b ds) (hb : 0 < b) (i : ℕ) :
    0 ≤ ds.getD i 0 ∧ ds.getD i 0 < b := by
  by_cases hi : i < ds.length
  · rw [List.getD_eq_getElem _ _ hi]
    exact h _ (List.getElem_mem hi)
  · rw [List.getD_eq_default _ _ (not_lt.1 hi)]
    exact ⟨le_rfl, by exact_mod_cast hb⟩

lemma placeValue_nonneg (h : IsDigits b ds) (w : ℤ) : 0 ≤ placeValue b w ds := by
  induction ds generalizing w with
  | nil => simp
  | cons d ds ih =>
    have hd : (0 : ℚ) ≤ d := by exact_mod_cast (h d List.mem_cons_self).1
    rw [placeValue_cons]
    have hrest := ih h.of_cons (w - 1)
    positivity

lemma placeValue_lt (hb : 0 < b) (h : IsDigits b ds) (w : ℤ) :
    placeValue b w ds < (b : ℚ) ^ (w + 1) := by
  have hb' : (0 : ℚ) < b := by exact_mod_cast hb
  induction ds generalizing w with
  | nil => simpa using zpow_pos hb' _
  | cons d ds ih =>
    have hd : (d : ℚ) + 1 ≤ b := by exact_mod_cast (h d List.mem_cons_self).2
    have hrest := ih h.of_cons (w - 1)
    rw [sub_add_cancel] at hrest
    have hpow : (0 : ℚ) < (b : ℚ) ^ w := zpow_pos hb' w
    rw [placeValue_cons, zpow_add_one₀ hb'.ne']
    nlinarith

lemma placeValue_pos (hb : 0 < b) (h : IsDigits b ds) (hlast : ds.getLast? ≠ some 0)
    (hne : ds ≠ []) (w : ℤ) : 0 < placeValue b w ds := by
  have hb' : (0 : ℚ) < b := by exact_mod_cast hb
  induction ds generalizing w with
  | nil => exact absurd rfl hne
  | cons d ds ih =>
    rw [placeValue_cons]
    have hpow : (0 : ℚ) < (b : ℚ) ^ w := zpow_pos hb' w
    have hd : (0 : ℚ) ≤ d := by exact_mod_cast (h d List.mem_cons_self).1
    rcases ds with _ | ⟨e, ds⟩
    · have hd' : d ≠ 0 := by simpa using hlast
      have hpos : (0 : ℚ) < d := lt_of_le_of_ne hd (by exact_mod_cast hd'.symm)
      rw [placeValue_nil, add_zero]
      positivity
    · have hrest := ih h.of_cons (by rwa [List.getLast?_cons_cons] at hlast) (by simp) (w - 1)
      positivity

lemma getLast?_of_cons (h : (d :: ds).getLast? ≠ some 0) : ds.getLast? ≠ some 0 := by
  rcases ds with _ | ⟨e, ds⟩
  · simp
  · rwa [List.getLast?_cons_cons] at h

lemma eq_of_placeValue_eq (hb : 0 < b) (hx : IsDigits b xs) (hy : IsDigits b ys)
    (hxlast : xs.getLast? ≠ some 0) (hylast : ys.getLast? ≠ some 0)
    (h : placeValue b w xs = placeValue b w ys) : xs = ys := by
  have hb' : (0 : ℚ) < b := by exact_mod_cast hb
  induction xs generalizing w ys with
  | nil =>
    by_contra hne
    have hpos := placeValue_pos hb hy hylast (Ne.symm hne) w
    rw [← h] at hpos
    exact absurd hpos (lt_irrefl _)
  | cons x xs ih =>
    rcases ys with _ | ⟨y, ys⟩
    · have hpos := placeValue_pos hb hx hxlast (by simp) w
      rw [h] at hpos
      exact absurd hpos (lt_irrefl _)
    · rw [placeValue_cons, placeValue_cons] at h
      have hpow : (0 : ℚ) < (b : ℚ) ^ w := zpow_pos hb' w
      have hxs := placeValue_lt hb hx.of_cons (w - 1)
      have hys := placeValue_lt hb hy.of_cons (w - 1)
      rw [sub_add_cancel] at hxs hys
      have hxs' := placeValue_nonneg hx.of_cons (w - 1)
      have hys' := placeValue_nonneg hy.of_cons (w - 1)
      -- the rest is less than one unit of the first digit, so the first digits agree
      have hle : ∀ {p q : ℤ} {s t : ℚ}, 0 ≤ t → s < (b : ℚ) ^ w →
          p * (b : ℚ) ^ w + s = q * (b : ℚ) ^ w + t → q ≤ p := by
        intro p q s t ht hs heq
        by_contra hlt
        have hlt' : (p : ℚ) + 1 ≤ q := by exact_mod_cast not_le.1 hlt
        nlinarith
      have hhead : x = y := le_antisymm (hle hxs' hys h.symm) (hle hys' hxs h)
      subst hhead
      rw [ih hx.of_cons hy.of_cons (getLast?_of_cons hxlast) (getLast?_of_cons hylast)
        (add_left_cancel h)]

lemma zpow_le_placeValue (hb : 0 < b) (h : IsDigits b (d :: ds)) (hd : d ≠ 0) (w : ℤ) :
    (b : ℚ) ^ w ≤ placeValue b w (d :: ds) := by
  have hb' : (0 : ℚ) < b := by exact_mod_cast hb
  have hpos : (1 : ℚ) ≤ d := by
    have hnonneg := (h d List.mem_cons_self).1
    exact_mod_cast (show 1 ≤ d by omega)
  have hrest := placeValue_nonneg h.of_cons (w - 1)
  rw [placeValue_cons]
  have hpow : (0 : ℚ) < (b : ℚ) ^ w := zpow_pos hb' w
  nlinarith

lemma eq_of_placeValue_eq_of_normal (hb : 1 < b) {w' : ℤ} (hx : Normal b xs) (hy : Normal b ys)
    (hne : xs ≠ []) (h : placeValue b w xs = placeValue b w' ys) : w = w' ∧ xs = ys := by
  have hb0 : 0 < b := by omega
  have hb' : (1 : ℚ) < b := by exact_mod_cast hb
  have hpos := placeValue_pos hb0 hx.digits hx.last hne w
  have hne' : ys ≠ [] := by
    rintro rfl
    rw [h, placeValue_nil] at hpos
    exact absurd hpos (lt_irrefl _)
  obtain ⟨x, xs, rfl⟩ := List.exists_cons_of_ne_nil hne
  obtain ⟨y, ys, rfl⟩ := List.exists_cons_of_ne_nil hne'
  have hx0 : x ≠ 0 := by simpa using hx.head
  have hy0 : y ≠ 0 := by simpa using hy.head
  have hxle := zpow_le_placeValue hb0 hx.digits hx0 w
  have hyle := zpow_le_placeValue hb0 hy.digits hy0 w'
  have hxlt := placeValue_lt hb0 hx.digits w
  have hylt := placeValue_lt hb0 hy.digits w'
  have hw : w = w' := by
    have h₁ : w < w' + 1 := (zpow_lt_zpow_iff_right₀ hb').1 (by linarith)
    have h₂ : w' < w + 1 := (zpow_lt_zpow_iff_right₀ hb').1 (by linarith)
    omega
  subst hw
  exact ⟨rfl, eq_of_placeValue_eq hb0 hx.digits hy.digits hx.last hy.last h⟩

lemma placeValue_flatMap {k : ℕ} (hb : b ≠ 0) {f : ℤ → List ℤ}
    (hlength : ∀ d ∈ ds, (f d).length = k) (hvalue : ∀ d ∈ ds, placeValue b (k - 1) (f d) = d)
    (w : ℤ) : placeValue b (k * w + k - 1) (ds.flatMap f) = placeValue (b ^ k) w ds := by
  have hb' : (b : ℚ) ≠ 0 := by exact_mod_cast hb
  induction ds generalizing w with
  | nil => rfl
  | cons d ds ih =>
    have hhead := hvalue d List.mem_cons_self
    rw [List.flatMap_cons, placeValue_append, hlength d List.mem_cons_self, placeValue_cons,
      show (k * w + k - 1 : ℤ) = k - 1 + k * w by ring, placeValue_add hb, hhead,
      show (k - 1 + k * w - k : ℤ) = k * (w - 1) + k - 1 by ring,
      ih (fun d hd => hlength d (List.mem_cons_of_mem _ hd))
        (fun d hd => hvalue d (List.mem_cons_of_mem _ hd)) (w - 1), zpow_mul]
    push_cast
    rfl

lemma exists_placeValue_eq_intCast (b : ℕ) (ds : List ℤ) :
    ∃ k : ℤ, placeValue b (ds.length - 1) ds = k := by
  induction ds with
  | nil => exact ⟨0, by simp⟩
  | cons d ds ih =>
    obtain ⟨k, hk⟩ := ih
    refine ⟨d * b ^ ds.length + k, ?_⟩
    rw [placeValue_cons, List.length_cons, show ((ds.length + 1 : ℕ) : ℤ) - 1 = ds.length by simp, hk,
      zpow_natCast]
    push_cast
    rfl

lemma placeValue_take_eq {n s : ℕ} (hb : 0 < b) (h : IsDigits b ds) (hn : (n : ℤ) = w + 1 + s)
    (hle : n ≤ ds.length) (hint : ∃ k : ℤ, placeValue b w ds * (b : ℚ) ^ s = k) :
    placeValue b w (ds.take n) = placeValue b w ds := by
  have hb' : (0 : ℚ) < b := by exact_mod_cast hb
  have hpow : (0 : ℚ) < (b : ℚ) ^ s := pow_pos hb' s
  obtain ⟨k, hk⟩ := hint
  obtain ⟨j, hj⟩ := exists_placeValue_eq_intCast b (ds.take n)
  have hsplit := placeValue_append b w (ds.take n) (ds.drop n)
  rw [List.take_append_drop, List.length_take_of_le hle, hn, show w - (w + 1 + s) = -1 - s by ring]
    at hsplit
  rw [List.length_take_of_le hle, hn, show w + 1 + s - 1 = w + s by ring, placeValue_add hb.ne',
    zpow_natCast] at hj
  -- what is left out is an integral part of the place, and less than it
  have hrest : IsDigits b (ds.drop n) := fun d hd => h d (List.mem_of_mem_drop hd)
  have hnonneg := placeValue_nonneg hrest (-1 - s)
  have hlt := placeValue_lt hb hrest (-1 - s)
  rw [show (-1 - s + 1 : ℤ) = -s by ring, zpow_neg, zpow_natCast, inv_eq_one_div,
    lt_div_iff₀ hpow] at hlt
  have hdiff : placeValue b (-1 - s) (ds.drop n) * (b : ℚ) ^ s = ((k - j : ℤ) : ℚ) := by
    push_cast
    rw [← hk, ← hj, hsplit]
    ring
  rw [hdiff] at hlt
  have hzero : k - j = 0 := by
    have hlow : (0 : ℚ) ≤ ((k - j : ℤ) : ℚ) := hdiff ▸ mul_nonneg hnonneg hpow.le
    have h₁ : 0 ≤ k - j := by exact_mod_cast hlow
    have h₂ : k - j < 1 := by exact_mod_cast hlt
    omega
  rw [hzero, Int.cast_zero, mul_eq_zero, or_iff_left hpow.ne'] at hdiff
  rw [hsplit, hdiff, add_zero]

/-! ### Groups of digits -/

lemma placeValue_eq_sum {n : ℕ} (h : ∀ i, n ≤ i → ds.getD i 0 = 0) (b : ℕ) (w : ℤ) :
    placeValue b w ds = ∑ i ∈ Finset.range n, (ds.getD i 0 : ℚ) * (b : ℚ) ^ (w - i) := by
  have hvanish : ∀ i, i ∉ Finset.range n ∨ i ∉ Finset.range ds.length →
      (ds.getD i 0 : ℚ) * (b : ℚ) ^ (w - i) = 0 := by
    rintro i (hi | hi)
    · rw [h i (by simpa using hi), Int.cast_zero, zero_mul]
    · rw [List.getD_eq_default ds 0 (by simpa using hi), Int.cast_zero, zero_mul]
  rw [placeValue, Finset.sum_subset (Finset.range_mono (le_max_left ds.length n))
      fun i _ hi => hvanish i (.inr hi),
    ← Finset.sum_subset (Finset.range_mono (le_max_right ds.length n))
      fun i _ hi => hvanish i (.inl hi)]

lemma placeValue_map_range (b : ℕ) (w : ℤ) (f : ℕ → ℤ) (n : ℕ) :
    placeValue b w ((List.range n).map f) =
      ∑ i ∈ Finset.range n, (f i : ℚ) * (b : ℚ) ^ (w - i) := by
  rw [placeValue, List.length_map, List.length_range]
  refine Finset.sum_congr rfl fun i hi => ?_
  rw [List.getD_eq_getElem _ _ (by simpa using hi), List.getElem_map, List.getElem_range]

lemma placeValue_map_getD (b : ℕ) (w : ℤ) (ds : List ℤ) (n : ℕ) :
    placeValue b w ((List.range n).map (fun i => ds.getD i 0) ++ ds.drop n) =
      placeValue b w ds := by
  rw [placeValue_append, placeValue_map_range, List.length_map, List.length_range,
    placeValue_eq_sum (n := ds.length) (fun i hi => List.getD_eq_default _ _ (by simp; omega)),
    placeValue_eq_sum (n := n + ds.length) (fun i hi => List.getD_eq_default _ _ (by omega)) b w,
    Finset.sum_range_add]
  refine congrArg _ (Finset.sum_congr rfl fun i _ => ?_)
  rw [List.getD_eq_getElem?_getD, List.getD_eq_getElem?_getD, List.getElem?_drop,
    show w - n - i = w - ((n + i : ℕ) : ℤ) by push_cast; ring]

def groupValue (b k : ℕ) (f : ℕ → ℤ) (g : ℕ) : ℤ :=
  ∑ i ∈ Finset.range k, f (k * g + i) * (b : ℤ) ^ (k - 1 - i)

lemma placeValue_groupValue {k n : ℕ} (hb : b ≠ 0) (h : ∀ i, k * n ≤ i → ds.getD i 0 = 0)
    (w : ℤ) :
    placeValue b (k * w + k - 1) ds =
      placeValue (b ^ k) w ((List.range n).map (groupValue b k fun i => ds.getD i 0)) := by
  have hb' : (b : ℚ) ≠ 0 := by exact_mod_cast hb
  rw [placeValue_eq_sum h, placeValue_map_range]
  clear h
  induction n with
  | zero => rfl
  | succ n ih =>
    rw [Nat.mul_succ, Finset.sum_range_add, ih, Finset.sum_range_succ, groupValue]
    push_cast
    rw [Finset.sum_mul]
    refine congrArg _ (Finset.sum_congr rfl fun i hi => ?_)
    have hi' : i < k := by simpa using hi
    rw [mul_assoc, ← zpow_natCast, ← zpow_natCast, ← zpow_mul, ← zpow_add₀ hb']
    congr 2
    push_cast [Nat.sub_sub, Nat.cast_sub (show 1 + i ≤ k by omega)]
    ring

end Positional
