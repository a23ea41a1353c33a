import Mathlib
import Etl.Lib.Text

/-!
# The order of numerals of one length

They compare as texts like the numbers they stand for (`Text.lt_iff_value_lt`), if the characters of
the digits are ordered like the digits.
-/

namespace Text

section Value

variable {b : Nat} {cs : List Char}

def digit (b : Nat) (c : Char) : Nat := (digitVal? b c).getD 0

def value (b : Nat) : List Char → Nat
  | [] => 0
  | c :: cs => digit b c * b ^ cs.length + value b cs

lemma digitVal?_lt {c : Char} {d : Nat} (h : digitVal? b c = some d) : d < b := by
  grind [digitVal?]

lemma digit_lt (hb : 0 < b) (c : Char) : digit b c < b := by
  unfold digit
  cases h : digitVal? b c with
  | none => exact hb
  | some d => exact digitVal?_lt h

lemma value_lt (hb : 0 < b) (cs : List Char) : value b cs < b ^ cs.length := by
  induction cs with
  | nil => simp [value]
  | cons c cs ih =>
    calc digit b c * b ^ cs.length + value b cs
        < digit b c * b ^ cs.length + b ^ cs.length := by omega
      _ = (digit b c + 1) * b ^ cs.length := by ring
      _ ≤ b * b ^ cs.length := Nat.mul_le_mul_right _ (digit_lt hb c)
      _ = b ^ (c :: cs).length := by rw [List.length_cons, pow_succ']

lemma parse?_eq_value (hne : cs ≠ []) (h : ∀ c ∈ cs, (digitVal? b c).isSome) :
    parse? b cs = some (value b cs) := by
  have hfold : ∀ (acc : Nat) (cs : List Char), (∀ c ∈ cs, (digitVal? b c).isSome) →
      cs.foldlM (fun acc c => (digitVal? b c).map (fun d => acc * b + d)) acc =
        some (acc * b ^ cs.length + value b cs) := by
    intro acc cs h
    induction cs generalizing acc with
    | nil => simp [value]
    | cons c cs ih =>
      obtain ⟨d, hd⟩ := Option.isSome_iff_exists.1 (h c List.mem_cons_self)
      have hrest := ih (acc * b + d) fun c' hc' => h c' (List.mem_cons_of_mem _ hc')
      rw [List.foldlM_cons, hd, Option.map_some, Option.bind_eq_bind, Option.bind_some, hrest]
      simp only [value, digit, hd, Option.getD_some, List.length_cons, pow_succ']
      ring_nf
  simpa [parse?, hne] using hfold 0 cs h

lemma lt_iff_value_lt {P : Char → Prop} (hb : 0 < b)
    (hP : ∀ c d, P c → P d → (c < d ↔ digit b c < digit b d)) {xs ys : List Char}
    (hlen : xs.length = ys.length) (hxs : ∀ c ∈ xs, P c) (hys : ∀ c ∈ ys, P c) :
    xs < ys ↔ value b xs < value b ys := by
  induction xs generalizing ys with
  | nil => simp [List.length_eq_zero_iff.1 hlen.symm]
  | cons c xs ih =>
    obtain ⟨d, ys, rfl⟩ := List.exists_cons_of_length_eq_add_one hlen.symm
    have hlen' : xs.length = ys.length := by simpa using hlen
    have htail := ih hlen' (fun c' h => hxs c' (List.mem_cons_of_mem _ h))
      (fun d' h => hys d' (List.mem_cons_of_mem _ h))
    have hcd := hP c d (hxs c List.mem_cons_self) (hys d List.mem_cons_self)
    have hdc := hP d c (hys d List.mem_cons_self) (hxs c List.mem_cons_self)
    have hx := value_lt hb xs
    have hy := value_lt hb ys
    rw [List.cons_lt_cons_iff, htail]
    simp only [value, hlen'] at hx ⊢
    rcases lt_trichotomy c d with h | h | h
    · have hdig := hcd.1 h
      have hstep : (digit b c + 1) * b ^ ys.length ≤ digit b d * b ^ ys.length :=
        Nat.mul_le_mul_right _ hdig
      simp only [h, true_or, true_iff]
      nlinarith
    · subst h
      simp
    · have hdig := hdc.1 h
      have hstep : (digit b d + 1) * b ^ ys.length ≤ digit b c * b ^ ys.length :=
        Nat.mul_le_mul_right _ hdig
      simp only [h.not_gt, h.ne', false_and, or_self, false_iff]
      nlinarith

lemma eq_of_value_eq {P : Char → Prop} (hb : 0 < b)
    (hP : ∀ c d, P c → P d → (c < d ↔ digit b c < digit b d)) {xs ys : List Char}
    (hlen : xs.length = ys.length) (hxs : ∀ c ∈ xs, P c) (hys : ∀ c ∈ ys, P c)
    (h : value b xs = value b ys) : xs = ys := by
  have hlt := lt_iff_value_lt hb hP hlen hxs hys
  have hgt := lt_iff_value_lt hb hP hlen.symm hys hxs
  exact le_antisymm (not_lt.1 fun h' => by have := hgt.1 h'; omega)
    (not_lt.1 fun h' => by have := hlt.1 h'; omega)

end Value

lemma append_lt_append_iff {xs xs' ys ys' : List Char} (hlen : xs.length = xs'.length) :
    xs ++ ys < xs' ++ ys' ↔ xs < xs' ∨ xs = xs' ∧ ys < ys' := by
  induction xs generalizing xs' with
  | nil => simp [List.length_eq_zero_iff.1 hlen.symm]
  | cons c xs ih =>
    obtain ⟨d, xs', rfl⟩ := List.exists_cons_of_length_eq_add_one hlen.symm
    have htail := ih (by simpa using hlen)
    rw [List.cons_append, List.cons_append, List.cons_lt_cons_iff, List.cons_lt_cons_iff, htail]
    grind
/-! ## Lower-case hexadecimal numerals -/

def IsLowerHex (c : Char) : Prop := (digitVal? 16 c).isSome ∧ c.isUpper = false

lemma isLowerHex_iff {c : Char} :
    IsLowerHex c ↔ 48 ≤ c.toNat ∧ c.toNat < 58 ∨ 97 ≤ c.toNat ∧ c.toNat < 103 := by
  have hupper : c.isUpper = true ↔ 65 ≤ c.toNat ∧ c.toNat ≤ 90 := by
    simp [Char.isUpper, UInt32.le_iff_toNat_le]
  have hlower : c.isUpper = false ↔ ¬(65 ≤ c.toNat ∧ c.toNat ≤ 90) := by
    rw [← hupper, Bool.not_eq_true]
  unfold IsLowerHex
  rw [hlower]
  grind [digitVal?]

lemma lt_iff_digit_lt (c d : Char) (hc : IsLowerHex c) (hd : IsLowerHex d) :
    c < d ↔ digit 16 c < digit 16 d := by
  have hlt : c < d ↔ c.toNat < d.toNat := Iff.rfl
  rw [isLowerHex_iff] at hc hd
  grind [digit, digitVal?]

lemma isLowerHex_lowerDigitChar : ∀ d < 16, IsLowerHex (lowerDigitChar d) := by
  unfold IsLowerHex
  decide

lemma isLowerHex_of_mem_lowerHex {width n : Nat} {c : Char} (h : c ∈ lowerHex width n) :
    IsLowerHex c := by
  rw [lowerHex, List.leftpad, List.mem_append, List.mem_replicate, List.mem_map] at h
  obtain ⟨-, rfl⟩ | ⟨d, hd, rfl⟩ := h
  · exact isLowerHex_lowerDigitChar 0 (by norm_num)
  · exact isLowerHex_lowerDigitChar d (Nat.digits_lt_base (by norm_num) (List.mem_reverse.1 hd))

lemma length_lowerHex {width n : Nat} (h : n < 16 ^ width) :
    (lowerHex width n).length = width := by
  have hdigits : (Nat.digits 16 n).length ≤ width :=
    (Nat.digits_length_le_iff (by norm_num) n).2 h
  simp [lowerHex, hdigits]

lemma value_lowerHex {width : Nat} (hwidth : 0 < width) (n : Nat) :
    value 16 (lowerHex width n) = n := by
  have hne : lowerHex width n ≠ [] := by
    intro h
    have hlen := congrArg List.length h
    rw [lowerHex, List.length_leftpad, List.length_nil] at hlen
    omega
  have hparse := parse?_lowerHex hwidth n
  rw [parse?_eq_value hne fun c hc => (isLowerHex_of_mem_lowerHex hc).1] at hparse
  exact Option.some.inj hparse

lemma lowerHex_value {cs : List Char} (hne : cs ≠ []) (h : ∀ c ∈ cs, IsLowerHex c) :
    lowerHex cs.length (value 16 cs) = cs :=
  eq_of_value_eq (by norm_num) lt_iff_digit_lt (length_lowerHex (value_lt (by norm_num) cs))
    (fun _ => isLowerHex_of_mem_lowerHex) h (value_lowerHex (List.length_pos_iff.2 hne) _)

/-! ## Signed numerals -/

def renderInt (n : Int) : List Char :=
  (if n < 0 then ['-'] else []) ++ render 10 n.natAbs

def parseInt? : List Char → Option Int
  | '-' :: cs => (parse? 10 cs).map fun n : Nat => -(n : Int)
  | cs => (parse? 10 cs).map fun n : Nat => (n : Int)

lemma head?_render_ne {c : Char} (hc : digitVal? 10 c = none) (n : Nat) :
    (render 10 n).head? ≠ some c := by
  intro h
  have hdigit := digitVal?_of_mem_render (by norm_num) (by norm_num) (List.mem_of_mem_head? h)
  simp [hc] at hdigit

lemma parseInt?_of_head?_ne {cs : List Char} (h : cs.head? ≠ some '-') :
    parseInt? cs = (parse? 10 cs).map fun n : Nat => (n : Int) := by
  fun_cases parseInt? cs with
  | case1 => simp at h
  | case2 => rfl

lemma parseInt?_renderInt (n : Int) : parseInt? (renderInt n) = some n := by
  have hparse := parse?_render (by norm_num) (by norm_num) n.natAbs (b := 10)
  by_cases hn : n < 0
  · simp only [renderInt, hn, if_true, List.cons_append, List.nil_append, parseInt?, hparse,
      Option.map_some, Option.some.injEq]
    omega
  · rw [renderInt, if_neg hn, List.nil_append,
      parseInt?_of_head?_ne (head?_render_ne (by decide) n.natAbs), hparse, Option.map_some,
      Option.some.injEq]
    omega

end Text
