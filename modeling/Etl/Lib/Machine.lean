import Mathlib

/-!
# Machine integers

`none` stands for a result that does not fit; a saturating sum stays at the largest value. A word
whose sign bit is flipped is ordered as a signed integer like the word as an unsigned one.
-/

namespace Machine

def checked (low high n : ℤ) : Option ℤ := if low ≤ n ∧ n ≤ high then some n else none

def i16? : ℤ → Option ℤ := checked (-2 ^ 15) (2 ^ 15 - 1)

def i32? : ℤ → Option ℤ := checked (-2 ^ 31) (2 ^ 31 - 1)

def i64? : ℤ → Option ℤ := checked (-2 ^ 63) (2 ^ 63 - 1)

def u32? : ℤ → Option ℤ := checked 0 (2 ^ 32 - 1)

lemma checked_eq_some_iff {low high n k : ℤ} :
    checked low high n = some k ↔ k = n ∧ low ≤ n ∧ n ≤ high := by
  rw [checked]
  split_ifs with h
  · simp [h, eq_comm]
  · simp [h]

lemma i16?_eq {n : ℤ} (hlow : -2 ^ 15 ≤ n) (hhigh : n < 2 ^ 15) : i16? n = some n :=
  checked_eq_some_iff.2 ⟨rfl, hlow, Int.le_sub_one_of_lt hhigh⟩

lemma i32?_eq {n : ℤ} (hlow : -2 ^ 31 ≤ n) (hhigh : n < 2 ^ 31) : i32? n = some n :=
  checked_eq_some_iff.2 ⟨rfl, hlow, Int.le_sub_one_of_lt hhigh⟩

lemma i64?_eq {n : ℤ} (hlow : -2 ^ 63 ≤ n) (hhigh : n < 2 ^ 63) : i64? n = some n :=
  checked_eq_some_iff.2 ⟨rfl, hlow, Int.le_sub_one_of_lt hhigh⟩

lemma u32?_eq {n : ℤ} (hlow : 0 ≤ n) (hhigh : n < 2 ^ 32) : u32? n = some n :=
  checked_eq_some_iff.2 ⟨rfl, hlow, Int.le_sub_one_of_lt hhigh⟩

/-! ## Saturating sums -/

def saturatingAdd (limit a b : Nat) : Nat := min (a + b) limit

lemma foldl_saturatingAdd {limit acc : Nat} (hacc : acc ≤ limit) (ns : List Nat) :
    ns.foldl (saturatingAdd limit) acc = min (acc + ns.sum) limit := by
  induction ns generalizing acc with
  | nil => simp [hacc]
  | cons n ns ih =>
    rw [List.foldl_cons, ih (by unfold saturatingAdd; omega), List.sum_cons, saturatingAdd]
    omega

/-! ## Flipping the sign bit -/

lemma xor_two_pow {n k : Nat} (h : n < 2 ^ (k + 1)) :
    n ^^^ 2 ^ k = if n < 2 ^ k then n + 2 ^ k else n - 2 ^ k := by
  have hpos : 0 < 2 ^ k := Nat.two_pow_pos k
  have hdiv : (n ^^^ 2 ^ k) / 2 ^ k = n / 2 ^ k ^^^ 1 := by
    rw [Nat.xor_div_two_pow, Nat.div_self hpos]
  have hmod : (n ^^^ 2 ^ k) % 2 ^ k = n % 2 ^ k := by
    rw [Nat.xor_mod_two_pow, Nat.mod_self, Nat.xor_zero]
  have hsplit := Nat.div_add_mod (n ^^^ 2 ^ k) (2 ^ k)
  rw [hdiv, hmod] at hsplit
  split_ifs with hlow
  · rw [Nat.div_eq_of_lt hlow, Nat.mod_eq_of_lt hlow, Nat.zero_xor] at hsplit
    omega
  · have htop : n / 2 ^ k = 1 := Nat.div_eq_of_lt_le (by omega) (by omega)
    have hrest := Nat.div_add_mod n (2 ^ k)
    rw [htop] at hsplit hrest
    rw [Nat.xor_self] at hsplit
    omega

lemma toInt_xor_twoPow {k : Nat} (bits : BitVec (k + 1)) :
    (bits ^^^ BitVec.twoPow (k + 1) k).toInt = (bits.toNat : ℤ) - 2 ^ k := by
  have hlt := bits.isLt
  have hpow : 2 ^ k % 2 ^ (k + 1) = 2 ^ k :=
    Nat.mod_eq_of_lt (Nat.pow_lt_pow_right (by omega) (by omega))
  have hcast : ((2 ^ k : Nat) : ℤ) = 2 ^ k := Int.natCast_pow 2 k
  rw [BitVec.toInt_eq_toNat_cond, BitVec.toNat_xor, BitVec.toNat_twoPow, hpow, xor_two_pow hlt,
    ← hcast]
  rw [Nat.pow_succ] at hlt ⊢
  generalize 2 ^ k = top at hlt ⊢
  split_ifs <;> omega

end Machine
