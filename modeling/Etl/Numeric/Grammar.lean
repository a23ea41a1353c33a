import Etl.Lib.Positional
import Etl.Numeric

/-!
# The grammar of numerals

Runs of digits with single underscores between them, a decimal point and an exponent. The parser
accepts such numerals only (`parseNumericValue_eq_ok`).
-/

namespace Etl

open Machine

/-! ## Numerals -/

inductive MoreDigits : List Char → List ℤ → Prop
  | nil : MoreDigits [] []
  | digit {c t ds} (hc : c.isDigit = true) (h : MoreDigits t ds) :
      MoreDigits (c :: t) (digitValue c :: ds)
  | underscore {c t ds} (hc : c.isDigit = true) (h : MoreDigits t ds) :
      MoreDigits ('_' :: c :: t) (digitValue c :: ds)

inductive Run : List Char → List ℤ → Prop
  | mk {c t ds} (hc : c.isDigit = true) (h : MoreDigits t ds) : Run (c :: t) (digitValue c :: ds)

inductive MantissaText : List Char → List ℤ → List ℤ → Prop
  | integer {t ds} (h : Run t ds) : MantissaText t ds []
  | point {t ds} (h : Run t ds) : MantissaText (t ++ ['.']) ds []
  | both {t ds u es} (h : Run t ds) (h' : Run u es) : MantissaText (t ++ '.' :: u) ds es
  | fraction {u es} (h : Run u es) : MantissaText ('.' :: u) [] es

def decimalNumber (ds : List ℤ) : ℤ := ds.foldl (fun n d => n * 10 + d) 0

inductive ExponentText : List Char → ℤ → Prop
  | none : ExponentText [] 0
  | plain {c t ds} (hc : c = 'e' ∨ c = 'E') (h : Run t ds) :
      ExponentText (c :: t) (decimalNumber ds)
  | plus {c t ds} (hc : c = 'e' ∨ c = 'E') (h : Run t ds) :
      ExponentText (c :: '+' :: t) (decimalNumber ds)
  | minus {c t ds} (hc : c = 'e' ∨ c = 'E') (h : Run t ds) :
      ExponentText (c :: '-' :: t) (-decimalNumber ds)

structure Numeral where
  integer : List ℤ
  fraction : List ℤ
  exponent : ℤ

def Numeral.ReadFrom (numeral : Numeral) (text : List Char) : Prop :=
  ∃ mantissa exponent, text = mantissa ++ exponent ∧
    MantissaText mantissa numeral.integer numeral.fraction ∧ ExponentText exponent numeral.exponent

section Digits

variable {c : Char} {t u : List Char} {ds es : List ℤ} {m m' : Mantissa}

lemma digitValue_mem (hc : c.isDigit = true) : 0 ≤ digitValue c ∧ digitValue c < 10 := by
  simp only [Char.isDigit, Bool.and_eq_true, decide_eq_true_eq, ge_iff_le, UInt32.le_iff_toNat_le] at hc
  have hlow : 48 ≤ c.toNat := hc.1
  have hhigh : c.toNat ≤ 57 := hc.2
  simp only [digitValue]
  omega

lemma MoreDigits.isDigits (h : MoreDigits t ds) : Positional.IsDigits 10 ds := by
  induction h with
  | nil => simp [Positional.IsDigits]
  | digit hc _ ih => exact List.forall_mem_cons.2 ⟨digitValue_mem hc, ih⟩
  | underscore hc _ ih => exact List.forall_mem_cons.2 ⟨digitValue_mem hc, ih⟩

lemma Run.isDigits (h : Run t ds) : Positional.IsDigits 10 ds := by
  cases h with
  | mk hc h => exact List.forall_mem_cons.2 ⟨digitValue_mem hc, h.isDigits⟩

lemma MoreDigits.length_le (h : MoreDigits t ds) : ds.length ≤ t.length := by
  induction h with
  | nil => simp
  | digit _ _ ih => simpa using ih
  | underscore _ _ ih =>
    simp only [List.length_cons]
    omega

lemma Run.length_le (h : Run t ds) : ds.length ≤ t.length := by
  cases h with
  | mk hc h => simpa using h.length_le

lemma Run.ne_nil (h : Run t ds) : ds ≠ [] := by
  cases h
  simp

lemma Run.startsWithDigit (h : Run t ds) (u : List Char) : startsWithDigit (t ++ u) = true := by
  cases h with
  | mk hc h => simpa [Etl.startsWithDigit] using hc

lemma Run.moreDigits (h : Run t ds) : MoreDigits t ds := by
  cases h with
  | mk hc h => exact .digit hc h

lemma Run.head?_append_ne (h : Run t ds) (u : List Char) : (t ++ u).head? ≠ some '.' := by
  cases h with
  | mk hc h =>
    rintro ⟨⟩
    cases hc

lemma MoreDigits.run (h : MoreDigits t ds) (hne : t ≠ []) (hhead : t.head? ≠ some '_') :
    Run t ds := by
  cases h with
  | nil => exact absurd rfl hne
  | digit hc h => exact .mk hc h
  | underscore hc h => simp at hhead

lemma MoreDigits.run_of_startsWithDigit (h : MoreDigits t ds) (ht : Etl.startsWithDigit t = true) :
    Run t ds := by
  cases h with
  | nil => cases ht
  | digit hc h => exact .mk hc h
  | underscore hc h => cases ht

end Digits

section Results

variable {α β : Type} {result : Option (Except ParseNumericError α)}
  {next : α → Option (Except ParseNumericError β)}

lemma exists_of_andThen_eq_ok {b : β} (h : andThen result next = some (.ok b)) :
    ∃ a, result = some (.ok a) ∧ next a = some (.ok b) := by
  rcases result with _ | _ | a
  · cases h
  · cases h
  · exact ⟨a, rfl, h⟩

lemma isSome_andThen (hresult : result.isSome)
    (hnext : ∀ a, result = some (.ok a) → (next a).isSome) : (andThen result next).isSome := by
  rcases result with _ | _ | a
  · cases hresult
  · rfl
  · exact hnext a rfl

end Results

/-! ## The mantissa -/

section Mantissa

variable {c : Char} {t u text rest : List Char} {ds es : List ℤ} {m m' : Mantissa}

def Mantissa.extend (m : Mantissa) (ds : List ℤ) : Mantissa :=
  if m.haveDecimalPoint then
    { m with decimalDigits := m.decimalDigits ++ ds, dscale := m.dscale + ds.length }
  else { m with decimalDigits := m.decimalDigits ++ ds, dweight := m.dweight + ds.length }

def Mantissa.Room (m : Mantissa) (n : ℕ) : Prop :=
  -1 ≤ m.dweight ∧ 0 ≤ m.dscale ∧ m.dweight + n < 2 ^ 31 ∧ m.dscale + n < 2 ^ 32

lemma Mantissa.extend_nil (m : Mantissa) : m.extend [] = m := by
  obtain ⟨_, point, _, _⟩ := m
  cases point <;> simp [extend]

lemma Mantissa.extend_cons (m : Mantissa) (d : ℤ) (ds : List ℤ) :
    (m.extend [d]).extend ds = m.extend (d :: ds) := by
  cases hpoint : m.haveDecimalPoint <;> simp [extend, hpoint] <;> omega

@[simp] lemma Mantissa.haveDecimalPoint_extend (m : Mantissa) (ds : List ℤ) :
    (m.extend ds).haveDecimalPoint = m.haveDecimalPoint := by
  cases hpoint : m.haveDecimalPoint <;> simp [extend, hpoint]

lemma Mantissa.push_eq_some {d : ℤ} (h : m.push d = some m') : m' = m.extend [d] := by
  rw [push] at h
  rw [extend]
  split_ifs at h with hpoint
  · obtain ⟨dweight, hdweight, h⟩ := Option.bind_eq_some_iff.1 h
    obtain ⟨rfl, -⟩ := checked_eq_some_iff.1 hdweight
    cases h
    simp_all
  · obtain ⟨dscale, hdscale, h⟩ := Option.bind_eq_some_iff.1 h
    obtain ⟨rfl, -⟩ := checked_eq_some_iff.1 hdscale
    cases h
    simp_all

lemma Mantissa.push_of_room {n : ℕ} (h : m.Room (n + 1)) (d : ℤ) :
    m.push d = some (m.extend [d]) ∧ (m.extend [d]).Room n := by
  obtain ⟨h₁, h₂, h₃, h₄⟩ := h
  push_cast at h₃ h₄
  have hweight : i32? (m.dweight + 1) = some (m.dweight + 1) :=
    i32?_eq (by omega) (by omega)
  have hscale : u32? (m.dscale + 1) = some (m.dscale + 1) :=
    u32?_eq (by omega) (by omega)
  cases hpoint : m.haveDecimalPoint
  · refine ⟨by simp [push, extend, hpoint, hweight], ?_⟩
    simp only [extend, hpoint, Room]
    refine ⟨?_, ?_, ?_, ?_⟩ <;> simp <;> omega
  · refine ⟨by simp [push, extend, hpoint, hscale], ?_⟩
    simp only [extend, hpoint, Room]
    refine ⟨?_, ?_, ?_, ?_⟩ <;> simp <;> omega

lemma parseMantissa_digit (hc : c.isDigit = true) (m : Mantissa) :
    parseMantissa (c :: rest) m = (m.push (digitValue c)).bind (parseMantissa rest) := by
  rw [parseMantissa, if_pos hc]

lemma parseMantissa_underscore (hrest : startsWithDigit rest = true) (m : Mantissa) :
    parseMantissa ('_' :: rest) m = parseMantissa rest m := by
  rw [parseMantissa, if_neg (by decide), if_neg (by decide), if_pos rfl, if_pos hrest]

lemma parseMantissa_point (hpoint : m.haveDecimalPoint = false)
    (hrest : rest.head? ≠ some '_') :
    parseMantissa ('.' :: rest) m = parseMantissa rest { m with haveDecimalPoint := true } := by
  rw [parseMantissa, if_neg (by decide), if_pos rfl, hpoint, if_neg Bool.false_ne_true,
    if_neg hrest]

lemma MoreDigits.parseMantissa_append {n : ℕ} (h : MoreDigits t ds) (hroom : m.Room (ds.length + n)) :
    parseMantissa (t ++ u) m = parseMantissa u (m.extend ds) ∧ (m.extend ds).Room n := by
  induction h generalizing m with
  | nil => rw [Mantissa.extend_nil]; exact ⟨rfl, by simpa using hroom⟩
  | @digit c t ds hc h ih =>
    rw [List.length_cons, Nat.add_right_comm] at hroom
    obtain ⟨hpush, hroom⟩ := Mantissa.push_of_room hroom (digitValue c)
    obtain ⟨hrest, hroom⟩ := ih hroom
    rw [Mantissa.extend_cons] at hrest hroom
    exact ⟨by rw [List.cons_append, parseMantissa_digit hc, hpush, Option.bind_some, hrest], hroom⟩
  | @underscore c t ds hc h ih =>
    rw [List.length_cons, Nat.add_right_comm] at hroom
    obtain ⟨hpush, hroom⟩ := Mantissa.push_of_room hroom (digitValue c)
    obtain ⟨hrest, hroom⟩ := ih hroom
    rw [Mantissa.extend_cons] at hrest hroom
    refine ⟨?_, hroom⟩
    rw [List.cons_append, parseMantissa_underscore (by simpa [startsWithDigit] using hc),
      List.cons_append, parseMantissa_digit hc, hpush, Option.bind_some, hrest]

lemma parseMantissa_cons_eq_ok (h : parseMantissa (c :: text) m = some (.ok (m', rest))) :
    c.isDigit = true ∧ parseMantissa text (m.extend [digitValue c]) = some (.ok (m', rest)) ∨
      c = '.' ∧ m.haveDecimalPoint = false ∧ text.head? ≠ some '_' ∧
        parseMantissa text { m with haveDecimalPoint := true } = some (.ok (m', rest)) ∨
      c = '_' ∧ startsWithDigit text = true ∧ parseMantissa text m = some (.ok (m', rest)) ∨
      c.isDigit = false ∧ m' = m ∧ rest = c :: text := by
  rw [parseMantissa] at h
  split at h
  · rename_i hc
    obtain ⟨m₁, hpush, h⟩ := Option.bind_eq_some_iff.1 h
    rw [Mantissa.push_eq_some hpush] at h
    exact .inl ⟨hc, h⟩
  · rename_i hc
    split at h
    · rename_i hdot
      split at h
      · cases h
      · rename_i hpoint
        split at h
        · cases h
        · rename_i hhead
          exact .inr (.inl ⟨hdot, by simpa using hpoint, hhead, h⟩)
    · split at h
      · rename_i hunderscore
        split at h
        · rename_i hdigit
          exact .inr (.inr (.inl ⟨hunderscore, hdigit, h⟩))
        · cases h
      · cases h
        exact .inr (.inr (.inr ⟨by simpa using hc, rfl, rfl⟩))

lemma startsWithDigit_of_append (h : startsWithDigit (t ++ u) = true)
    (hu : startsWithDigit u = false) : startsWithDigit t = true := by
  rcases t with _ | ⟨c, t⟩
  · rw [List.nil_append, hu] at h
    cases h
  · exact h

lemma MoreDigits.underscore_cons (h : MoreDigits t ds) (ht : startsWithDigit t = true) :
    MoreDigits ('_' :: t) ds := by
  cases h with
  | nil => cases ht
  | digit hc h => exact .underscore hc h
  | underscore hc h => cases ht

lemma exists_moreDigits_of_parseMantissa (hpoint : m.haveDecimalPoint = true)
    (h : parseMantissa text m = some (.ok (m', rest))) :
    ∃ t ds, text = t ++ rest ∧ MoreDigits t ds ∧ m' = m.extend ds ∧
      startsWithDigit rest = false := by
  induction text generalizing m with
  | nil =>
    cases h
    exact ⟨[], [], rfl, .nil, (Mantissa.extend_nil _).symm, rfl⟩
  | cons c text ih =>
    obtain ⟨hc, h⟩ | ⟨-, hpoint', -⟩ | ⟨rfl, hdigit, h⟩ | ⟨hc, rfl, rfl⟩ := parseMantissa_cons_eq_ok h
    · obtain ⟨t, ds, rfl, hdigits, rfl, hrest⟩ := ih (by simpa using hpoint) h
      exact ⟨c :: t, _, rfl, .digit hc hdigits, Mantissa.extend_cons .., hrest⟩
    · rw [hpoint] at hpoint'
      cases hpoint'
    · obtain ⟨t, ds, rfl, hdigits, rfl, hrest⟩ := ih hpoint h
      exact ⟨_, ds, rfl, hdigits.underscore_cons (startsWithDigit_of_append hdigit hrest), rfl,
        hrest⟩
    · exact ⟨[], [], rfl, .nil, (Mantissa.extend_nil _).symm, hc⟩

lemma exists_of_parseMantissa (hpoint : m.haveDecimalPoint = false)
    (h : parseMantissa text m = some (.ok (m', rest))) :
    startsWithDigit rest = false ∧ ∃ t ds, MoreDigits t ds ∧
      (text = t ++ rest ∧ m' = m.extend ds ∨
        ∃ u es, text = t ++ '.' :: (u ++ rest) ∧ (u = [] ∧ es = [] ∨ Run u es) ∧
          m' = { m.extend ds with haveDecimalPoint := true }.extend es) := by
  induction text generalizing m with
  | nil =>
    cases h
    exact ⟨rfl, [], [], .nil, .inl ⟨rfl, (Mantissa.extend_nil _).symm⟩⟩
  | cons c text ih =>
    obtain ⟨hc, h⟩ | ⟨rfl, -, hhead, h⟩ | ⟨rfl, hdigit, h⟩ | ⟨hc, rfl, rfl⟩ :=
      parseMantissa_cons_eq_ok h
    · obtain ⟨hrest, t, ds, hdigits, hcases⟩ := ih (by simpa using hpoint) h
      rw [Mantissa.extend_cons] at hcases
      refine ⟨hrest, c :: t, _, .digit hc hdigits, ?_⟩
      rcases hcases with ⟨rfl, hm⟩ | ⟨u, es, rfl, hu, hm⟩
      · exact .inl ⟨rfl, hm⟩
      · exact .inr ⟨u, es, rfl, hu, hm⟩
    · obtain ⟨u, es, rfl, hdigits, rfl, hrest⟩ := exists_moreDigits_of_parseMantissa rfl h
      refine ⟨hrest, [], [], .nil, .inr ⟨u, es, rfl, ?_, by rw [Mantissa.extend_nil]⟩⟩
      rcases u with _ | ⟨d, u⟩
      · cases hdigits
        exact .inl ⟨rfl, rfl⟩
      · exact .inr (hdigits.run (by simp) (by simpa using hhead))
    · obtain ⟨hrest, t, ds, hdigits, hcases⟩ := ih hpoint h
      refine ⟨hrest, '_' :: t, ds, hdigits.underscore_cons ?_, ?_⟩
      · rcases hcases with ⟨rfl, -⟩ | ⟨u, es, rfl, -⟩
        · exact startsWithDigit_of_append hdigit hrest
        · exact startsWithDigit_of_append hdigit rfl
      · rcases hcases with ⟨rfl, hm⟩ | ⟨u, es, rfl, hu, hm⟩
        · exact .inl ⟨rfl, hm⟩
        · exact .inr ⟨u, es, rfl, hu, hm⟩
    · exact ⟨hc, [], [], .nil, .inl ⟨rfl, (Mantissa.extend_nil _).symm⟩⟩

structure Mantissa.Holds (m : Mantissa) (integer fraction : List ℤ) : Prop where
  decimalDigits : m.decimalDigits = integer ++ fraction
  dweight : m.dweight = integer.length - 1
  dscale : m.dscale = fraction.length

lemma mantissaStart_of_head? (h : text.head? ≠ some '.') :
    mantissaStart text = (⟨[], false, -1, 0⟩, text) := by
  rw [mantissaStart]
  rintro rest rfl
  simp at h

lemma holds_extend (ds : List ℤ) : Mantissa.Holds (Mantissa.extend ⟨[], false, -1, 0⟩ ds) ds [] :=
  ⟨by simp [Mantissa.extend], by simp [Mantissa.extend]; omega, by simp [Mantissa.extend]⟩

lemma holds_extend_extend (ds es : List ℤ) : Mantissa.Holds
    ({ Mantissa.extend ⟨[], false, -1, 0⟩ ds with haveDecimalPoint := true }.extend es) ds es :=
  ⟨by simp [Mantissa.extend], by simp [Mantissa.extend]; omega, by simp [Mantissa.extend]⟩

lemma holds_extend_point (es : List ℤ) :
    Mantissa.Holds (Mantissa.extend ⟨[], true, -1, 0⟩ es) [] es :=
  ⟨by simp [Mantissa.extend], by simp [Mantissa.extend], by simp [Mantissa.extend]⟩

lemma exists_mantissaText {start : Mantissa} {bytes : List Char}
    (hbytes : mantissaStart text = (start, bytes)) (hstart : startsWithDigit bytes = true)
    (h : parseMantissa bytes start = some (.ok (m, rest))) :
    ∃ t ds es, text = t ++ rest ∧ MantissaText t ds es ∧ m.Holds ds es := by
  by_cases hdot : text.head? = some '.'
  · obtain ⟨text, rfl⟩ : ∃ text', text = '.' :: text' := by
      rcases text with _ | ⟨c, text⟩
      · cases hdot
      · cases hdot
        exact ⟨text, rfl⟩
    obtain ⟨rfl, rfl⟩ := Prod.mk.inj hbytes
    obtain ⟨t, es, heq, hdigits, rfl, hrest⟩ := exists_moreDigits_of_parseMantissa rfl h
    have hrun := hdigits.run_of_startsWithDigit (startsWithDigit_of_append (heq ▸ hstart) hrest)
    exact ⟨'.' :: t, [], es, by rw [show text = t ++ rest from heq]; rfl, .fraction hrun,
      holds_extend_point es⟩
  · rw [mantissaStart_of_head? hdot] at hbytes
    obtain ⟨rfl, rfl⟩ := Prod.mk.inj hbytes
    obtain ⟨hrest, t, ds, hdigits, hcases⟩ := exists_of_parseMantissa rfl h
    have ht : startsWithDigit t = true := by
      rcases hcases with ⟨rfl, -⟩ | ⟨u, es, rfl, -⟩
      · exact startsWithDigit_of_append hstart hrest
      · exact startsWithDigit_of_append hstart rfl
    have hrun := hdigits.run_of_startsWithDigit ht
    rcases hcases with ⟨rfl, rfl⟩ | ⟨u, es, rfl, ⟨rfl, rfl⟩ | hu, rfl⟩
    · exact ⟨t, ds, [], rfl, .integer hrun, holds_extend ds⟩
    · exact ⟨t ++ ['.'], ds, [], by simp, .point hrun, holds_extend_extend ds []⟩
    · exact ⟨t ++ '.' :: u, ds, es, by simp, .both hrun hu, holds_extend_extend ds es⟩

def Stops (rest : List Char) : Prop :=
  ∀ c ∈ rest.head?, c.isDigit = false ∧ c ≠ '.' ∧ c ≠ '_'

lemma Stops.parseMantissa (h : Stops rest) (m : Mantissa) :
    Etl.parseMantissa rest m = some (.ok (m, rest)) := by
  rcases rest with _ | ⟨c, rest⟩
  · rfl
  · obtain ⟨hc, hdot, hunderscore⟩ := h c rfl
    rw [Etl.parseMantissa, hc, if_neg Bool.false_ne_true, if_neg hdot, if_neg hunderscore]

lemma MantissaText.length_le (h : MantissaText t ds es) : ds.length + es.length ≤ t.length := by
  cases h with
  | integer h => simpa using h.length_le
  | point h =>
    have := h.length_le
    simp
    omega
  | both h h' =>
    have := h.length_le
    have := h'.length_le
    simp
    omega
  | fraction h =>
    have := h.length_le
    simp
    omega

lemma Run.parseMantissa_point {n : ℕ} (h : Run t ds) (hu : u.head? ≠ some '_')
    (hroom : Mantissa.Room ⟨[], false, -1, 0⟩ (ds.length + n)) :
    Etl.parseMantissa (t ++ '.' :: u) ⟨[], false, -1, 0⟩ = Etl.parseMantissa u
        { Mantissa.extend ⟨[], false, -1, 0⟩ ds with haveDecimalPoint := true } ∧
      Mantissa.Room { Mantissa.extend ⟨[], false, -1, 0⟩ ds with haveDecimalPoint := true } n := by
  obtain ⟨hparse, hroom⟩ := h.moreDigits.parseMantissa_append (u := '.' :: u) hroom
  exact ⟨hparse.trans (Etl.parseMantissa_point (by simp) hu), hroom⟩

lemma MantissaText.exists_parseMantissa_eq (h : MantissaText t ds es) (hrest : Stops rest)
    (hlength : t.length < 2 ^ 31) :
    startsWithDigit (mantissaStart (t ++ rest)).2 = true ∧
      ∃ m, Etl.parseMantissa (mantissaStart (t ++ rest)).2 (mantissaStart (t ++ rest)).1 =
        some (.ok (m, rest)) ∧ m.Holds ds es := by
  have hroom : ∀ point, ∀ n ≤ t.length, Mantissa.Room ⟨[], point, -1, 0⟩ (n + 0) := fun point n hn =>
    ⟨by simp, by simp, by simp; omega, by simp; omega⟩
  have hle := h.length_le
  have hunderscore : rest.head? ≠ some '_' := fun heq => (hrest '_' heq).2.2 rfl
  cases h with
  | @integer t ds hrun =>
    rw [mantissaStart_of_head? (hrun.head?_append_ne rest)]
    obtain ⟨hparse, -⟩ := hrun.moreDigits.parseMantissa_append (u := rest)
      (hroom false ds.length (by simpa using hle))
    exact ⟨hrun.startsWithDigit rest, _, hparse.trans (hrest.parseMantissa _), holds_extend ds⟩
  | @point t ds hrun =>
    rw [List.append_assoc, List.singleton_append, mantissaStart_of_head? (hrun.head?_append_ne _)]
    obtain ⟨hparse, -⟩ := hrun.parseMantissa_point hunderscore
      (hroom false ds.length (by simp at hle ⊢; omega))
    refine ⟨hrun.startsWithDigit _, _, hparse.trans (hrest.parseMantissa _), ?_⟩
    simpa [Mantissa.extend_nil] using holds_extend_extend ds []
  | @both t ds u es hrun hrun' =>
    rw [List.append_assoc, List.cons_append, mantissaStart_of_head? (hrun.head?_append_ne _)]
    have hu : (u ++ rest).head? ≠ some '_' := by
      cases hrun' with
      | mk hc _ =>
        rintro ⟨⟩
        cases hc
    obtain ⟨hparse, hroom'⟩ := hrun.parseMantissa_point hu (n := es.length + 0)
      (by rw [← Nat.add_assoc]; exact hroom false _ hle)
    obtain ⟨hparse', -⟩ := hrun'.moreDigits.parseMantissa_append (u := rest) hroom'
    exact ⟨hrun.startsWithDigit _, _, hparse.trans (hparse'.trans (hrest.parseMantissa _)),
      holds_extend_extend ds es⟩
  | @fraction u es hrun =>
    obtain ⟨hparse, -⟩ := hrun.moreDigits.parseMantissa_append (u := rest)
      (hroom true es.length (by simpa using hle))
    exact ⟨hrun.startsWithDigit rest, _, hparse.trans (hrest.parseMantissa _),
      holds_extend_point es⟩

lemma isSome_parseMantissa (hroom : m.Room text.length) : (Etl.parseMantissa text m).isSome := by
  induction text generalizing m with
  | nil => rfl
  | cons c text ih =>
    obtain ⟨hpush, hextended⟩ := Mantissa.push_of_room hroom (digitValue c)
    have hroom' : m.Room text.length := by
      obtain ⟨h₁, h₂, h₃, h₄⟩ := hroom
      rw [List.length_cons] at h₃ h₄
      exact ⟨h₁, h₂, by omega, by omega⟩
    rw [Etl.parseMantissa]
    split_ifs
    · rw [hpush, Option.bind_some]
      exact ih hextended
    · rfl
    · rfl
    · exact ih hroom'
    · exact ih hroom'
    · rfl
    · rfl

lemma mantissaStart_room (hbytes : mantissaStart text = (m, rest)) (hlength : text.length < 2 ^ 31) :
    m.Room rest.length := by
  rw [mantissaStart.eq_def] at hbytes
  split at hbytes
  · obtain ⟨rfl, rfl⟩ := Prod.mk.inj hbytes
    rw [List.length_cons] at hlength
    exact ⟨by simp, by simp, by simp; omega, by simp; omega⟩
  · obtain ⟨rfl, rfl⟩ := Prod.mk.inj hbytes
    exact ⟨by simp, by simp, by simp; omega, by simp; omega⟩

end Mantissa

/-! ## The exponent -/

section Exponent

variable {c : Char} {t u text rest : List Char} {ds : List ℤ} {m m' : Mantissa} {e e' : ℤ}

lemma le_foldl_decimal (h : Positional.IsDigits 10 ds) (he : 0 ≤ e) :
    e ≤ ds.foldl (fun n d => n * 10 + d) e := by
  induction ds generalizing e with
  | nil => exact le_rfl
  | cons d ds ih =>
    have hd := (h d List.mem_cons_self).1
    have hrest := ih h.of_cons (show 0 ≤ e * 10 + d by omega)
    rw [List.foldl_cons]
    omega

lemma parseExponentDigits_digit (hc : c.isDigit = true) (he : 0 ≤ e) (hmax : e ≤ maxExponent)
    (text : List Char) :
    parseExponentDigits (c :: text) e =
      if e * 10 + digitValue c > maxExponent then some (.error .valueOutOfRange)
      else parseExponentDigits text (e * 10 + digitValue c) := by
  have hd := digitValue_mem hc
  have hguard : maxExponent = 1073741823 := by decide
  have hshift : i64? (e * 10) = some (e * 10) :=
    i64?_eq (by omega) (by omega)
  have hsum : i64? (e * 10 + digitValue c) = some (e * 10 + digitValue c) :=
    i64?_eq (by omega) (by omega)
  rw [parseExponentDigits, if_pos hc, hshift]
  simp only [Option.bind_eq_bind, Option.bind_some, hsum]

lemma parseExponentDigits_eq_of_digit (hc : c.isDigit = true) (hds : Positional.IsDigits 10 ds)
    (he : 0 ≤ e) (hmax : e ≤ maxExponent)
    (ih : ∀ {e}, 0 ≤ e → e ≤ maxExponent → parseExponentDigits t e =
      if maxExponent < ds.foldl (fun n d => n * 10 + d) e then some (.error .valueOutOfRange)
      else some (.ok (ds.foldl (fun n d => n * 10 + d) e, []))) :
    parseExponentDigits (c :: t) e =
      if maxExponent < (digitValue c :: ds).foldl (fun n d => n * 10 + d) e then
        some (.error .valueOutOfRange)
      else some (.ok ((digitValue c :: ds).foldl (fun n d => n * 10 + d) e, [])) := by
  have hd := digitValue_mem hc
  have hnonneg : 0 ≤ e * 10 + digitValue c := by omega
  rw [parseExponentDigits_digit hc he hmax, List.foldl_cons]
  split_ifs with hlarge hfold hfold
  · rfl
  · exact absurd (lt_of_lt_of_le hlarge (le_foldl_decimal hds hnonneg)) hfold
  · rw [ih hnonneg (by omega), if_pos hfold]
  · rw [ih hnonneg (by omega), if_neg hfold]

lemma parseExponentDigits_underscore (hrest : startsWithDigit rest = true) (e : ℤ) :
    parseExponentDigits ('_' :: rest) e = parseExponentDigits rest e := by
  rw [parseExponentDigits, if_neg (by decide), if_pos rfl, if_pos hrest]

lemma MoreDigits.parseExponentDigits_eq (h : MoreDigits t ds) (he : 0 ≤ e)
    (hmax : e ≤ maxExponent) :
    parseExponentDigits t e =
      if maxExponent < ds.foldl (fun n d => n * 10 + d) e then some (.error .valueOutOfRange)
      else some (.ok (ds.foldl (fun n d => n * 10 + d) e, [])) := by
  induction h generalizing e with
  | nil => rw [List.foldl_nil, if_neg hmax.not_gt, parseExponentDigits]
  | @digit c t ds hc h ih => exact parseExponentDigits_eq_of_digit hc h.isDigits he hmax ih
  | @underscore c t ds hc h ih =>
    rw [parseExponentDigits_underscore (by simpa [startsWithDigit] using hc)]
    exact parseExponentDigits_eq_of_digit hc h.isDigits he hmax ih

lemma parseExponentDigits_cons_eq_ok (he : 0 ≤ e) (hmax : e ≤ maxExponent)
    (h : parseExponentDigits (c :: text) e = some (.ok (e', rest))) :
    c.isDigit = true ∧ e * 10 + digitValue c ≤ maxExponent ∧
        parseExponentDigits text (e * 10 + digitValue c) = some (.ok (e', rest)) ∨
      c = '_' ∧ startsWithDigit text = true ∧
        parseExponentDigits text e = some (.ok (e', rest)) ∨
      c.isDigit = false ∧ e' = e ∧ rest = c :: text := by
  cases hc : c.isDigit with
  | true =>
    rw [parseExponentDigits_digit hc he hmax] at h
    split at h
    · cases h
    · exact .inl ⟨rfl, by omega, h⟩
  | false =>
    rw [parseExponentDigits, if_neg (by simp [hc])] at h
    split at h
    · rename_i hunderscore
      split at h
      · rename_i hdigit
        exact .inr (.inl ⟨hunderscore, hdigit, h⟩)
      · cases h
    · cases h
      exact .inr (.inr ⟨rfl, rfl, rfl⟩)

lemma exists_moreDigits_of_parseExponentDigits (he : 0 ≤ e) (hmax : e ≤ maxExponent)
    (h : parseExponentDigits text e = some (.ok (e', rest))) :
    ∃ t ds, text = t ++ rest ∧ MoreDigits t ds ∧ e' = ds.foldl (fun n d => n * 10 + d) e ∧
      e' ≤ maxExponent ∧ startsWithDigit rest = false := by
  induction text generalizing e with
  | nil =>
    cases h
    exact ⟨[], [], rfl, .nil, rfl, hmax, rfl⟩
  | cons c text ih =>
    obtain ⟨hc, hle, h⟩ | ⟨rfl, hdigit, h⟩ | ⟨hc, rfl, rfl⟩ :=
      parseExponentDigits_cons_eq_ok he hmax h
    · have hd := digitValue_mem hc
      obtain ⟨t, ds, rfl, hdigits, hfold, hmax', hrest⟩ := ih (by omega) hle h
      exact ⟨c :: t, _, rfl, .digit hc hdigits, hfold, hmax', hrest⟩
    · obtain ⟨t, ds, rfl, hdigits, hfold, hmax', hrest⟩ := ih he hmax h
      exact ⟨_, ds, rfl, hdigits.underscore_cons (startsWithDigit_of_append hdigit hrest), hfold,
        hmax', hrest⟩
    · exact ⟨[], [], rfl, .nil, rfl, hmax, hc⟩

lemma isSome_parseExponentDigits (he : 0 ≤ e) (hmax : e ≤ maxExponent) (text : List Char) :
    (parseExponentDigits text e).isSome := by
  induction text generalizing e with
  | nil => rfl
  | cons c text ih =>
    cases hc : c.isDigit with
    | true =>
      have hd := digitValue_mem hc
      rw [parseExponentDigits_digit hc he hmax]
      split_ifs
      · rfl
      · exact ih (by omega) (by omega)
    | false =>
      rw [parseExponentDigits, if_neg (by simp [hc])]
      split_ifs
      · exact ih he hmax
      · rfl
      · rfl

lemma Run.parseExponentDigits_eq (h : Run t ds) :
    parseExponentDigits t 0 =
      if maxExponent < decimalNumber ds then some (.error .valueOutOfRange)
      else some (.ok (decimalNumber ds, [])) :=
  h.moreDigits.parseExponentDigits_eq le_rfl (by decide)

lemma Run.decimalNumber_nonneg (h : Run t ds) : 0 ≤ decimalNumber ds :=
  le_foldl_decimal h.isDigits le_rfl

lemma exists_run_of_parseExponentDigits (hstart : startsWithDigit text = true)
    (h : parseExponentDigits text 0 = some (.ok (e, rest))) :
    ∃ t ds, text = t ++ rest ∧ Run t ds ∧ e = decimalNumber ds ∧ 0 ≤ e ∧ e ≤ maxExponent := by
  obtain ⟨t, ds, rfl, hdigits, rfl, hmax, hrest⟩ :=
    exists_moreDigits_of_parseExponentDigits le_rfl (by decide) h
  have hrun := hdigits.run_of_startsWithDigit (startsWithDigit_of_append hstart hrest)
  exact ⟨t, ds, rfl, hrun, rfl, hrun.decimalNumber_nonneg, hmax⟩

lemma exponentSign_cases (text : List Char) :
    (exponentSign text = (false, text) ∨ text = '+' :: (exponentSign text).2 ∧
      (exponentSign text).1 = false) ∨
    text = '-' :: (exponentSign text).2 ∧ (exponentSign text).1 = true := by
  rw [exponentSign.eq_def]
  split
  · exact .inl (.inr ⟨rfl, rfl⟩)
  · exact .inr ⟨rfl, rfl⟩
  · exact .inl (.inl rfl)

lemma exponentSign_of_startsWithDigit (h : startsWithDigit text = true) :
    exponentSign text = (false, text) := by
  rw [exponentSign]
  · rintro rest rfl
    cases h
  · rintro rest rfl
    cases h

lemma exponentText_of_parseExponent (hc : c = 'e' ∨ c = 'E')
    (h : parseExponent text = some (.ok (e, rest))) :
    ∃ t, text = t ++ rest ∧ ExponentText (c :: t) e ∧ |e| ≤ maxExponent := by
  rw [parseExponent] at h
  obtain ⟨expNegative, bytes, hsign⟩ : ∃ n b, exponentSign text = (n, b) := ⟨_, _, rfl⟩
  have hcases := exponentSign_cases text
  simp only [hsign] at h hcases
  split at h
  · cases h
  · rename_i hstart
    obtain ⟨⟨n, rest'⟩, hdigits, h⟩ := exists_of_andThen_eq_ok h
    obtain ⟨t, ds, rfl, hrun, rfl, hnonneg, hmax⟩ :=
      exists_run_of_parseExponentDigits (by simpa using hstart) hdigits
    cases h
    rcases hcases with (heq | ⟨rfl, rfl⟩) | ⟨rfl, rfl⟩
    · obtain ⟨rfl, rfl⟩ := Prod.mk.inj heq
      exact ⟨t, rfl, .plain hc hrun, by simpa [abs_of_nonneg hnonneg] using hmax⟩
    · exact ⟨'+' :: t, rfl, .plus hc hrun, by simpa [abs_of_nonneg hnonneg] using hmax⟩
    · exact ⟨'-' :: t, rfl, .minus hc hrun, by simpa [abs_of_nonneg hnonneg] using hmax⟩

lemma ExponentText.parseExponent_eq (h : ExponentText (c :: t) e) :
    (c = 'e' ∨ c = 'E') ∧ parseExponent t =
      if maxExponent < |e| then some (.error .valueOutOfRange) else some (.ok (e, [])) := by
  have hparse : ∀ {negative : Bool} {ds : List ℤ} {u : List Char}, Run u ds →
      exponentSign t = (negative, u) →
      parseExponent t = if maxExponent < decimalNumber ds then some (.error .valueOutOfRange)
        else some (.ok (if negative then -decimalNumber ds else decimalNumber ds, [])) := by
    intro negative ds u hrun hsign
    have hstart : startsWithDigit u = true := by simpa using hrun.startsWithDigit []
    simp only [parseExponent, hsign, hstart, Bool.not_true, Bool.false_eq_true, if_false,
      hrun.parseExponentDigits_eq]
    split_ifs <;> rfl
  cases h with
  | @plain c t ds hc hrun =>
    have hstart : startsWithDigit t = true := by simpa using hrun.startsWithDigit []
    rw [hparse hrun (exponentSign_of_startsWithDigit hstart),
      abs_of_nonneg hrun.decimalNumber_nonneg]
    exact ⟨hc, rfl⟩
  | @plus c t ds hc hrun =>
    rw [hparse hrun rfl, abs_of_nonneg hrun.decimalNumber_nonneg]
    exact ⟨hc, rfl⟩
  | @minus c t ds hc hrun =>
    rw [hparse hrun rfl, abs_neg, abs_of_nonneg hrun.decimalNumber_nonneg]
    exact ⟨hc, rfl⟩

lemma isSome_parseExponent (text : List Char) : (parseExponent text).isSome := by
  rw [parseExponent]
  split
  split
  · rfl
  · exact isSome_andThen (isSome_parseExponentDigits le_rfl (by decide) _) fun _ _ => rfl

end Exponent

section Shift

variable {c : Char} {t text rest : List Char} {ds es : List ℤ} {m m' : Mantissa} {e : ℤ}

def Numeral.scale (numeral : Numeral) : ℕ := (numeral.fraction.length - numeral.exponent).toNat

structure Mantissa.HoldsNumeral (m : Mantissa) (numeral : Numeral) : Prop where
  decimalDigits : m.decimalDigits = numeral.integer ++ numeral.fraction
  dweight : m.dweight = numeral.integer.length - 1 + numeral.exponent
  dscale : m.dscale = numeral.scale

lemma Mantissa.Holds.holdsNumeral (h : m.Holds ds es) : m.HoldsNumeral ⟨ds, es, 0⟩ :=
  ⟨h.decimalDigits, by simpa using h.dweight, by simpa [Numeral.scale] using h.dscale⟩

lemma Mantissa.Holds.holdsNumeral_of_shift (h : m.Holds ds es) (hshift : m.shift e = some m') :
    m'.HoldsNumeral ⟨ds, es, e⟩ := by
  obtain ⟨step, hstep, hshift⟩ := Option.bind_eq_some_iff.1 hshift
  obtain ⟨rfl, -⟩ := checked_eq_some_iff.1 hstep
  obtain ⟨dweight, hdweight, hshift⟩ := Option.bind_eq_some_iff.1 hshift
  obtain ⟨rfl, -⟩ := checked_eq_some_iff.1 hdweight
  obtain ⟨difference, hdifference, hshift⟩ := Option.bind_eq_some_iff.1 hshift
  obtain ⟨rfl, -⟩ := checked_eq_some_iff.1 hdifference
  obtain ⟨dscale, hdscale, hshift⟩ := Option.bind_eq_some_iff.1 hshift
  cases hshift
  refine ⟨h.decimalDigits, by simp [h.dweight], ?_⟩
  rw [h.dscale] at hdscale
  simp only [Numeral.scale]
  rw [shiftedScale] at hdscale
  split_ifs at hdscale with hneg
  · cases hdscale
    omega
  · obtain ⟨rfl, hnonneg, -⟩ := checked_eq_some_iff.1 hdscale
    exact (Int.toNat_of_nonneg hnonneg).symm

lemma Mantissa.Holds.exists_shift_eq (h : m.Holds ds es) (hlength : ds.length + es.length ≤ 2 ^ 30)
    (he : |e| ≤ maxExponent) : ∃ m', m.shift e = some m' := by
  have hguard : maxExponent = 1073741823 := by decide
  obtain ⟨hlow, hhigh⟩ := abs_le.1 he
  have hdweight := h.dweight
  have hdscale := h.dscale
  have hstep : i32? e = some e :=
    i32?_eq (by omega) (by omega)
  have hsum : i32? (m.dweight + e) = some (m.dweight + e) :=
    i32?_eq (by omega) (by omega)
  have hdifference : i64? (m.dscale - e) = some (m.dscale - e) :=
    i64?_eq (by omega) (by omega)
  have hscale : ∃ dscale, shiftedScale (m.dscale - e) = some dscale := by
    rw [shiftedScale]
    split_ifs with hneg
    · exact ⟨0, rfl⟩
    · exact ⟨_, u32?_eq (by omega) (by omega)⟩
  obtain ⟨dscale, hscale⟩ := hscale
  exact ⟨{ m with dweight := m.dweight + e, dscale }, by
    simp only [shift, hstep, hsum, hdifference, hscale, Option.bind_eq_bind, Option.bind_some]
    rfl⟩

lemma Mantissa.Holds.exists_exponentText (h : m.Holds ds es)
    (hparse : parseScientific m text = some (.ok (m', rest))) :
    ∃ x e, text = x ++ rest ∧ ExponentText x e ∧ |e| ≤ maxExponent ∧
      m'.HoldsNumeral ⟨ds, es, e⟩ := by
  have hnone : ∃ x e, text = x ++ text ∧ ExponentText x e ∧ |e| ≤ maxExponent ∧
      m.HoldsNumeral ⟨ds, es, e⟩ := ⟨[], 0, rfl, .none, by decide, h.holdsNumeral⟩
  rcases text with _ | ⟨c, text⟩
  · cases hparse
    exact hnone
  · rw [parseScientific] at hparse
    split at hparse
    · rename_i hc
      obtain ⟨⟨e, rest'⟩, hexponent, hparse⟩ := exists_of_andThen_eq_ok hparse
      obtain ⟨m₁, hshift, hparse⟩ := Option.bind_eq_some_iff.1 hparse
      cases hparse
      obtain ⟨x, rfl, hx, he⟩ := exponentText_of_parseExponent hc hexponent
      exact ⟨c :: x, e, rfl, hx, he, h.holdsNumeral_of_shift hshift⟩
    · cases hparse
      exact hnone

lemma Mantissa.Holds.parseScientific_eq (h : m.Holds ds es)
    (hlength : ds.length + es.length ≤ 2 ^ 30) (hx : ExponentText text e) :
    maxExponent < |e| ∧ parseScientific m text = some (.error .valueOutOfRange) ∨
      |e| ≤ maxExponent ∧ ∃ m', parseScientific m text = some (.ok (m', [])) ∧
        m'.HoldsNumeral ⟨ds, es, e⟩ := by
  rcases text with _ | ⟨c, text⟩
  · cases hx
    exact .inr ⟨by decide, m, rfl, h.holdsNumeral⟩
  · obtain ⟨hc, hexponent⟩ := hx.parseExponent_eq
    rw [parseScientific, if_pos hc, hexponent]
    split_ifs with he
    · exact .inl ⟨he, rfl⟩
    · obtain ⟨m', hshift⟩ := h.exists_shift_eq hlength (not_lt.1 he)
      refine .inr ⟨not_lt.1 he, m', ?_, h.holdsNumeral_of_shift hshift⟩
      simp only [andThen, hshift, Option.bind_some]

lemma Mantissa.Holds.isSome_parseScientific (h : m.Holds ds es)
    (hlength : ds.length + es.length ≤ 2 ^ 30) (text : List Char) :
    (parseScientific m text).isSome := by
  rcases text with _ | ⟨c, text⟩
  · rfl
  · rw [parseScientific]
    split_ifs with hc
    · refine isSome_andThen (isSome_parseExponent text) fun ⟨e, rest⟩ hexponent => ?_
      obtain ⟨-, -, -, he⟩ := exponentText_of_parseExponent hc hexponent
      obtain ⟨m', hshift⟩ := h.exists_shift_eq hlength he
      simp [hshift]
    · rfl

end Shift

/-! ## Numerals and their texts -/

section Parser

variable {text rest x : List Char} {numeral : Numeral} {sign : Sign} {v : PgNumeric} {e : ℤ}

lemma ExponentText.stops (h : ExponentText x e) : Stops x := by
  have hletter : ∀ {c : Char} {t : List Char}, c = 'e' ∨ c = 'E' → Stops (c :: t) := by
    rintro c t (rfl | rfl) d ⟨⟩ <;> decide
  cases h with
  | none => simp [Stops]
  | plain hc _ => exact hletter hc
  | plus hc _ => exact hletter hc
  | minus hc _ => exact hletter hc

lemma parseNumericValue_eq_ok (h : parseNumericValue text sign = some (.ok v)) :
    ∃ numeral : Numeral, numeral.ReadFrom text ∧ |numeral.exponent| ≤ maxExponent ∧
      numeral.scale ≤ postgresNumericMaxScale ∧
      convertToBase10000 (numeral.integer ++ numeral.fraction)
        (numeral.integer.length - 1 + numeral.exponent) numeral.scale sign = some (.ok v) := by
  rw [parseNumericValue] at h
  split at h
  rename_i start bytes hstart
  split at h
  · cases h
  · rename_i hdigit
    obtain ⟨⟨m, rest⟩, hmantissa, hbehind⟩ := exists_of_andThen_eq_ok h
    obtain ⟨⟨m', rest'⟩, hscientific, hresult⟩ := exists_of_andThen_eq_ok hbehind
    obtain ⟨t, ds, es, rfl, ht, hholds⟩ :=
      exists_mantissaText hstart (by simpa using hdigit) hmantissa
    obtain ⟨x, e, rfl, hx, he, hnumeral⟩ := hholds.exists_exponentText hscientific
    dsimp only at hresult
    split at hresult
    · cases hresult
    · rename_i hrest
      split at hresult
      · cases hresult
      · rename_i hscale
        rw [hnumeral.dscale] at hscale
        rw [hnumeral.decimalDigits, hnumeral.dweight, hnumeral.dscale] at hresult
        obtain rfl := not_not.1 hrest
        refine ⟨⟨ds, es, e⟩, ⟨t, x, by simp, ht, hx⟩, he, by omega, hresult⟩

lemma Numeral.ReadFrom.parseNumericValue_eq (h : numeral.ReadFrom text)
    (hlength : text.length ≤ 2 ^ 30) (sign : Sign) :
    parseNumericValue text sign =
      if maxExponent < |numeral.exponent| ∨ postgresNumericMaxScale < numeral.scale then
        some (.error .valueOutOfRange)
      else convertToBase10000 (numeral.integer ++ numeral.fraction)
        (numeral.integer.length - 1 + numeral.exponent) numeral.scale sign := by
  obtain ⟨t, x, rfl, ht, hx⟩ := h
  rw [List.length_append] at hlength
  have hle := ht.length_le
  obtain ⟨hdigit, m, hmantissa, hholds⟩ := ht.exists_parseMantissa_eq hx.stops (by omega)
  rw [parseNumericValue]
  obtain ⟨start, bytes, hstart⟩ : ∃ s b, mantissaStart (t ++ x) = (s, b) := ⟨_, _, rfl⟩
  rw [hstart] at hdigit hmantissa
  simp only [hstart, hdigit, Bool.not_true, Bool.false_eq_true, if_false, hmantissa, andThen]
  rcases hholds.parseScientific_eq (by omega) hx with ⟨he, hparse⟩ | ⟨he, m', hparse, hnumeral⟩
  · rw [hparse, if_pos (.inl he)]
  · simp only [hparse, ne_eq, not_true_eq_false, if_false, hnumeral.dscale, gt_iff_lt,
      Nat.cast_lt, hnumeral.decimalDigits, hnumeral.dweight, not_lt.2 he, false_or]

lemma isSome_parseNumericValue_or (hlength : text.length ≤ 2 ^ 30) (sign : Sign) :
    (parseNumericValue text sign).isSome ∨ ∃ numeral : Numeral, numeral.ReadFrom text := by
  by_cases hread : ∃ numeral : Numeral, numeral.ReadFrom text
  · exact .inr hread
  · refine .inl ?_
    rw [parseNumericValue]
    split
    rename_i start bytes hstart
    split
    · rfl
    · rename_i hdigit
      refine isSome_andThen (isSome_parseMantissa (mantissaStart_room hstart (by omega)))
        fun ⟨m, rest⟩ hmantissa => ?_
      obtain ⟨t, ds, es, rfl, ht, hholds⟩ :=
        exists_mantissaText hstart (by simpa using hdigit) hmantissa
      have hle := ht.length_le
      rw [List.length_append] at hlength
      refine isSome_andThen (hholds.isSome_parseScientific (by omega) rest)
        fun ⟨m', rest'⟩ hscientific => ?_
      obtain ⟨x, e, rfl, hx, -⟩ := hholds.exists_exponentText hscientific
      have hrest : rest' ≠ [] := by
        rintro rfl
        exact hread ⟨⟨ds, es, e⟩, t, x, by simp, ht, hx⟩
      dsimp only
      rw [if_pos hrest]
      rfl

end Parser

/-! ## A text holds one numeral -/

section Unique

variable {t x text : List Char} {ds es : List ℤ} {e : ℤ} {numeral numeral' : Numeral}

def digitsOf (text : List Char) : List ℤ := (text.filter Char.isDigit).map digitValue

def numeralOf (text : List Char) : Numeral :=
  let mantissa := text.takeWhile fun c => c ≠ 'e' ∧ c ≠ 'E'
  let exponent := text.dropWhile fun c => c ≠ 'e' ∧ c ≠ 'E'
  { integer := digitsOf (mantissa.takeWhile (· ≠ '.'))
    fraction := digitsOf (mantissa.dropWhile (· ≠ '.'))
    exponent := if exponent.tail.head? = some '-' then -decimalNumber (digitsOf exponent)
      else decimalNumber (digitsOf exponent) }

lemma MoreDigits.digitsOf_eq (h : MoreDigits t ds) : digitsOf t = ds := by
  induction h with
  | nil => rfl
  | digit hc _ ih => rw [digitsOf, List.filter_cons_of_pos hc, List.map_cons, ← digitsOf, ih]
  | underscore hc _ ih =>
    rw [digitsOf, List.filter_cons_of_neg (by decide), List.filter_cons_of_pos hc, List.map_cons,
      ← digitsOf, ih]

lemma Run.digitsOf_eq (h : Run t ds) : digitsOf t = ds := h.moreDigits.digitsOf_eq

lemma MoreDigits.mem (h : MoreDigits t ds) : ∀ c ∈ t, c.isDigit = true ∨ c = '_' := by
  induction h with
  | nil => simp
  | digit hc _ ih => exact List.forall_mem_cons.2 ⟨.inl hc, ih⟩
  | underscore hc _ ih => exact List.forall_mem_cons.2 ⟨.inr rfl, List.forall_mem_cons.2 ⟨.inl hc, ih⟩⟩

lemma Run.ne_of_mem {c d : Char} (h : Run t ds) (hc : c ∈ t) (hd : d.isDigit = false)
    (hd' : d ≠ '_') : c ≠ d := by
  rintro rfl
  rcases h.moreDigits.mem c hc with hc | rfl
  · rw [hd] at hc
    cases hc
  · exact hd' rfl

lemma takeWhile_append_cons {p : Char → Bool} {c : Char} (ht : ∀ d ∈ t, p d = true)
    (hc : p c = false) : (t ++ c :: x).takeWhile p = t ∧ (t ++ c :: x).dropWhile p = c :: x := by
  rw [List.takeWhile_append_of_pos ht, List.dropWhile_append_of_pos ht,
    List.takeWhile_cons_of_neg (by simp [hc]), List.dropWhile_cons_of_neg (by simp [hc])]
  exact ⟨List.append_nil t, rfl⟩

lemma MantissaText.digitsOf_eq (h : MantissaText t ds es) :
    digitsOf (t.takeWhile (· ≠ '.')) = ds ∧ digitsOf (t.dropWhile (· ≠ '.')) = es ∧
      ∀ c ∈ t, c ≠ 'e' ∧ c ≠ 'E' := by
  have hpoint : ∀ {t : List Char} {ds : List ℤ}, Run t ds → ∀ c ∈ t, decide (c ≠ '.') = true :=
    fun h c hc => decide_eq_true (h.ne_of_mem hc rfl (by decide))
  have hletter : ∀ {t : List Char} {ds : List ℤ}, Run t ds → ∀ c ∈ t, c ≠ 'e' ∧ c ≠ 'E' :=
    fun h c hc => ⟨h.ne_of_mem hc rfl (by decide), h.ne_of_mem hc rfl (by decide)⟩
  have hbehind : ∀ u : List Char, digitsOf ('.' :: u) = digitsOf u := fun u => by
    rw [digitsOf, List.filter_cons_of_neg (by decide), digitsOf]
  cases h with
  | integer h =>
    rw [List.takeWhile_eq_self_iff.2 (hpoint h), List.dropWhile_eq_nil_iff.2 (hpoint h)]
    exact ⟨h.digitsOf_eq, rfl, hletter h⟩
  | point h =>
    obtain ⟨htake, hdrop⟩ := takeWhile_append_cons (x := []) (hpoint h) (c := '.') (by decide)
    rw [htake, hdrop, hbehind]
    refine ⟨h.digitsOf_eq, rfl, List.forall_mem_append.2 ⟨hletter h, ?_⟩⟩
    simp
  | @both t ds u es h h' =>
    obtain ⟨htake, hdrop⟩ := takeWhile_append_cons (x := u) (hpoint h) (c := '.') (by decide)
    rw [htake, hdrop, hbehind]
    refine ⟨h.digitsOf_eq, h'.digitsOf_eq, List.forall_mem_append.2 ⟨hletter h,
      List.forall_mem_cons.2 ⟨by decide, hletter h'⟩⟩⟩
  | @fraction u es h =>
    obtain ⟨htake, hdrop⟩ := takeWhile_append_cons (t := []) (x := u) (c := '.')
      (p := (· ≠ '.')) (by simp) (by decide)
    rw [List.nil_append] at htake hdrop
    rw [htake, hdrop, hbehind]
    exact ⟨rfl, h.digitsOf_eq, List.forall_mem_cons.2 ⟨by decide, hletter h⟩⟩

lemma ExponentText.exponent_eq (h : ExponentText x e) :
    (if x.tail.head? = some '-' then -decimalNumber (digitsOf x) else decimalNumber (digitsOf x)) =
      e := by
  have hletter : ∀ {c : Char} (u : List Char), c = 'e' ∨ c = 'E' →
      digitsOf (c :: u) = digitsOf u := by
    rintro c u (rfl | rfl) <;> rw [digitsOf, List.filter_cons_of_neg (by decide), digitsOf]
  cases h with
  | none => rfl
  | @plain c t ds hc h =>
    rw [hletter t hc, h.digitsOf_eq, List.tail_cons, if_neg]
    intro hhead
    exact h.ne_of_mem (List.mem_of_mem_head? hhead) rfl (by decide) rfl
  | @plus c t ds hc h =>
    rw [hletter _ hc, List.tail_cons, if_neg (by simp), digitsOf,
      List.filter_cons_of_neg (by decide), ← digitsOf, h.digitsOf_eq]
  | @minus c t ds hc h =>
    rw [hletter _ hc, List.tail_cons, List.head?_cons, if_pos rfl, digitsOf,
      List.filter_cons_of_neg (by decide), ← digitsOf, h.digitsOf_eq]

lemma ExponentText.head_eq {c : Char} (h : ExponentText (c :: x) e) : c = 'e' ∨ c = 'E' := by
  cases h with
  | plain hc _ => exact hc
  | plus hc _ => exact hc
  | minus hc _ => exact hc

lemma Numeral.ReadFrom.numeralOf_eq (h : numeral.ReadFrom text) : numeralOf text = numeral := by
  obtain ⟨t, x, rfl, ht, hx⟩ := h
  obtain ⟨hinteger, hfraction, hletter⟩ := ht.digitsOf_eq
  have hsplit : (t ++ x).takeWhile (fun c => c ≠ 'e' ∧ c ≠ 'E') = t ∧
      (t ++ x).dropWhile (fun c => c ≠ 'e' ∧ c ≠ 'E') = x := by
    have hmem : ∀ c ∈ t, decide (c ≠ 'e' ∧ c ≠ 'E') = true := fun c hc => decide_eq_true (hletter c hc)
    rcases x with _ | ⟨c, x⟩
    · rw [List.append_nil, List.takeWhile_eq_self_iff.2 hmem, List.dropWhile_eq_nil_iff.2 hmem]
      exact ⟨rfl, rfl⟩
    · exact takeWhile_append_cons hmem (by rcases hx.head_eq with rfl | rfl <;> rfl)
  rw [numeralOf, hsplit.1, hsplit.2, hinteger, hfraction, hx.exponent_eq]

lemma Numeral.ReadFrom.unique (h : numeral.ReadFrom text) (h' : numeral'.ReadFrom text) :
    numeral = numeral' := by
  rw [← h.numeralOf_eq, h'.numeralOf_eq]

end Unique

end Etl
