import Mathlib

/-!
# Numerals and separators in texts

Numerals in a base up to sixteen are read back (`parse?_render`) and hold digits only
(`digitVal?_of_mem_render`), so a separator is found again (`splitOnce?_append`).
-/

namespace Text

def digitChar (d : Nat) : Char :=
  if d < 10 then Char.ofNat (48 + d) else Char.ofNat (55 + d)

def digitVal? (b : Nat) (c : Char) : Option Nat :=
  let d :=
    if 48 ≤ c.toNat ∧ c.toNat < 58 then c.toNat - 48
    else if 65 ≤ c.toNat ∧ c.toNat < 91 then c.toNat - 55
    else if 97 ≤ c.toNat ∧ c.toNat < 123 then c.toNat - 87
    else b
  if d < b then some d else none

def render (b n : Nat) : List Char :=
  if n = 0 then ['0'] else (Nat.digits b n).reverse.map digitChar

def parse? (b : Nat) (cs : List Char) : Option Nat :=
  if cs.isEmpty then none
  else cs.foldlM (fun acc c => (digitVal? b c).map (fun d => acc * b + d)) 0

variable {b : Nat}

lemma digitVal?_digitChar {d : Nat} (hb : b ≤ 16) (hd : d < b) :
    digitVal? b (digitChar d) = some d := by
  have hval : ∀ d < 16, (digitChar d).toNat = if d < 10 then 48 + d else 55 + d := by decide
  have hchar := hval d (by omega)
  grind [digitVal?]

lemma foldlM_digits {f : Nat → Char} (hf : ∀ d < b, digitVal? b (f d) = some d)
    (ds : List Nat) (hds : ∀ d ∈ ds, d < b) : (ds.reverse.map f).foldlM
      (fun acc c => (digitVal? b c).map (fun d => acc * b + d)) 0 = some (Nat.ofDigits b ds) := by
  induction ds with
  | nil => rfl
  | cons d ds ih =>
    have hd : d < b := hds d (by simp)
    have htail := ih (fun d' h => hds d' (by simp [h]))
    simp only [List.reverse_cons, List.map_append, List.map_cons, List.map_nil,
      List.foldlM_append, htail, List.foldlM_cons, List.foldlM_nil, Option.bind_eq_bind,
      Option.bind_some, hf d hd, Option.map_some, Option.pure_def,
      Nat.ofDigits_cons, Option.some.injEq]
    ring

lemma parse?_render (hb2 : 2 ≤ b) (hb : b ≤ 16) (n : Nat) : parse? b (render b n) = some n := by
  by_cases hn : n = 0
  · subst hn
    have h0 : digitVal? b '0' = some 0 := digitVal?_digitChar hb (by omega : 0 < b)
    simp [render, parse?, h0]
  · have hne : (Nat.digits b n) ≠ [] := Nat.digits_ne_nil_iff_ne_zero.mpr hn
    have hfold := foldlM_digits (fun d hd => digitVal?_digitChar hb hd) (Nat.digits b n)
      (fun d hd => Nat.digits_lt_base hb2 hd)
    rw [Nat.ofDigits_digits] at hfold
    simpa only [render, parse?, hn, if_false, List.isEmpty_iff, List.map_eq_nil_iff,
      List.reverse_eq_nil_iff, hne] using hfold

variable {c : Char}

lemma digitVal?_of_mem_render (hb2 : 2 ≤ b) (hb : b ≤ 16) {n : Nat}
    (hc : c ∈ render b n) : (digitVal? b c).isSome := by
  by_cases hn : n = 0
  · subst hn
    have h0 : digitVal? b '0' = some 0 := digitVal?_digitChar hb (by omega : 0 < b)
    simp only [render, if_true, List.mem_singleton] at hc
    simp [hc, h0]
  · simp only [render, hn, if_false, List.mem_map, List.mem_reverse] at hc
    obtain ⟨d, hd, rfl⟩ := hc
    simp [digitVal?_digitChar hb (Nat.digits_lt_base hb2 hd)]

/-! ## Padded hexadecimal numerals -/

def lowerDigitChar (d : Nat) : Char :=
  if d < 10 then Char.ofNat (48 + d) else Char.ofNat (87 + d)

def lowerHex (width n : Nat) : List Char :=
  ((Nat.digits 16 n).reverse.map lowerDigitChar).leftpad width '0'

lemma digitVal?_lowerDigitChar : ∀ d < 16, digitVal? 16 (lowerDigitChar d) = some d := by
  decide

lemma parse?_lowerHex {width : Nat} (hwidth : 0 < width) (n : Nat) :
    parse? 16 (lowerHex width n) = some n := by
  have hne : (lowerHex width n).isEmpty = false := by
    rw [List.isEmpty_eq_false_iff, ← List.length_pos_iff, lowerHex, List.length_leftpad]
    omega
  have hzeros : ∀ k, (List.replicate k '0').foldlM
      (fun acc c => (digitVal? 16 c).map (fun d => acc * 16 + d)) 0 = some 0 := by
    intro k
    induction k with
    | zero => rfl
    | succ k ih => simpa [List.replicate_succ, digitVal?] using ih
  have hfold := foldlM_digits digitVal?_lowerDigitChar (Nat.digits 16 n)
    (fun d hd => Nat.digits_lt_base (by norm_num) hd)
  rw [Nat.ofDigits_digits] at hfold
  rw [parse?, hne, lowerHex, List.leftpad, List.foldlM_append, hzeros]
  simpa using hfold

lemma notMem_lowerHex (hc : digitVal? 16 c = none) (width n : Nat) : c ∉ lowerHex width n := by
  intro hmem
  rw [lowerHex, List.leftpad, List.mem_append, List.mem_replicate, List.mem_map] at hmem
  rcases hmem with ⟨-, rfl⟩ | ⟨d, hd, rfl⟩
  · simp [digitVal?] at hc
  · rw [digitVal?_lowerDigitChar d
      (Nat.digits_lt_base (by norm_num) (List.mem_reverse.1 hd))] at hc
    cases hc

def splitOnce? (sep : Char) : List Char → Option (List Char × List Char)
  | [] => none
  | c :: cs =>
    if c = sep then some ([], cs)
    else (splitOnce? sep cs).map (fun p => (c :: p.1, p.2))

variable {sep : Char}

lemma splitOnce?_append (xs ys : List Char) (h : sep ∉ xs) :
    splitOnce? sep (xs ++ sep :: ys) = some (xs, ys) := by
  induction xs with
  | nil => simp [splitOnce?]
  | cons c xs ih =>
    obtain ⟨hc, hxs⟩ := not_or.mp (List.mem_cons.not.mp h)
    simp [splitOnce?, Ne.symm hc, ih hxs]

variable {cs xs ys : List Char}

lemma eq_append_of_splitOnce? (h : splitOnce? sep cs = some (xs, ys)) : cs = xs ++ sep :: ys := by
  induction cs generalizing xs ys with
  | nil => cases h
  | cons c cs ih =>
    by_cases hc : c = sep
    · simp_all [splitOnce?]
    · obtain ⟨xs', hrest, rfl⟩ : ∃ xs', splitOnce? sep cs = some (xs', ys) ∧ c :: xs' = xs := by
        simpa [splitOnce?, hc] using h
      rw [ih hrest, List.cons_append]

def rsplitOnce? (sep : Char) (cs : List Char) : Option (List Char × List Char) :=
  (splitOnce? sep cs.reverse).map fun p => (p.2.reverse, p.1.reverse)

lemma rsplitOnce?_append (xs : List Char) (h : sep ∉ ys) :
    rsplitOnce? sep (xs ++ sep :: ys) = some (xs, ys) := by
  have hsplit := splitOnce?_append ys.reverse xs.reverse (by simpa using h)
  simp [rsplitOnce?, hsplit]

lemma notMem_of_splitOnce? (h : splitOnce? sep cs = some (xs, ys)) : sep ∉ xs := by
  induction cs generalizing xs ys with
  | nil => cases h
  | cons c cs ih =>
    by_cases hc : c = sep
    · simp_all [splitOnce?]
    · obtain ⟨xs', hrest, rfl⟩ : ∃ xs', splitOnce? sep cs = some (xs', ys) ∧ c :: xs' = xs := by
        simpa [splitOnce?, hc] using h
      exact List.not_mem_cons_of_ne_of_not_mem (Ne.symm hc) (ih hrest)

lemma eq_append_of_rsplitOnce?
    (h : rsplitOnce? sep cs = some (xs, ys)) : cs = xs ++ sep :: ys ∧ sep ∉ ys := by
  obtain ⟨⟨front, back⟩, hsplit, heq⟩ := Option.map_eq_some_iff.1 h
  obtain ⟨rfl, rfl⟩ : back.reverse = xs ∧ front.reverse = ys := by simpa using heq
  have hcs := congrArg List.reverse (eq_append_of_splitOnce? hsplit)
  exact ⟨by simpa using hcs, by simpa using notMem_of_splitOnce? hsplit⟩

lemma notMem_render (hb2 : 2 ≤ b) (hb : b ≤ 16)
    (hc : digitVal? b c = none) (n : Nat) : c ∉ render b n := fun hmem => by
  simpa [hc] using digitVal?_of_mem_render hb2 hb hmem

/-! ## Doubled separators -/

def doubled (sep : Char) (cs : List Char) : List Char :=
  cs.flatMap fun c => if c = sep then [sep, sep] else [c]

@[simp] lemma doubled_nil (sep : Char) : doubled sep [] = [] := rfl

@[simp] lemma doubled_cons_self (sep : Char) (cs : List Char) :
    doubled sep (sep :: cs) = sep :: sep :: doubled sep cs := by
  simp [doubled]

lemma doubled_cons_of_ne (h : c ≠ sep) (cs : List Char) :
    doubled sep (c :: cs) = c :: doubled sep cs := by
  simp [doubled, h]

lemma doubled_injective (sep : Char) : Function.Injective (doubled sep) := by
  intro xs
  induction xs with
  | nil =>
    intro ys h
    cases ys with
    | nil => rfl
    | cons d ys =>
      by_cases hd : d = sep <;> grind [doubled_nil, doubled_cons_self, doubled_cons_of_ne]
  | cons c xs ih =>
    intro ys h
    cases ys with
    | nil => by_cases hc : c = sep <;> grind [doubled_nil, doubled_cons_self, doubled_cons_of_ne]
    | cons d ys =>
      have hrest := @ih ys
      by_cases hc : c = sep <;> by_cases hd : d = sep <;>
        grind [doubled_cons_self, doubled_cons_of_ne]

lemma head?_doubled (sep : Char) (cs : List Char) : (doubled sep cs).head? = cs.head? := by
  cases cs with
  | nil => rfl
  | cons c cs => by_cases hc : c = sep <;> grind [doubled_cons_self, doubled_cons_of_ne]

/-- A run of separators inside a doubled text is even; the odd one is the joint. -/
lemma doubled_append_inj {xs' ys' : List Char} (hys : ys.head? ≠ some sep)
    (hys' : ys'.head? ≠ some sep)
    (h : doubled sep xs ++ sep :: ys = doubled sep xs' ++ sep :: ys') : xs = xs' ∧ ys = ys' := by
  induction xs generalizing xs' with
  | nil =>
    cases xs' with
    | nil => exact ⟨rfl, by simpa using h⟩
    | cons d xs' =>
      by_cases hd : d = sep <;> grind [doubled_nil, doubled_cons_self, doubled_cons_of_ne]
  | cons c xs ih =>
    cases xs' with
    | nil => by_cases hc : c = sep <;> grind [doubled_nil, doubled_cons_self, doubled_cons_of_ne]
    | cons d xs' =>
      have hrest := @ih xs'
      by_cases hc : c = sep <;> by_cases hd : d = sep <;>
        grind [doubled_cons_self, doubled_cons_of_ne]

lemma doubled_append_ne (hys : ys.head? ≠ some sep)
    (zs : List Char) : doubled sep xs ++ sep :: ys ≠ doubled sep zs := by
  induction xs generalizing zs with
  | nil =>
    cases zs with
    | nil => simp
    | cons d zs =>
      by_cases hd : d = sep <;> grind [doubled_nil, doubled_cons_self, doubled_cons_of_ne]
  | cons c xs ih =>
    cases zs with
    | nil => by_cases hc : c = sep <;> grind [doubled_nil, doubled_cons_self, doubled_cons_of_ne]
    | cons d zs =>
      have hrest := ih zs
      by_cases hc : c = sep <;> by_cases hd : d = sep <;>
        grind [doubled_cons_self, doubled_cons_of_ne]

/-! ## White space -/

def isWhiteSpace (c : Char) : Bool :=
  let n := c.toNat
  9 ≤ n && n ≤ 13 || n = 32 || n = 133 || n = 160 || n = 5760 || 8192 ≤ n && n ≤ 8202 || n = 8232 ||
    n = 8233 || n = 8239 || n = 8287 || n = 12288

def trimStart (cs : List Char) : List Char := cs.dropWhile isWhiteSpace

def trimEnd (cs : List Char) : List Char := cs.rdropWhile isWhiteSpace

def trim (cs : List Char) : List Char := trimEnd (trimStart cs)

lemma length_trim_le (cs : List Char) : (trim cs).length ≤ cs.length :=
  (List.rdropWhile_prefix _ _).length_le.trans (List.length_dropWhile_le _ cs)

lemma trim_eq_self_of_ends (hhead : ∀ c ∈ cs.head?, isWhiteSpace c = false)
    (hlast : ∀ c ∈ cs.getLast?, isWhiteSpace c = false) : trim cs = cs := by
  have hstart : trimStart cs = cs := by
    rcases cs with _ | ⟨c, cs⟩
    · rfl
    · exact List.dropWhile_cons_of_neg (by simp [hhead c rfl])
  rw [trim, hstart, trimEnd, List.rdropWhile_eq_self_iff]
  exact fun hne => by simp [hlast _ (List.getLast?_eq_some_getLast hne)]

lemma trim_eq_self (h : ∀ c ∈ cs, isWhiteSpace c = false) : trim cs = cs :=
  trim_eq_self_of_ends (fun c hc => h c (List.mem_of_mem_head? hc))
    fun c hc => h c (List.mem_of_mem_getLast? hc)

def Blank (cs : List Char) : Prop := ∀ c ∈ cs, isWhiteSpace c = true

variable {ws : List Char}

lemma trimEnd_append_blank (h : Blank ws) (cs : List Char) : trimEnd (cs ++ ws) = trimEnd cs := by
  simp only [trimEnd, List.rdropWhile, List.reverse_append]
  rw [List.dropWhile_append_of_pos (by simpa [Blank] using h)]

lemma trim_append_blank (h : Blank ws) (cs : List Char) : trim (cs ++ ws) = trim cs := by
  induction cs with
  | nil =>
    have hnil : trimStart ws = [] := List.dropWhile_eq_nil_iff.2 h
    rw [List.nil_append, trim, hnil]
    rfl
  | cons c cs ih =>
    by_cases hc : isWhiteSpace c = true
    · simpa [trim, trimStart, List.dropWhile_cons_of_pos hc] using ih
    · simp only [trim, trimStart, List.cons_append, List.dropWhile_cons_of_neg hc]
      rw [← List.cons_append, trimEnd_append_blank h]

lemma trim_blank_append (h : Blank ws) (cs : List Char) : trim (ws ++ cs) = trim cs := by
  rw [trim, trimStart, List.dropWhile_append_of_pos h]
  rfl

lemma exists_eq_append_trim (cs : List Char) :
    ∃ ws ws', cs = ws ++ trim cs ++ ws' ∧ Blank ws ∧ Blank ws' := by
  refine ⟨cs.takeWhile isWhiteSpace, (trimStart cs).rtakeWhile isWhiteSpace, ?_, ?_, ?_⟩
  · rw [List.append_assoc, trim, trimEnd, List.rdropWhile_append_rtakeWhile]
    exact (List.takeWhile_append_dropWhile).symm
  · exact fun c hc => List.mem_takeWhile_imp hc
  · exact fun c hc => List.mem_rtakeWhile_imp hc

lemma trim_trim (cs : List Char) : trim (trim cs) = trim cs := by
  obtain ⟨ws, ws', hcs, hws, hws'⟩ := exists_eq_append_trim cs
  conv_rhs => rw [hcs, trim_append_blank hws', trim_blank_append hws]

lemma eq_nil_of_trim_blank_append {ws cs : List Char} (hws : Blank ws)
    (h : trim (ws ++ cs) = ws ++ cs) : ws = [] := by
  have hlen := congrArg List.length h
  have hle := length_trim_le cs
  rw [trim_blank_append hws, List.length_append] at hlen
  exact List.length_eq_zero_iff.1 (by omega)

lemma eq_nil_of_trim_append_blank {ws cs : List Char} (hws : Blank ws)
    (h : trim (cs ++ ws) = cs ++ ws) : ws = [] := by
  have hlen := congrArg List.length h
  have hle := length_trim_le cs
  rw [trim_append_blank hws, List.length_append] at hlen
  exact List.length_eq_zero_iff.1 (by omega)

lemma head?_of_trim_eq_self (h : trim cs = cs) : ∀ c ∈ cs.head?, isWhiteSpace c = false := by
  intro c hc
  obtain ⟨cs, rfl⟩ := List.head?_eq_some_iff.1 hc
  by_contra hblank
  cases @eq_nil_of_trim_blank_append [c] _ (by simpa [Blank] using hblank) h

lemma getLast?_of_trim_eq_self (h : trim cs = cs) : ∀ c ∈ cs.getLast?, isWhiteSpace c = false := by
  intro c hc
  obtain ⟨cs, rfl⟩ := List.getLast?_eq_some_iff.1 hc
  by_contra hblank
  cases @eq_nil_of_trim_append_blank [c] _ (by simpa [Blank] using hblank) h

lemma trimEnd_of_trim_eq_append (h : trim cs = xs ++ ys) : trimEnd ys = ys := by
  rw [trimEnd, List.rdropWhile_eq_self_iff]
  intro hne
  have hlast := List.rdropWhile_last_not isWhiteSpace (trimStart cs)
    (by rw [show (trimStart cs).rdropWhile isWhiteSpace = xs ++ ys from h]; simp [hne])
  simpa only [show (trimStart cs).rdropWhile isWhiteSpace = xs ++ ys from h,
    List.getLast_append_of_ne_nil _ hne] using hlast

def eqIgnoreAsciiCase (a b : List Char) : Bool := a.map Char.toLower = b.map Char.toLower

end Text
