import Mathlib

/-!
# Computations that may fail

What is known of the steps of a computation that has succeeded.
-/

namespace Except

variable {ε α β : Type}

lemma exists_of_bind_eq_ok {x : Except ε α} {f : α → Except ε β} {b : β}
    (h : (x >>= f) = .ok b) : ∃ a, x = .ok a ∧ f a = .ok b := by
  cases x with
  | error => cases h
  | ok a => exact ⟨a, rfl, h⟩

lemma mapM_eq_ok_iff {f : α → Except ε β} {xs : List α} {ys : List β} :
    xs.mapM f = .ok ys ↔ List.Forall₂ (fun x y => f x = .ok y) xs ys := by
  induction xs generalizing ys with
  | nil =>
    rw [List.mapM_nil, List.forall₂_nil_left_iff]
    exact ⟨fun h => (Except.ok.inj h).symm, fun h => by rw [h]; rfl⟩
  | cons x xs ih =>
    rw [List.mapM_cons, List.forall₂_cons_left_iff]
    constructor
    · intro h
      obtain ⟨y, hy, h⟩ := exists_of_bind_eq_ok h
      obtain ⟨rest, hrest, h⟩ := exists_of_bind_eq_ok h
      cases h
      exact ⟨y, rest, hy, ih.1 hrest, rfl⟩
    · rintro ⟨y, rest, hy, hrest, rfl⟩
      rw [hy, ih.2 hrest]
      rfl

lemma exists_mapM_eq_error {f : α → Except ε β} {xs : List α} {x : α} {e : ε} (hx : x ∈ xs)
    (h : f x = .error e) : ∃ e', xs.mapM f = .error e' := by
  cases hall : xs.mapM f with
  | error e' => exact ⟨e', rfl⟩
  | ok ys =>
    obtain ⟨i, hi, rfl⟩ := List.mem_iff_getElem.1 hx
    have hrel := (mapM_eq_ok_iff.1 hall).get hi ((mapM_eq_ok_iff.1 hall).length_eq ▸ hi)
    simp [h] at hrel

end Except

namespace Option

variable {α β : Type*} {f : α → Option β} {g : α → β} {l : List α}

lemma mapM_eq_some_map (h : ∀ a ∈ l, f a = some (g a)) : l.mapM f = some (l.map g) := by
  induction l with
  | nil => rfl
  | cons a l ih =>
    rw [List.mapM_cons, h a List.mem_cons_self, ih fun b hb => h b (List.mem_cons_of_mem a hb)]
    rfl

lemma eq_map_of_mapM_eq_some {bs : List β} (h : ∀ a ∈ l, ∀ b, f a = some b → b = g a)
    (hbs : l.mapM f = some bs) : bs = l.map g := by
  induction l generalizing bs with
  | nil =>
    cases hbs
    rfl
  | cons a l ih =>
    rw [List.mapM_cons] at hbs
    obtain ⟨b, hb, hbs⟩ := Option.bind_eq_some_iff.1 hbs
    obtain ⟨rest, hrest, hbs⟩ := Option.bind_eq_some_iff.1 hbs
    cases hbs
    rw [List.map_cons, h a List.mem_cons_self b hb,
      ih (fun a' ha' => h a' (List.mem_cons_of_mem a ha')) hrest]

end Option
