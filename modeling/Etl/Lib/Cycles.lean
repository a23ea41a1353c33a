import Mathlib

/-!
# Cycles of a relation

Where every element of a finite set has a successor in it, and no two the same, every element is on
a cycle.
-/

/-- A circular walk along the relation that meets no element twice. -/
structure IsCycleOf {α : Type*} (r : α → α → Prop) (c : Cycle α) : Prop where
  chain : c.Chain r
  nodup : c.Nodup

namespace Cycle

variable {α : Type*} {r : α → α → Prop} {c : Cycle α} {a : α}

lemma exists_eq_cons_of_mem (h : a ∈ c) : ∃ l : List α, c = (a :: l : List α) := by
  induction c using Quotient.inductionOn' with
  | h l =>
    obtain ⟨before, after, rfl⟩ := List.append_of_mem h
    exact ⟨after ++ before, Quotient.sound' ⟨before.length, by simp⟩⟩

lemma exists_mem_rel_ne (hc : IsCycleOf r c) (hlength : 2 ≤ c.length) (h : a ∈ c) :
    ∃ b ∈ c, r a b ∧ a ≠ b := by
  obtain ⟨l, rfl⟩ := exists_eq_cons_of_mem h
  rcases l with _ | ⟨b, l⟩
  · simp at hlength
  · have hchain := (chain_coe_cons r a (b :: l)).1 hc.chain
    have hnodup := nodup_coe_iff.1 hc.nodup
    exact ⟨b, by simp, (List.isChain_cons_cons.1 hchain).1,
      fun heq => (List.nodup_cons.1 hnodup).1 (heq ▸ List.mem_cons_self)⟩

lemma Chain.forall_mem (hc : c.Chain r) {p : α → Prop} (hp : ∀ {x y}, r x y → p x → p y)
    (h : a ∈ c) (ha : p a) : ∀ b ∈ c, p b := by
  obtain ⟨l, rfl⟩ := exists_eq_cons_of_mem h
  rw [chain_coe_cons, ← List.cons_append] at hc
  have hchain : List.IsChain r (a :: l) := hc.left_of_append
  have hall : ∀ {l : List α} {a}, List.IsChain r (a :: l) → p a → ∀ b ∈ a :: l, p b := by
    intro l
    induction l with
    | nil =>
      intro a _ ha b hb
      rwa [List.mem_singleton.1 hb]
    | cons x l ih =>
      intro a hchain ha b hb
      obtain ⟨hstep, hrest⟩ := List.isChain_cons_cons.1 hchain
      rcases List.mem_cons.1 hb with rfl | hb
      · exact ha
      · exact ih hrest (hp hstep ha) b hb
  exact fun b hb => hall hchain ha b (mem_coe_iff.1 hb)

lemma Chain.two_le_length (hc : c.Chain r) (h : a ∈ c) (hne : ¬ r a a) : 2 ≤ c.length := by
  obtain ⟨l, rfl⟩ := exists_eq_cons_of_mem h
  rcases l with _ | ⟨b, l⟩
  · exact absurd ((chain_singleton r a).1 hc) hne
  · simp

lemma exists_isCycleOf {s : Set α} (hs : s.Finite) (hnext : ∀ x ∈ s, ∃ y ∈ s, r x y)
    (hinj : ∀ {x x' y}, x ∈ s → x' ∈ s → r x y → r x' y → x = x') (ha : a ∈ s) :
    ∃ c, IsCycleOf r c ∧ a ∈ c := by
  choose! f hfs hfr using hnext
  let g : s → s := fun x => ⟨f x, hfs x x.2⟩
  have hg : Function.Injective g := fun x x' heq => by
    have hval : f x = f x' := congrArg Subtype.val heq
    exact Subtype.ext (hinj x.2 x'.2 (hfr x x.2) (hval ▸ hfr x' x'.2))
  have : Finite s := hs
  have hperiodic : (⟨a, ha⟩ : s) ∈ Function.periodicPts g := hg.mem_periodicPts _
  refine ⟨(Function.periodicOrbit g ⟨a, ha⟩).map Subtype.val, ⟨?_, ?_⟩, ?_⟩
  · rw [chain_map, Function.periodicOrbit_chain]
    intro n _
    rw [Function.iterate_succ_apply']
    exact hfr _ (Subtype.property _)
  · exact Function.nodup_periodicOrbit.map Subtype.val_injective
  · exact mem_map.2 ⟨_, Function.self_mem_periodicOrbit hperiodic, rfl⟩

end Cycle
