import Mathlib

/-!
# Cooperative tasks and what their steps guarantee

A `Prog` is a tree of *atoms*, pieces that run without giving other tasks a turn. An atom reads an
input of the scheduler and may be blocked. `Prog.Sat I G E p Q l`: from the local memory `l`, while
the others keep `I`, every atom of `p` makes a step allowed by `G`, a result satisfies `Q` and a
failure `E`. `Q` and `E` speak about the local memory only, so that no other task invalidates them.
-/

inductive Prog (ε ι lo sh : Type) (α : Type) : Type 1 where
  | done (a : α)
  | fail (e : ε)
  | atom {β : Type} (f : ι → lo → sh → Option (β × lo × sh)) (k : β → Prog ε ι lo sh α)

namespace Prog

variable {ε ι lo sh α β γ : Type}

def bind : Prog ε ι lo sh α → (α → Prog ε ι lo sh β) → Prog ε ι lo sh β
  | .done a, k => k a
  | .fail e, _ => .fail e
  | .atom f g, k => .atom f fun b => (g b).bind k

instance : Monad (Prog ε ι lo sh) where
  pure := .done
  bind := .bind

def result? : Prog ε ι lo sh α → Option α
  | .done a => some a
  | _ => none

lemma result?_eq_some {p : Prog ε ι lo sh α} {a : α} : p.result? = some a ↔ p = .done a := by
  cases p <;> simp [result?]

def attempt : Prog ε ι lo sh α → Prog ε ι lo sh (Except ε α)
  | .done a => .done (.ok a)
  | .fail e => .done (.error e)
  | .atom f g => .atom f fun b => (g b).attempt

def act (f : lo → β × lo) : Prog ε ι lo sh β :=
  .atom (fun _ l s => some ((f l).1, (f l).2, s)) .done

def ofExcept : Except ε α → Prog ε ι lo sh α
  | .ok a => .done a
  | .error e => .fail e

def call (f : ι → lo → sh → Option (Except ε β × lo × sh)) : Prog ε ι lo sh β :=
  .atom f ofExcept

/-- Until one answers, as an early return from a loop does. -/
def findFirst (f : α → Prog ε ι lo sh (Option β)) : List α → Prog ε ι lo sh (Option β)
  | [] => .done none
  | a :: as => (f a).bind fun
    | some b => .done (some b)
    | none => findFirst f as

/-! ## What the atoms of a program guarantee -/

variable {I : lo → sh → Prop} {G : lo → sh → lo → sh → Prop} {E E' : ε → lo → Prop} {l : lo}

def Sat (I : lo → sh → Prop) (G : lo → sh → lo → sh → Prop) (E : ε → lo → Prop) :
    Prog ε ι lo sh α → (α → lo → Prop) → lo → Prop
  | .done a, Q, l => Q a l
  | .fail e, _, l => E e l
  | .atom f k, Q, l => ∀ i s b l' s', I l s → f i l s = some (b, l', s') →
      G l s l' s' ∧ Sat I G E (k b) Q l'

lemma Sat.mono {p : Prog ε ι lo sh α} {Q Q' : α → lo → Prop} (h : Sat I G E p Q l)
    (hQ : ∀ a l', Q a l' → Q' a l') (hE : ∀ e l', E e l' → E' e l') : Sat I G E' p Q' l := by
  induction p generalizing l with
  | done a => exact hQ _ _ h
  | fail e => exact hE _ _ h
  | atom f k ih =>
    intro i s b l' s' hI hf
    exact ⟨(h i s b l' s' hI hf).1, ih b (h i s b l' s' hI hf).2⟩

lemma Sat.weaken {I' : lo → sh → Prop} {G' : lo → sh → lo → sh → Prop} {p : Prog ε ι lo sh α}
    {Q : α → lo → Prop} (h : Sat I G E p Q l) (hI : ∀ l s, I' l s → I l s)
    (hG : ∀ l s l' s', G l s l' s' → G' l s l' s') : Sat I' G' E p Q l := by
  induction p generalizing l with
  | done a => exact h
  | fail e => exact h
  | atom f k ih =>
    intro i s b l' s' hI' hf
    exact ⟨hG _ _ _ _ (h i s b l' s' (hI _ _ hI') hf).1, ih b (h i s b l' s' (hI _ _ hI') hf).2⟩

lemma Sat.preserve {R : lo → Prop} {p : Prog ε ι lo sh α} {Q : α → lo → Prop}
    (hR : ∀ l s l' s', G l s l' s' → R l → R l') (h : Sat I G E p Q l) (hl : R l) :
    Sat I G (fun e l => E e l ∧ R l) p (fun a l => Q a l ∧ R l) l := by
  induction p generalizing l with
  | done a => exact ⟨h, hl⟩
  | fail e => exact ⟨h, hl⟩
  | atom f k ih =>
    intro i s b l' s' hI hf
    have hstep := h i s b l' s' hI hf
    exact ⟨hstep.1, ih b hstep.2 (hR _ _ _ _ hstep.1 hl)⟩

lemma sat_bind_iff {p : Prog ε ι lo sh α} {k : α → Prog ε ι lo sh β} {Q : β → lo → Prop} :
    Sat I G E (p >>= k) Q l ↔ Sat I G E p (fun a l' => Sat I G E (k a) Q l') l := by
  show Sat I G E (p.bind k) Q l ↔ _
  induction p generalizing l with
  | done a => exact Iff.rfl
  | fail e => exact Iff.rfl
  | atom f g ih =>
    constructor
    · intro h i s b l' s' hI hf
      exact ⟨(h i s b l' s' hI hf).1, (ih b).1 (h i s b l' s' hI hf).2⟩
    · intro h i s b l' s' hI hf
      exact ⟨(h i s b l' s' hI hf).1, (ih b).2 (h i s b l' s' hI hf).2⟩

lemma Sat.bind {p : Prog ε ι lo sh α} {k : α → Prog ε ι lo sh β} {R : α → lo → Prop}
    {Q : β → lo → Prop} (hp : Sat I G E p R l) (hk : ∀ a l', R a l' → Sat I G E (k a) Q l') :
    Sat I G E (p >>= k) Q l :=
  sat_bind_iff.2 (hp.mono hk fun _ _ he => he)

lemma sat_attempt_iff {p : Prog ε ι lo sh α} {Q : Except ε α → lo → Prop} :
    Sat I G E p.attempt Q l ↔ Sat I G (fun e => Q (.error e)) p (fun a => Q (.ok a)) l := by
  induction p generalizing l with
  | done a => exact Iff.rfl
  | fail e => exact Iff.rfl
  | atom f g ih =>
    constructor
    · intro h i s b l' s' hI hf
      exact ⟨(h i s b l' s' hI hf).1, (ih b).1 (h i s b l' s' hI hf).2⟩
    · intro h i s b l' s' hI hf
      exact ⟨(h i s b l' s' hI hf).1, (ih b).2 (h i s b l' s' hI hf).2⟩

lemma sat_act {f : lo → β × lo} {Q : β → lo → Prop} (hG : ∀ s, I l s → G l s (f l).2 s)
    (hQ : Q (f l).1 (f l).2) : Sat I G E (act f : Prog ε ι lo sh β) Q l := by
  intro i s b l' s' hI hf
  simp only [Option.some.injEq, Prod.mk.injEq] at hf
  obtain ⟨rfl, rfl, rfl⟩ := hf
  exact ⟨hG s hI, hQ⟩

lemma sat_atom {f : ι → lo → sh → Option (β × lo × sh)} {Q : β → lo → Prop}
    (h : ∀ i s b l' s', I l s → f i l s = some (b, l', s') → G l s l' s' ∧ Q b l') :
    Sat I G E (.atom f .done) Q l :=
  h

lemma sat_ofExcept {r : Except ε α} {Q : α → lo → Prop} (hok : ∀ a, r = .ok a → Q a l)
    (herr : ∀ e, r = .error e → E e l) : Sat I G E (ofExcept r : Prog ε ι lo sh α) Q l := by
  cases r with
  | ok a => exact hok a rfl
  | error e => exact herr e rfl

lemma sat_call {f : ι → lo → sh → Option (Except ε β × lo × sh)} {Q : β → lo → Prop}
    (hok : ∀ i s b l' s', I l s → f i l s = some (.ok b, l', s') → G l s l' s' ∧ Q b l')
    (herr : ∀ i s e l' s', I l s → f i l s = some (.error e, l', s') → G l s l' s' ∧ E e l') :
    Sat I G E (call f) Q l := by
  intro i s r l' s' hI hf
  cases r with
  | ok b => exact hok i s b l' s' hI hf
  | error e => exact herr i s e l' s' hI hf

lemma sat_ite {c : Prop} [Decidable c] {p q : Prog ε ι lo sh α} {Q : α → lo → Prop}
    (hp : c → Sat I G E p Q l) (hq : ¬ c → Sat I G E q Q l) :
    Sat I G E (if c then p else q) Q l := by
  split
  · exact hp ‹_›
  · exact hq ‹_›

/-- The loop rule: an assertion that a round without an answer keeps. -/
lemma sat_findFirst {f : α → Prog ε ι lo sh (Option β)} {R : lo → Prop}
    {Q : Option β → lo → Prop} {as : List α} (hstep : ∀ a ∈ as, ∀ l', R l' →
      Sat I G E (f a) (fun r l'' => (r = none → R l'') ∧ (r ≠ none → Q r l'')) l')
    (hdone : ∀ l', R l' → Q none l') (hl : R l) : Sat I G E (findFirst f as) Q l := by
  induction as generalizing l with
  | nil => exact hdone l hl
  | cons a as ih =>
    refine Sat.bind (hstep a List.mem_cons_self l hl) ?_
    intro r l' hr
    cases r with
    | some b => exact hr.2 (Option.some_ne_none b)
    | none => exact ih (fun x hx => hstep x (List.mem_cons_of_mem a hx)) (hr.1 rfl)

/-! ## Programs that end -/

/-- The program is never blocked and ends, with a result that satisfies `Q` or with a failure. -/
def Ends : Prog ε ι lo sh α → (α → lo → Prop) → lo → Prop
  | .done a, Q, l => Q a l
  | .fail _, _, _ => True
  | .atom f k, Q, l => ∀ i s, ∃ b l' s', f i l s = some (b, l', s') ∧ Ends (k b) Q l'

lemma Ends.mono {p : Prog ε ι lo sh α} {Q Q' : α → lo → Prop} (h : Ends p Q l)
    (hQ : ∀ a l', Q a l' → Q' a l') : Ends p Q' l := by
  induction p generalizing l with
  | done a => exact hQ _ _ h
  | fail e => exact h
  | atom f k ih =>
    intro i s
    obtain ⟨b, l', s', hf, hrest⟩ := h i s
    exact ⟨b, l', s', hf, ih b hrest⟩

lemma ends_bind_iff {p : Prog ε ι lo sh α} {k : α → Prog ε ι lo sh β} {Q : β → lo → Prop} :
    Ends (p >>= k) Q l ↔ Ends p (fun a l' => Ends (k a) Q l') l := by
  show Ends (p.bind k) Q l ↔ _
  induction p generalizing l with
  | done a => exact Iff.rfl
  | fail e => exact Iff.rfl
  | atom f g ih =>
    constructor
    · intro h i s
      obtain ⟨b, l', s', hf, hrest⟩ := h i s
      exact ⟨b, l', s', hf, (ih b).1 hrest⟩
    · intro h i s
      obtain ⟨b, l', s', hf, hrest⟩ := h i s
      exact ⟨b, l', s', hf, (ih b).2 hrest⟩

lemma ends_act {f : lo → β × lo} {Q : β → lo → Prop} (hQ : Q (f l).1 (f l).2) :
    Ends (act f : Prog ε ι lo sh β) Q l :=
  fun _ s => ⟨(f l).1, (f l).2, s, rfl, hQ⟩

end Prog

/-! ## Threads of control -/

/-- The program at each label, which ends by naming the next, and the one after a failure. -/
structure Script (ε ι lo sh Lab : Type) where
  body : Lab → Prog ε ι lo sh Lab
  onError : ε → Prog ε ι lo sh Lab

structure Thread (ε ι lo sh Lab : Type) where
  loc : lo
  prog : Prog ε ι lo sh Lab

variable {ε ι lo sh Lab : Type}

def Thread.step (c : Script ε ι lo sh Lab) (i : ι) (t : Thread ε ι lo sh Lab) (s : sh) :
    Option (Thread ε ι lo sh Lab × sh) :=
  match t.prog with
  | .done lab => some ({ t with prog := c.body lab }, s)
  | .fail e => some ({ t with prog := c.onError e }, s)
  | .atom f k => (f i t.loc s).map fun r => (⟨r.2.1, k r.1⟩, r.2.2)

/-- `Pre` holds where a label is entered and `E` where the error handler takes over. -/
structure Script.Guarantees (c : Script ε ι lo sh Lab) (I : lo → sh → Prop)
    (G : lo → sh → lo → sh → Prop) (Pre : Lab → lo → Prop) (E : ε → lo → Prop) : Prop where
  body : ∀ lab l, Pre lab l → Prog.Sat I G E (c.body lab) Pre l
  onError : ∀ e l, E e l → Prog.Sat I G E (c.onError e) Pre l

/-- A turn is a step of `G` or leaves both memories alone, and the rest guarantees `G` as well. -/
lemma Thread.step_guarantees {c : Script ε ι lo sh Lab} {I : lo → sh → Prop}
    {G : lo → sh → lo → sh → Prop} {Pre : Lab → lo → Prop} {E : ε → lo → Prop}
    (hc : c.Guarantees I G Pre E) {i : ι} {t t' : Thread ε ι lo sh Lab} {s s' : sh}
    (ht : Prog.Sat I G E t.prog Pre t.loc) (hI : I t.loc s) (h : t.step c i s = some (t', s')) :
    Prog.Sat I G E t'.prog Pre t'.loc ∧ (G t.loc s t'.loc s' ∨ t'.loc = t.loc ∧ s' = s) := by
  obtain ⟨l, p⟩ := t
  cases p with
  | done lab =>
    simp only [Thread.step, Option.some.injEq, Prod.mk.injEq] at h
    obtain ⟨rfl, rfl⟩ := h
    exact ⟨hc.body lab l ht, .inr ⟨rfl, rfl⟩⟩
  | fail e =>
    simp only [Thread.step, Option.some.injEq, Prod.mk.injEq] at h
    obtain ⟨rfl, rfl⟩ := h
    exact ⟨hc.onError e l ht, .inr ⟨rfl, rfl⟩⟩
  | atom f k =>
    simp only [Thread.step, Option.map_eq_some_iff, Prod.mk.injEq] at h
    obtain ⟨⟨b, l', s''⟩, hf, rfl, rfl⟩ := h
    exact ⟨(ht i s b l' s'' hI hf).2, .inl (ht i s b l' s'' hI hf).1⟩
