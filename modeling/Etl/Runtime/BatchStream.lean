import Etl.Lib.Machine

/-!
# Batching of copied rows

`MemoryBatchStream` yields a batch under memory pressure, at its target, when the timer runs out and
at the end of the source. What the surroundings do in one poll is the argument of `pollNext`.
-/

namespace Etl

section

variable {β ε : Type}

structure MemoryBatchStream (β : Type) where
  deadline : Bool
  items : List β
  batchSizeHintBytes : Nat
  innerStreamEnded : Bool
  subscribed : Bool
  pausedForMemory : Bool

/-- The monitor is gone, or no change is left to report. -/
inductive MemoryPoll where
  | closed
  | current (backpressureActive : Bool)

structure PollInput where
  memory : MemoryPoll
  /-- Pressure and target after each item the source has ready. -/
  ready : List (Bool × Fin (2 ^ 64))
  expired : Bool

inductive Polled (β ε : Type) where
  | pending
  | batch (items : List β)
  | error (error : ε)
  | done

def Polled.items : Polled β ε → List β
  | .batch items => items
  | _ => []

namespace MemoryBatchStream

def wrap (subscribed : Bool) : MemoryBatchStream β := ⟨false, [], 0, false, subscribed, false⟩

def takeBatch (s : MemoryBatchStream β) : MemoryBatchStream β :=
  { s with deadline := false, items := [], batchSizeHintBytes := 0 }

def pollMemoryBackpressure (s : MemoryBatchStream β) (memory : MemoryPoll) : MemoryBatchStream β :=
  if s.subscribed then
    match memory with
    | .closed => { s with subscribed := false, pausedForMemory := false }
    | .current active => { s with pausedForMemory := active }
  else { s with pausedForMemory := false }

def push (sizeHint : β → Nat) (s : MemoryBatchStream β) (item : β) : MemoryBatchStream β :=
  { s with
    deadline := s.deadline || s.items.isEmpty
    items := s.items ++ [item]
    batchSizeHintBytes := Machine.saturatingAdd (2 ^ 64 - 1) s.batchSizeHintBytes (sizeHint item) }

/-- The items that are ready, and the check of the timer behind them. -/
def pollSource (sizeHint : β → Nat) (expired : Bool) : List (Bool × Fin (2 ^ 64)) →
    MemoryBatchStream β → List (Except ε β) →
    Polled β ε × MemoryBatchStream β × List (Except ε β)
  | [], s, source =>
    if !s.items.isEmpty && s.deadline && expired then (.batch s.items, s.takeBatch, source)
    else (.pending, s, source)
  | (active, target) :: ready, s, .ok item :: source =>
    let s := s.push sizeHint item
    if s.subscribed && active then
      (.batch s.items, { s.takeBatch with pausedForMemory := true }, source)
    else if target ≤ s.batchSizeHintBytes then (.batch s.items, s.takeBatch, source)
    else pollSource sizeHint expired ready s source
  | _ :: _, s, .error error :: source =>
    (.error error, { s.takeBatch with innerStreamEnded := true }, source)
  | _ :: _, s, [] =>
    (if s.items.isEmpty then .done else .batch s.items,
      { s.takeBatch with innerStreamEnded := true }, [])

def pollNext (sizeHint : β → Nat) (input : PollInput) (s : MemoryBatchStream β)
    (source : List (Except ε β)) : Polled β ε × MemoryBatchStream β × List (Except ε β) :=
  if s.innerStreamEnded then (.done, s, source)
  else
    let s := s.pollMemoryBackpressure input.memory
    if s.pausedForMemory then
      if s.items.isEmpty then (.pending, s, source) else (.batch s.items, s.takeBatch, source)
    else pollSource sizeHint input.expired input.ready s source

def run (sizeHint : β → Nat) : List PollInput → MemoryBatchStream β → List (Except ε β) →
    List (Polled β ε) × MemoryBatchStream β × List (Except ε β)
  | [], s, source => ([], s, source)
  | input :: inputs, s, source =>
    let (answer, s, source) := s.pollNext sizeHint input source
    let (answers, s, source) := run sizeHint inputs s source
    (answer :: answers, s, source)

end MemoryBatchStream

def itemsOf : List (Except ε β) → List β
  | .ok item :: source => item :: itemsOf source
  | _ => []

def EndsWithoutError (source : List (Except ε β)) : Prop := ∀ e, .error e ∉ source

/-! ## What is buffered -/

namespace MemoryBatchStream

variable {sizeHint : β → Nat} {total source : List (Except ε β)} {yielded : List β}
  {s : MemoryBatchStream β}

/-- The tracked size is that of the buffer, and the timer runs while it is not empty. -/
structure Tidy (sizeHint : β → Nat) (s : MemoryBatchStream β) : Prop where
  size : s.batchSizeHintBytes = (s.items.map sizeHint).sum
  armed : s.deadline = true ↔ s.items ≠ []

/-- What has been yielded, what is buffered and what is left. -/
structure Accounts (total : List (Except ε β)) (yielded : List β) (s : MemoryBatchStream β)
    (source : List (Except ε β)) : Prop where
  streaming : s.innerStreamEnded = false → yielded ++ s.items ++ itemsOf source = itemsOf total
  ended : s.innerStreamEnded = true → s.items = [] ∧ yielded <+: itemsOf total ∧
    (EndsWithoutError total → yielded = itemsOf total)
  errors : EndsWithoutError total → EndsWithoutError source

structure Answers (sizeHint : β → Nat) (total : List (Except ε β)) (yielded : List β)
    (result : Polled β ε × MemoryBatchStream β × List (Except ε β)) : Prop where
  accounts : Accounts total (yielded ++ result.1.items) result.2.1 result.2.2
  tidy : result.2.1.Tidy sizeHint
  nonempty : result.1 ≠ .batch []
  final : result.1 = .done ∨ (∃ e, result.1 = .error e) → result.2.1.innerStreamEnded = true

lemma Accounts.flush (h : Accounts total yielded s source) (hlive : s.innerStreamEnded = false)
    (hitems : s.items ≠ []) (paused : Bool) :
    Answers sizeHint total yielded
      (.batch s.items, { s.takeBatch with pausedForMemory := paused }, source) where
  accounts :=
    { streaming := fun _ => by simpa [takeBatch, Polled.items] using h.streaming hlive
      ended := fun hended => by simp [takeBatch, hlive] at hended
      errors := h.errors }
  tidy := ⟨rfl, by simp [takeBatch]⟩
  nonempty := by simpa using hitems
  final := by simp

lemma Accounts.wait (h : Accounts total yielded s source) (ht : s.Tidy sizeHint) :
    Answers sizeHint total yielded (.pending, s, source) :=
  ⟨by simpa [Polled.items] using h, ht, by simp, by simp⟩

lemma Accounts.push {item : β} (h : Accounts total yielded s (.ok item :: source))
    (hlive : s.innerStreamEnded = false) :
    Accounts total yielded (s.push sizeHint item) source where
  streaming _ := by simpa [MemoryBatchStream.push, itemsOf] using h.streaming hlive
  ended hended := by simp [MemoryBatchStream.push, hlive] at hended
  errors hnone e he := h.errors hnone e (List.mem_cons_of_mem _ he)

/-- A sum that was cut off has reached every target, so a batch that stays is counted exactly. -/
lemma Tidy.push (h : s.Tidy sizeHint) {item : β} {target : Fin (2 ^ 64)}
    (hbelow : ¬ target ≤ (s.push sizeHint item).batchSizeHintBytes) :
    (s.push sizeHint item).Tidy sizeHint := by
  have htarget := target.isLt
  have hsize := h.size
  simp only [MemoryBatchStream.push, Machine.saturatingAdd] at hbelow ⊢
  refine ⟨?_, ?_⟩
  · simp only [List.map_append, List.map_cons, List.map_nil, List.sum_append, List.sum_singleton]
    omega
  · simp [h.armed, or_comm, em]

lemma Accounts.done (h : Accounts total yielded s source) (hlive : s.innerStreamEnded = false)
    {answer : Polled β ε} (hitems : answer.items ++ itemsOf source <+: s.items ++ itemsOf source)
    (hall : EndsWithoutError source → answer.items = s.items ++ itemsOf source)
    (hne : answer ≠ .batch []) {source' : List (Except ε β)}
    (hrest : EndsWithoutError source → EndsWithoutError source') :
    Answers sizeHint total yielded
      (answer, { s.takeBatch with innerStreamEnded := true }, source') where
  accounts :=
    { streaming := fun hended => by simp at hended
      ended := fun _ => by
        have htotal := h.streaming hlive
        refine ⟨rfl, ?_, fun hnone => ?_⟩
        · rw [← htotal, List.append_assoc]
          exact (List.prefix_append_right_inj _).2 ((List.prefix_append _ _).trans hitems)
        · rw [← htotal, hall (h.errors hnone), List.append_assoc]
      errors := fun hnone => hrest (h.errors hnone) }
  tidy := ⟨rfl, by simp [takeBatch]⟩
  nonempty := hne
  final _ := rfl

lemma Accounts.pollSource (expired : Bool) (ready : List (Bool × Fin (2 ^ 64)))
    (h : Accounts total yielded s source) (ht : s.Tidy sizeHint)
    (hlive : s.innerStreamEnded = false) :
    Answers sizeHint total yielded (s.pollSource sizeHint expired ready source) := by
  fun_induction MemoryBatchStream.pollSource sizeHint expired ready s source with
  | case1 s source hexpired => exact h.flush hlive (by simp_all) _
  | case2 s source hexpired => exact h.wait ht
  | case3 s active target ready item source s' hactive =>
    exact (h.push hlive).flush hlive (by simp [MemoryBatchStream.push]) true
  | case4 s active target ready item source s' hactive htarget =>
    exact (h.push hlive).flush hlive (by simp [MemoryBatchStream.push]) _
  | case5 s active target ready item source s' hactive htarget ih =>
    exact ih (h.push hlive) (ht.push htarget) hlive
  | case6 s _ _ error source =>
    refine h.done hlive (by simp [Polled.items, itemsOf]) (fun hnone => ?_) (by simp)
      fun hnone e he => hnone e (List.mem_cons_of_mem _ he)
    exact absurd List.mem_cons_self (hnone error)
  | case7 s _ _ =>
    refine h.done hlive ?_ ?_ ?_ id <;> split <;> simp_all [Polled.items, itemsOf]

lemma exists_pollMemoryBackpressure_eq (s : MemoryBatchStream β) (memory : MemoryPoll) :
    ∃ subscribed paused, s.pollMemoryBackpressure memory =
      { s with subscribed := subscribed, pausedForMemory := paused } := by
  unfold pollMemoryBackpressure
  split
  · cases memory with
    | closed => exact ⟨false, false, rfl⟩
    | current active => exact ⟨_, active, rfl⟩
  · exact ⟨_, false, rfl⟩

lemma Accounts.pollNext (h : Accounts total yielded s source) (ht : s.Tidy sizeHint)
    (input : PollInput) :
    Answers sizeHint total yielded (s.pollNext sizeHint input source) := by
  rw [MemoryBatchStream.pollNext]
  split
  · rename_i hended
    exact ⟨by simpa [Polled.items] using h, ht, by simp, fun _ => hended⟩
  · rename_i hlive
    obtain ⟨subscribed, paused, heq⟩ := s.exists_pollMemoryBackpressure_eq input.memory
    rw [heq]
    have hlive : s.innerStreamEnded = false := by simpa using hlive
    have h' : Accounts total yielded
        { s with subscribed := subscribed, pausedForMemory := paused } source :=
      ⟨h.streaming, h.ended, h.errors⟩
    simp only
    split_ifs with hpaused hempty
    · exact h'.wait ⟨ht.size, ht.armed⟩
    · exact h'.flush hlive (by simpa using hempty) _
    · exact h'.pollSource _ _ ⟨ht.size, ht.armed⟩ hlive

lemma run_of_ended (hended : s.innerStreamEnded = true) (inputs : List PollInput) :
    s.run sizeHint inputs source = (inputs.map fun _ => .done, s, source) := by
  induction inputs with
  | nil => rfl
  | cons input inputs ih => simp [run, pollNext, hended, ih]

lemma Accounts.run (inputs : List PollInput) (h : Accounts total yielded s source)
    (ht : s.Tidy sizeHint) :
    let (answers, s', source') := s.run sizeHint inputs source
    Accounts total (yielded ++ answers.flatMap Polled.items) s' source' ∧ s'.Tidy sizeHint ∧
      .batch [] ∉ answers ∧
      (.done ∈ answers ∨ (∃ e, .error e ∈ answers) → s'.innerStreamEnded = true) := by
  induction inputs generalizing s source yielded with
  | nil => simpa [MemoryBatchStream.run] using ⟨h, ht⟩
  | cons input inputs ih =>
    have hfirst := h.pollNext ht input
    simp only [MemoryBatchStream.run]
    generalize s.pollNext sizeHint input source = result at hfirst ⊢
    obtain ⟨haccounts, htidy, hbatch, hfinal⟩ := ih hfirst.accounts hfirst.tidy
    refine ⟨by simpa using haccounts, htidy, by simp [hfirst.nonempty.symm, hbatch], fun hmem => ?_⟩
    by_cases hended : result.2.1.innerStreamEnded = true
    · rw [run_of_ended hended]
      exact hended
    · refine hfinal ?_
      have hlive := mt hfirst.final hended
      grind

end MemoryBatchStream

lemma eq_map_itemsOf {source : List (Except ε β)} (h : EndsWithoutError source) :
    source = (itemsOf source).map .ok := by
  induction source with
  | nil => rfl
  | cons x source ih =>
    cases x with
    | error e => exact absurd List.mem_cons_self (h e)
    | ok item => simpa [itemsOf] using ih fun e he => h e (List.mem_cons_of_mem _ he)

end

end Etl
