import Mathlib
import Etl.TableCopy.Workers

/-!
# A completed copy is complete

Every range, row, batch and count is in the queue, with a worker, or done (`Books`), as long as no
worker has stopped early; one that did keeps the copy from completing.
-/

namespace Etl

lemma add_sum_update {ι σ M : Type*} [Fintype ι] [DecidableEq ι] [AddCancelCommMonoid M]
    (f : σ → M) {g : ι → σ} {i : ι} {s : σ} {a a' r r' : M} (hbalanced : a + ∑ j, f (g j) = r)
    (hlocal : a' + f s + r = a + f (g i) + r') :
    a' + ∑ j, f (Function.update g i s j) = r' := by
  have hothers : ∀ j ∈ Finset.univ.erase i, f (Function.update g i s j) = f (g j) := fun j hj => by
    rw [Function.update_of_ne (Finset.ne_of_mem_erase hj)]
  have hbefore := Finset.add_sum_erase Finset.univ (fun j => f (g j)) (Finset.mem_univ i)
  have hafter := Finset.add_sum_erase Finset.univ (fun j => f (Function.update g i s j))
    (Finset.mem_univ i)
  rw [Finset.sum_congr rfl hothers] at hafter
  simp only [Function.update_self] at hafter
  rw [← hafter]
  rw [← hbefore] at hbalanced
  refine add_left_cancel (a := a + f (g i)) ?_
  calc a + f (g i) + (a' + (f s + ∑ j ∈ Finset.univ.erase i, f (g j)))
      = a' + f s + (a + (f (g i) + ∑ j ∈ Finset.univ.erase i, f (g j))) := by abel
    _ = a + f (g i) + r' := by rw [hbalanced, hlocal]

/-! ## What a worker holds -/

namespace CopyWorker

def IsHealthy : CopyWorker → Prop
  | .shutdown | .failed _ => False
  | _ => True

def IsDone : CopyWorker → Prop
  | .committing _ | .completed _ | .joined => True
  | _ => False

def held : CopyWorker → Multiset TableCopyPartition
  | .claimed partition _ | .streaming partition .. | .writing partition .. => {partition}
  | _ => 0

def unsent (rowsOf : TableCopyPartition → List TableRow) : CopyWorker → Multiset TableRow
  | .claimed partition _ => rowsOf partition
  | .streaming _ remaining .. | .writing _ _ _ remaining .. => remaining
  | _ => 0

def uncounted : CopyWorker → Nat
  | .looking progress | .claimed _ progress | .committing progress | .completed progress =>
    progress.totalRows
  | .streaming _ _ streamed progress => progress.totalRows + streamed.totalRows
  | .writing _ _ rows _ streamed progress =>
    progress.totalRows + streamed.totalRows + rows.length
  | _ => 0

def unacknowledged : CopyWorker → Multiset TableCopyBatchId
  | .writing _ batchId .. => {batchId}
  | _ => 0

def barrierRequired : CopyWorker → Bool
  | .looking progress | .claimed _ progress | .committing progress | .completed progress =>
    progress.barrierRequired
  | .streaming _ _ streamed progress | .writing _ _ _ _ streamed progress =>
    progress.barrierRequired || streamed.barrierRequired
  | _ => false

end CopyWorker

namespace TableCopy

variable {n : Nat} {rowsOf : TableCopyPartition → List TableRow} {attemptId : Nat}
  {plan : List TableCopyPartition} {copy copy' : TableCopy n}

def rowsOfAll (rowsOf : TableCopyPartition → List TableRow) (partitions : List TableCopyPartition) :
    Multiset TableRow := (partitions.flatMap rowsOf : List TableRow)

def sentRows (copy : TableCopy n) : Multiset TableRow := (copy.sent.flatMap (·.2) : List TableRow)

/-- Nothing is lost or done twice while no worker has stopped early. -/
structure Books (rowsOf : TableCopyPartition → List TableRow) (plan : List TableCopyPartition)
    (copy : TableCopy n) : Prop where
  ranges : (copy.queue : Multiset TableCopyPartition) + (copy.streamed.map (·.2) : List _) +
    ∑ w, (copy.workers w).held = (plan : Multiset TableCopyPartition)
  rows : copy.sentRows + rowsOfAll rowsOf copy.queue + ∑ w, (copy.workers w).unsent rowsOf =
    rowsOfAll rowsOf plan
  counts : copy.progress.totalRows + ∑ w, (copy.workers w).uncounted =
    (copy.sent.map (·.2.length)).sum
  acknowledgements : (copy.acknowledged.map (·.1) : List TableCopyBatchId) +
    ∑ w, (copy.workers w).unacknowledged = (copy.sent.map (·.1) : List TableCopyBatchId)
  barrier : (copy.progress.barrierRequired ∨ ∃ w, (copy.workers w).barrierRequired) ↔
    ∃ a ∈ copy.acknowledged, a.2 = .accepted
  drained : ∀ w, (copy.workers w).IsDone → copy.queue = []

def Numbered (attemptId : Nat) (copy : TableCopy n) : Prop :=
  copy.sent.map (·.1) = (List.range copy.nextSequence).map (TableCopyBatchId.mk attemptId)

structure Move (rowsOf : TableCopyPartition → List TableRow) (copy : TableCopy n) (w : Fin n)
    (worker : CopyWorker) (copy' : TableCopy n) : Prop where
  workers : copy'.workers = Function.update copy.workers w worker
  ranges : (copy'.queue : Multiset TableCopyPartition) + (copy'.streamed.map (·.2) : List _) +
    worker.held = copy.queue + (copy.streamed.map (·.2) : List _) + (copy.workers w).held
  rows : copy'.sentRows + rowsOfAll rowsOf copy'.queue + worker.unsent rowsOf =
    copy.sentRows + rowsOfAll rowsOf copy.queue + (copy.workers w).unsent rowsOf
  counts : copy'.progress.totalRows + worker.uncounted + (copy.sent.map (·.2.length)).sum =
    copy.progress.totalRows + (copy.workers w).uncounted + (copy'.sent.map (·.2.length)).sum
  acknowledgements : (copy'.acknowledged.map (·.1) : List TableCopyBatchId) +
    worker.unacknowledged + (copy.sent.map (·.1) : List TableCopyBatchId) =
      (copy.acknowledged.map (·.1) : List TableCopyBatchId) + (copy.workers w).unacknowledged +
        (copy'.sent.map (·.1) : List TableCopyBatchId)
  barrier : ∃ accepted : Prop,
    ((copy'.progress.barrierRequired ∨ worker.barrierRequired) ↔
      (copy.progress.barrierRequired ∨ (copy.workers w).barrierRequired) ∨ accepted) ∧
    ((∃ a ∈ copy'.acknowledged, a.2 = .accepted) ↔
      (∃ a ∈ copy.acknowledged, a.2 = .accepted) ∨ accepted)
  drained : worker.IsDone → copy'.queue = []
  emptied : copy.queue = [] → copy'.queue = []

lemma Books.move (h : Books rowsOf plan copy) {w : Fin n} {worker : CopyWorker}
    (hmove : Move rowsOf copy w worker copy') : Books rowsOf plan copy' where
  ranges := by
    rw [hmove.workers]
    exact add_sum_update CopyWorker.held h.ranges (congrArg (· + _) hmove.ranges)
  rows := by
    rw [hmove.workers]
    exact add_sum_update (CopyWorker.unsent rowsOf) h.rows (congrArg (· + _) hmove.rows)
  counts := by
    rw [hmove.workers]
    exact add_sum_update CopyWorker.uncounted h.counts hmove.counts
  acknowledgements := by
    rw [hmove.workers]
    exact add_sum_update CopyWorker.unacknowledged h.acknowledgements hmove.acknowledgements
  barrier := by
    obtain ⟨accepted, hworker, hacknowledged⟩ := hmove.barrier
    have hsplit : ∀ workers : Fin n → CopyWorker, (∃ v, (workers v).barrierRequired) ↔
        (workers w).barrierRequired ∨ ∃ v, v ≠ w ∧ (workers v).barrierRequired := by
      intro workers
      constructor
      · rintro ⟨v, hv⟩
        by_cases hvw : v = w
        · exact .inl (hvw ▸ hv)
        · exact .inr ⟨v, hvw, hv⟩
      · rintro (hw | ⟨v, -, hv⟩)
        · exact ⟨w, hw⟩
        · exact ⟨v, hv⟩
    have hothers : (∃ v, v ≠ w ∧ (copy'.workers v).barrierRequired) ↔
        ∃ v, v ≠ w ∧ (copy.workers v).barrierRequired := by
      refine exists_congr fun v => and_congr_right fun hv => ?_
      rw [hmove.workers, Function.update_of_ne hv]
    have hself : copy'.workers w = worker := by rw [hmove.workers, Function.update_self]
    have hbefore := h.barrier
    rw [hsplit] at hbefore
    rw [hsplit, hothers, hself, hacknowledged, ← hbefore, ← or_assoc, hworker]
    constructor
    · rintro ((hold | hnew) | hother)
      · exact .inl (hold.imp_right .inl)
      · exact .inr hnew
      · exact .inl (.inr (.inr hother))
    · rintro ((hprogress | hold | hother) | hnew)
      · exact .inl (.inl (.inl hprogress))
      · exact .inl (.inl (.inr hold))
      · exact .inr hother
      · exact .inl (.inr hnew)
  drained := by
    intro v hv
    rw [hmove.workers] at hv
    by_cases hvw : v = w
    · rw [hvw, Function.update_self] at hv
      exact hmove.drained hv
    · rw [Function.update_of_ne hvw] at hv
      exact hmove.emptied (h.drained v hv)

lemma rowsOfAll_cons (partition : TableCopyPartition) (partitions : List TableCopyPartition) :
    rowsOfAll rowsOf (partition :: partitions) =
      (rowsOf partition : Multiset TableRow) + rowsOfAll rowsOf partitions := by
  simp [rowsOfAll, List.flatMap_cons, Multiset.coe_add]

lemma Move.setWorker {w : Fin n} {worker : CopyWorker}
    (hheld : worker.held = (copy.workers w).held)
    (hunsent : worker.unsent rowsOf = (copy.workers w).unsent rowsOf)
    (huncounted : worker.uncounted = (copy.workers w).uncounted)
    (hunacknowledged : worker.unacknowledged = (copy.workers w).unacknowledged)
    (hbarrier : worker.barrierRequired = (copy.workers w).barrierRequired)
    (hdone : worker.IsDone → copy.queue = []) :
    Move rowsOf copy w worker (copy.setWorker w worker) where
  workers := rfl
  ranges := by rw [hheld]; rfl
  rows := by rw [hunsent]; rfl
  counts := by rw [huncounted]; rfl
  acknowledgements := by rw [hunacknowledged]; rfl
  barrier := ⟨False, by rw [hbarrier]; simp [TableCopy.setWorker], by simp [TableCopy.setWorker]⟩
  drained := hdone
  emptied := id

/-! ## Steps -/

section Moves

variable {w : Fin n} {partition : TableCopyPartition} {batchId : TableCopyBatchId}
  {rows remaining : List TableRow} {streamed progress : TableCopyProgress}

lemma Move.claim {queue : List TableCopyPartition} (hw : copy.workers w = .looking progress)
    (hqueue : copy.queue = partition :: queue) :
    Move rowsOf copy w (.claimed partition progress)
      { copy.setWorker w (.claimed partition progress) with queue := queue } where
  workers := rfl
  ranges := by
    rw [hw, hqueue, ← Multiset.cons_coe, ← Multiset.singleton_add]
    simp only [CopyWorker.held, TableCopy.setWorker]
    abel
  rows := by
    rw [hw, hqueue, rowsOfAll_cons]
    simp only [CopyWorker.unsent, TableCopy.setWorker, sentRows]
    abel
  counts := by rw [hw]; rfl
  acknowledgements := by rw [hw]; rfl
  barrier := ⟨False, by rw [hw]; simp [TableCopy.setWorker, CopyWorker.barrierRequired], by simp [TableCopy.setWorker]⟩
  drained hdone := by cases hdone
  emptied hnil := by rw [hqueue] at hnil; cases hnil

lemma Move.send (hw : copy.workers w = .streaming partition (rows ++ remaining) streamed progress)
    (sequence : Nat) :
    Move rowsOf copy w (.writing partition batchId rows remaining streamed progress)
      { copy.setWorker w (.writing partition batchId rows remaining streamed progress) with
        nextSequence := sequence
        sent := copy.sent ++ [(batchId, rows)] } where
  workers := rfl
  ranges := by rw [hw]; rfl
  rows := by
    rw [hw]
    simp only [CopyWorker.unsent, TableCopy.setWorker, sentRows, List.flatMap_append, List.flatMap_cons,
      List.flatMap_nil, List.append_nil, ← Multiset.coe_add]
    abel
  counts := by
    rw [hw]
    simp only [CopyWorker.uncounted, TableCopy.setWorker, List.map_append, List.map_cons, List.map_nil,
      List.sum_append, List.sum_cons, List.sum_nil]
    omega
  acknowledgements := by
    rw [hw]
    simp only [CopyWorker.unacknowledged, TableCopy.setWorker, List.map_append, List.map_cons, List.map_nil,
      ← Multiset.coe_add, Multiset.coe_singleton]
    abel
  barrier := ⟨False, by rw [hw]; simp [TableCopy.setWorker, CopyWorker.barrierRequired], by simp [TableCopy.setWorker]⟩
  drained hdone := by cases hdone
  emptied := id

lemma Move.acknowledge
    (hw : copy.workers w = .writing partition batchId rows remaining streamed progress)
    (status : DestinationWriteStatus) :
    Move rowsOf copy w
      (.streaming partition remaining (streamed.recordBatch rows.length status) progress)
      { copy.setWorker w (.streaming partition remaining
          (streamed.recordBatch rows.length status) progress) with
        acknowledged := copy.acknowledged ++ [(batchId, status)] } where
  workers := rfl
  ranges := by rw [hw]; rfl
  rows := by rw [hw]; rfl
  counts := by
    rw [hw]
    simp only [CopyWorker.uncounted, TableCopy.setWorker, TableCopyProgress.recordBatch]
    omega
  acknowledgements := by
    rw [hw]
    simp only [CopyWorker.unacknowledged, TableCopy.setWorker, List.map_append, List.map_cons, List.map_nil,
      ← Multiset.coe_add, Multiset.coe_singleton]
    abel
  barrier := by
    refine ⟨status = .accepted, ?_, ?_⟩
    · rw [hw]
      simp only [CopyWorker.barrierRequired, TableCopy.setWorker, TableCopyProgress.recordBatch,
        Bool.or_eq_true, decide_eq_true_eq]
      tauto
    · simp only [List.mem_append, List.mem_singleton]
      constructor
      · rintro ⟨a, ha | rfl, haccepted⟩
        · exact .inl ⟨a, ha, haccepted⟩
        · exact .inr haccepted
      · rintro (⟨a, ha, haccepted⟩ | haccepted)
        · exact ⟨a, .inl ha, haccepted⟩
        · exact ⟨_, .inr rfl, haccepted⟩
  drained hdone := by cases hdone
  emptied := id

lemma Move.endOfStream (hw : copy.workers w = .streaming partition [] streamed progress) :
    Move rowsOf copy w (.looking (progress.merge streamed))
      { copy.setWorker w (.looking (progress.merge streamed)) with
        streamed := copy.streamed ++ [(w, partition)] } where
  workers := rfl
  ranges := by
    rw [hw]
    simp only [CopyWorker.held, TableCopy.setWorker, List.map_append, List.map_cons, List.map_nil,
      ← Multiset.coe_add, Multiset.coe_singleton]
    abel
  rows := by rw [hw]; rfl
  counts := by rw [hw]; rfl
  acknowledgements := by rw [hw]; rfl
  barrier := by
    refine ⟨False, ?_, by simp [TableCopy.setWorker]⟩
    rw [hw]
    simp [TableCopy.setWorker, CopyWorker.barrierRequired, TableCopyProgress.merge]
  drained hdone := by cases hdone
  emptied := id

lemma Move.join (hw : copy.workers w = .completed progress) (hqueue : copy.queue = []) :
    Move rowsOf copy w .joined
      { copy.setWorker w .joined with progress := copy.progress.merge progress } where
  workers := rfl
  ranges := by rw [hw]; rfl
  rows := by rw [hw]; rfl
  counts := by
    rw [hw]
    simp only [CopyWorker.uncounted, TableCopy.setWorker, TableCopyProgress.merge]
    omega
  acknowledgements := by rw [hw]; rfl
  barrier := by
    refine ⟨False, ?_, by simp [TableCopy.setWorker]⟩
    rw [hw]
    simp [CopyWorker.barrierRequired, TableCopyProgress.merge]
  drained _ := hqueue
  emptied := id

end Moves

lemma workerStep_cases {w : Fin n} {action : WorkerAction}
    (hstep : copy.workerStep rowsOf attemptId w action = some copy') :
    (copy.workers w).IsHealthy ∧ ∃ worker, copy'.workers = Function.update copy.workers w worker ∧
      (worker.IsHealthy → (∀ v, (copy.workers v).IsDone → copy.queue = []) →
        Move rowsOf copy w worker copy') := by
  unfold workerStep at hstep
  split at hstep
  case h_1 =>
    split at hstep <;> cases hstep
    rename_i hw
    refine ⟨by rw [hw]; trivial, _, rfl, fun _ _ => .setWorker ?_ ?_ ?_ ?_ ?_ ?_⟩ <;>
      first | (intro hdone; cases hdone) | (rw [hw]; rfl)
  case h_2 =>
    split at hstep <;> cases hstep
    · rename_i progress partition queue hw hqueue
      exact ⟨by rw [hw]; trivial, _, rfl, fun _ _ => .claim hw hqueue⟩
    · rename_i progress hw hqueue
      refine ⟨by rw [hw]; trivial, _, rfl, fun _ _ => .setWorker ?_ ?_ ?_ ?_ ?_ fun _ => hqueue⟩ <;>
        (rw [hw]; rfl)
  case h_3 =>
    split at hstep <;> cases hstep
    rename_i partition progress hw
    refine ⟨by rw [hw]; trivial, _, rfl, fun _ _ => .setWorker ?_ ?_ ?_ ?_ ?_ ?_⟩ <;>
      first
      | (intro hdone; cases hdone)
      | (rw [hw]; simp [CopyWorker.held, CopyWorker.unsent, CopyWorker.uncounted,
          CopyWorker.unacknowledged, CopyWorker.barrierRequired, TableCopyProgress.default])
  case h_4 size =>
    split at hstep
    · rename_i partition remaining streamed progress hw
      refine ⟨by rw [hw]; trivial, ?_⟩
      split at hstep <;> cases hstep
      unfold sendBatch
      split
      · rw [← List.take_append_drop size remaining] at hw
        exact ⟨_, rfl, fun _ _ => .send hw _⟩
      · exact ⟨_, rfl, fun hhealthy => hhealthy.elim⟩
    · cases hstep
  case h_5 status =>
    split at hstep <;> cases hstep
    rename_i hw
    exact ⟨by rw [hw]; trivial, _, rfl, fun _ _ => .acknowledge hw status⟩
  case h_6 =>
    split at hstep <;> cases hstep
    rename_i hw
    exact ⟨by rw [hw]; trivial, _, rfl, fun _ _ => .endOfStream hw⟩
  case h_7 =>
    split at hstep <;> cases hstep
    rename_i progress hw
    refine ⟨by rw [hw]; trivial, _, rfl, fun _ hdrained => .setWorker ?_ ?_ ?_ ?_ ?_ fun _ =>
      hdrained w (by rw [hw]; trivial)⟩ <;> (rw [hw]; rfl)
  case h_8 =>
    split at hstep <;> cases hstep <;> rename_i hw <;>
      exact ⟨by rw [hw]; trivial, _, rfl, fun hhealthy => hhealthy.elim⟩
  case h_9 =>
    split at hstep <;> cases hstep <;> rename_i hw <;>
      exact ⟨by rw [hw]; trivial, _, rfl, fun hhealthy => hhealthy.elim⟩

lemma Numbered.workerStep (h : Numbered attemptId copy) {w : Fin n} {action : WorkerAction}
    (hstep : copy.workerStep rowsOf attemptId w action = some copy') : Numbered attemptId copy' := by
  unfold TableCopy.workerStep at hstep
  split at hstep
  case h_4 size =>
    split at hstep
    · split at hstep <;> cases hstep
      unfold sendBatch
      split
      · simp only [Numbered, List.map_append, List.map_cons, List.map_nil, List.range_succ] at h ⊢
        rw [h]
      · exact h
    · cases hstep
  all_goals split at hstep <;> cases hstep <;> exact h

lemma result_workerStep {w : Fin n} {action : WorkerAction}
    (hstep : copy.workerStep rowsOf attemptId w action = some copy') :
    copy'.result = copy.result := by
  unfold workerStep at hstep
  split at hstep
  case h_4 size =>
    split at hstep
    · split at hstep <;> cases hstep
      unfold sendBatch
      split <;> rfl
    · cases hstep
  all_goals split at hstep <;> cases hstep <;> rfl

structure Invariant (rowsOf : TableCopyPartition → List TableRow) (attemptId : Nat)
    (plan : List TableCopyPartition) (copy : TableCopy n) : Prop where
  books : (∀ w, (copy.workers w).IsHealthy) → Books rowsOf plan copy
  numbered : Numbered attemptId copy
  completed : ∀ total barrier, copy.result = some (.ok (.completed total barrier)) →
    (∀ w, copy.workers w = .joined) ∧ total = copy.progress.totalRows ∧
      barrier = copy.progress.barrierRequired

lemma invariant_start (hn : plan = [] → n = 0) :
    Invariant rowsOf attemptId plan (start n plan) where
  books _ :=
    { ranges := by simp [start, CopyWorker.held]
      rows := by simp [start, CopyWorker.unsent, sentRows]
      counts := by simp [start, CopyWorker.uncounted, TableCopyProgress.default]
      acknowledgements := by simp [start, CopyWorker.unacknowledged]
      barrier := by simp [start, CopyWorker.barrierRequired, TableCopyProgress.default]
      drained := fun w hdone => hdone.elim }
  numbered := rfl
  completed total barrier hresult := by
    simp only [start] at hresult
    split at hresult
    · rename_i hnil
      obtain rfl := hn (List.isEmpty_iff.1 hnil)
      cases hresult
      exact ⟨fun w => w.elim0, rfl, rfl⟩
    · cases hresult

lemma Invariant.move (h : Invariant rowsOf attemptId plan copy) {w : Fin n} {worker : CopyWorker}
    (hhealthy : (copy.workers w).IsHealthy)
    (hworkers : copy'.workers = Function.update copy.workers w worker)
    (hmove : worker.IsHealthy → (∀ v, (copy.workers v).IsDone → copy.queue = []) →
      Move rowsOf copy w worker copy')
    (hnumbered : Numbered attemptId copy') (hresult : copy'.result = none) :
    Invariant rowsOf attemptId plan copy' where
  books hall := by
    -- whoever is healthy afterwards was so before
    have hbooks := h.books fun v => by
      by_cases hv : v = w
      · rwa [hv]
      · have hsame := hall v
        rwa [hworkers, Function.update_of_ne hv] at hsame
    have hself := hall w
    rw [hworkers, Function.update_self] at hself
    exact hbooks.move (hmove hself hbooks.drained)
  numbered := hnumbered
  completed total barrier hcompleted := by
    rw [hresult] at hcompleted
    cases hcompleted

lemma Invariant.setResult (h : Invariant rowsOf attemptId plan copy)
    {result : Except EtlError TableCopyResult}
    (hcompleted : ∀ total barrier, result = .ok (.completed total barrier) →
      (∀ w, copy.workers w = .joined) ∧ total = copy.progress.totalRows ∧
        barrier = copy.progress.barrierRequired) :
    Invariant rowsOf attemptId plan { copy with result := some result } where
  books hall :=
    let hbooks := h.books hall
    ⟨hbooks.ranges, hbooks.rows, hbooks.counts, hbooks.acknowledgements, hbooks.barrier,
      hbooks.drained⟩
  numbered := h.numbered
  completed total barrier hresult := hcompleted total barrier (Option.some.inj hresult)

lemma Invariant.step (h : Invariant rowsOf attemptId plan copy) {action : CopyAction n}
    (hstep : copy.step rowsOf attemptId action = some copy') :
    Invariant rowsOf attemptId plan copy' := by
  unfold TableCopy.step at hstep
  split at hstep
  · cases hstep
  rename_i hresult
  have hrunning : copy.result = none := by simpa using hresult
  split at hstep
  case h_1 w =>
    split at hstep <;> cases hstep
    rename_i hspawn
    refine h.move (by rw [hspawn.1]; trivial) rfl (fun _ _ => .setWorker ?_ ?_ ?_ ?_ ?_ ?_)
      h.numbered hrunning <;> first | (intro hdone; cases hdone) | (rw [hspawn.1]; rfl)
  case h_2 error =>
    split at hstep <;> cases hstep
    exact h.setResult fun _ _ heq => by cases heq
  case h_3 w action =>
    obtain ⟨hhealthy, worker, hworkers, hmove⟩ := workerStep_cases hstep
    exact h.move hhealthy hworkers hmove (h.numbered.workerStep hstep)
      ((result_workerStep hstep).trans hrunning)
  case h_4 w =>
    split at hstep
    · split at hstep <;> cases hstep
      · rename_i hw
        exact h.move (by rw [hw]; trivial) rfl (fun _ hdrained =>
          .join hw (hdrained w (by rw [hw]; trivial))) h.numbered hrunning
      · exact h.setResult fun _ _ heq => by cases heq
      · exact h.setResult fun _ _ heq => by cases heq
    · cases hstep
  case h_5 =>
    split at hstep <;> cases hstep
    rename_i hjoined
    refine h.setResult fun total barrier heq => ?_
    cases heq
    exact ⟨hjoined, rfl, rfl⟩
  case h_6 =>
    split at hstep <;> cases hstep
    exact h.setResult fun _ _ heq => by cases heq

lemma Reachable.invariant (hn : plan = [] → n = 0)
    (h : Reachable rowsOf attemptId plan copy) : Invariant rowsOf attemptId plan copy := by
  induction h with
  | start => exact invariant_start hn
  | step _ hstep ih => exact ih.step hstep

/-! ## Completion -/

structure Complete (rowsOf : TableCopyPartition → List TableRow) (plan : List TableCopyPartition)
    (copy : TableCopy n) (total : Nat) (barrier : Bool) : Prop where
  streamed : ∀ p ∈ plan, copy.streamed.countP (fun s => s.2 = p) = 1
  distinct : (copy.sent.map (·.1)).Nodup
  acknowledged : ∀ batch ∈ copy.sent, ∃ status, (batch.1, status) ∈ copy.acknowledged
  total : total = (copy.sent.map (·.2.length)).sum
  barrier : barrier ↔ ∃ a ∈ copy.acknowledged, a.2 = .accepted
  rows : (copy.sent.flatMap (·.2)).Perm (plan.flatMap rowsOf)

lemma Reachable.complete (hn : plan = [] ↔ n = 0) (hnodup : plan.Nodup)
    (h : Reachable rowsOf attemptId plan copy) {total : Nat} {barrier : Bool}
    (hresult : copy.result = some (.ok (.completed total barrier))) :
    Complete rowsOf plan copy total barrier := by
  have hinvariant := h.invariant hn.1
  obtain ⟨hjoined, rfl, rfl⟩ := hinvariant.completed total barrier hresult
  have hbooks := hinvariant.books fun w => by rw [hjoined w]; trivial
  have hqueue : copy.queue = [] := by
    rcases Nat.eq_zero_or_pos n with hzero | hpos
    · have hranges := hbooks.ranges
      rw [hn.2 hzero] at hranges
      have hle : (copy.queue : Multiset TableCopyPartition) ≤ ([] : List TableCopyPartition) := by
        rw [← hranges, add_assoc]
        exact Multiset.le_add_right _ _
      simpa using hle
    · exact hbooks.drained ⟨0, hpos⟩ (by rw [hjoined]; trivial)
  have hranges := hbooks.ranges
  have hrows := hbooks.rows
  have hcounts := hbooks.counts
  have hacknowledgements := hbooks.acknowledgements
  have hbarrier := hbooks.barrier
  simp only [hqueue, hjoined, CopyWorker.held, Finset.sum_const_zero, add_zero, Multiset.coe_nil,
    zero_add] at hranges
  simp only [hqueue, hjoined, CopyWorker.unsent, Finset.sum_const_zero, add_zero, rowsOfAll,
    List.flatMap_nil, Multiset.coe_nil, sentRows] at hrows
  simp only [hjoined, CopyWorker.uncounted, Finset.sum_const_zero, add_zero] at hcounts
  simp only [hjoined, CopyWorker.unacknowledged, Finset.sum_const_zero, add_zero]
    at hacknowledgements
  simp only [hjoined, CopyWorker.barrierRequired, Bool.false_eq_true, exists_const_iff, and_false,
    or_false] at hbarrier
  constructor
  case streamed =>
    intro p hp
    have hcount := (Multiset.coe_eq_coe.1 hranges).count_eq p
    rw [List.count_eq_one_of_mem hnodup hp, List.count, List.countP_map] at hcount
    rw [← hcount]
    exact List.countP_congr fun s _ => by simp
  case distinct =>
    rw [hinvariant.numbered]
    refine List.nodup_range.map fun i j hij => ?_
    exact congrArg TableCopyBatchId.sequence hij
  case acknowledged =>
    intro batch hbatch
    have hmem : batch.1 ∈ copy.acknowledged.map (·.1) :=
      (Multiset.coe_eq_coe.1 hacknowledgements).mem_iff.2 (List.mem_map_of_mem hbatch)
    obtain ⟨a, ha, heq⟩ := List.mem_map.1 hmem
    exact ⟨a.2, by rw [← heq]; exact ha⟩
  case total => exact hcounts
  case barrier => exact hbarrier
  case rows => exact Multiset.coe_eq_coe.1 hrows

end TableCopy

/-! ## All rows of the source -/

/-- Its estimate, and the tuples of the snapshot that pass the row filter. -/
structure SourceTable where
  id : TableId
  estimate : TableCopyPlanningEstimate
  tuples : List (Tid × TableRow)

namespace SourceTable

def allTuples (tables : List SourceTable) : List (SourceTable × Tid × TableRow) :=
  tables.flatMap fun table => table.tuples.map fun tuple => (table, tuple)

def rowsOf (tables : List SourceTable) (partition : TableCopyPartition) : List TableRow :=
  ((allTuples tables).filter fun t =>
    t.1.id = partition.sourceTableId && partition.ctidPartition.selects t.2.1).map (·.2.2)

def allRows (tables : List SourceTable) : List TableRow :=
  (tables.filter fun table => !table.estimate.isEmpty).flatMap fun table => table.tuples.map (·.2)

end SourceTable

lemma flatMap_filter_cons_perm {α β γ : Type*} (plan : List α) (selects : α → β → Bool)
    (f : β → γ) (b : β) (elements : List β) :
    (plan.flatMap fun a => ((b :: elements).filter (selects a)).map f).Perm
      (List.replicate (plan.countP fun a => selects a b) (f b) ++
        plan.flatMap fun a => (elements.filter (selects a)).map f) := by
  induction plan with
  | nil => simp
  | cons a plan ih =>
    rw [List.flatMap_cons, List.flatMap_cons, List.countP_cons, List.filter_cons]
    have hswap := (ih.append_left ((elements.filter (selects a)).map f)).trans
      (List.perm_append_comm_assoc ..)
    rcases selects a b with _ | _
    · exact hswap
    · exact hswap.cons (f b)

lemma flatMap_filter_perm {α β γ : Type*} (plan : List α) (selects : α → β → Bool) (f : β → γ)
    (elements : List β) (keep : β → Bool)
    (hcount : ∀ b ∈ elements, plan.countP (fun a => selects a b) = if keep b then 1 else 0) :
    (plan.flatMap fun a => (elements.filter (selects a)).map f).Perm
      ((elements.filter keep).map f) := by
  induction elements with
  | nil => simp
  | cons b elements ih =>
    refine (flatMap_filter_cons_perm plan selects f b elements).trans ?_
    have hrest := ih fun c hc => hcount c (List.mem_cons_of_mem b hc)
    rw [hcount b List.mem_cons_self, List.filter_cons]
    rcases keep b with _ | _
    · exact hrest
    · exact hrest.cons (f b)

lemma map_filter_allTuples (tables : List SourceTable) :
    ((SourceTable.allTuples tables).filter fun t => !t.1.estimate.isEmpty).map (·.2.2) =
      SourceTable.allRows tables := by
  induction tables with
  | nil => rfl
  | cons table tables ih =>
    have hcons : SourceTable.allTuples (table :: tables) =
        (table.tuples.map fun tuple => (table, tuple)) ++ SourceTable.allTuples tables := rfl
    rw [hcons, List.filter_append, List.map_append, ih, SourceTable.allRows, SourceTable.allRows,
      List.filter_cons]
    rcases hempty : table.estimate.isEmpty with _ | _
    · simp [List.filter_map, Function.comp_def, hempty]
    · simp [List.filter_map, Function.comp_def, hempty]

lemma rowsOf_plan_perm {tableId : TableId} {tables : List SourceTable}
    {plan : List TableCopyPartition} (hids : (tables.map (·.id)).Nodup)
    (htids : ∀ table ∈ tables, ∀ tuple ∈ table.tuples, 1 ≤ tuple.1.offset)
    (hplan : CoversTables tableId (tables.map fun table => (table.id, table.estimate)) plan) :
    (plan.flatMap (SourceTable.rowsOf tables)).Perm (SourceTable.allRows tables) := by
  rw [← map_filter_allTuples]
  refine flatMap_filter_perm plan (fun p (t : SourceTable × Tid × TableRow) =>
    t.1.id = p.sourceTableId && p.ctidPartition.selects t.2.1) (·.2.2) _ _ fun t ht => ?_
  obtain ⟨table, htable, ht⟩ := List.mem_flatMap.1 ht
  obtain ⟨tuple, htuple, rfl⟩ := List.mem_map.1 ht
  have hsource : (table.id, table.estimate) ∈ tables.map fun table => (table.id, table.estimate) :=
    List.mem_map.2 ⟨table, htable, rfl⟩
  rcases hempty : table.estimate.isEmpty with _ | _
  · have honce := (hplan.covers _ hsource hempty).once tuple.1 (htids table htable tuple htuple)
    rw [List.countP_filter] at honce
    rw [if_pos (by simp), ← honce]
    refine List.countP_congr fun p _ => ?_
    simp only [Bool.and_eq_true, decide_eq_true_eq]
    exact ⟨fun h => ⟨h.2, h.1.symm⟩, fun h => ⟨h.2.symm, h.1⟩⟩
  · rw [if_neg (by simp)]
    refine List.countP_eq_zero.2 fun p hp hselects => ?_
    simp only [Bool.and_eq_true, decide_eq_true_eq] at hselects
    obtain ⟨source, hmem, hsome, hid⟩ := hplan.ofSource p hp
    obtain ⟨other, hother, rfl⟩ := List.mem_map.1 hmem
    obtain rfl := List.inj_on_of_nodup_map hids htable hother (hselects.1.trans hid)
    rw [hempty] at hsome
    cases hsome

/-- A table copy, for any tables with blocks, any number of connections and any interleaving of its
workers. Planning succeeds without an overflow; each table with blocks gets at least one range and
at most one per block, and each of its tuple ids lies in exactly one of them, whatever number of
ranges is asked for. A copy that completes
has done everything that was planned, and has sent every row of the tables once. -/
theorem tableCopy_complete (tableId : TableId) (tables : List SourceTable)
    (hids : (tables.map (·.id)).Nodup)
    (hblocks : ∀ table ∈ tables, table.estimate.tableBlocks.toNat < 2 ^ 32)
    (htids : ∀ table ∈ tables, ∀ tuple ∈ table.tuples, 1 ≤ tuple.1.offset)
    (requestedConnections : UInt16) :
    let maxCopyConnections := max requestedConnections 1
    (∀ table ∈ tables, table.estimate.isEmpty = false → ∀ numPartitions ≠ 0,
      ∃ planned, planCtidPartitionsForTableBlocks table.estimate.tableBlocks numPartitions =
          some (.ok planned) ∧
        1 ≤ planned.length ∧ planned.length ≤ table.estimate.tableBlocks.toNat ∧
          ∀ ctid : Tid, 1 ≤ ctid.offset →
            planned.countP (fun p => p.ctidPartition.selects ctid) = 1) ∧
    ∃ plan, planTableCopyPartitions tableId (tables.map fun table => (table.id, table.estimate))
        maxCopyConnections = some (.ok plan) ∧
      (∀ table ∈ tables, table.estimate.isEmpty = false →
        let ranges := plan.filter fun p => p.sourceTableId = table.id
        1 ≤ ranges.length ∧ ranges.length ≤ table.estimate.tableBlocks.toNat ∧
          ∀ ctid : Tid, 1 ≤ ctid.offset →
            ranges.countP (fun p => p.ctidPartition.selects ctid) = 1) ∧
      ∀ (attemptId : Nat) (copy : TableCopy (copyWorkerCount maxCopyConnections plan)),
        TableCopy.Reachable (SourceTable.rowsOf tables) attemptId plan copy →
          ∀ total barrier, copy.result = some (.ok (.completed total barrier)) →
            TableCopy.Complete (SourceTable.rowsOf tables) plan copy total barrier ∧
              (copy.sent.flatMap (·.2)).Perm (SourceTable.allRows tables) := by
  intro maxCopyConnections
  have hsourceIds : ((tables.map fun table => (table.id, table.estimate)).map (·.1)).Nodup := by
    rwa [List.map_map]
  obtain ⟨plan, hplan, hcovers⟩ := planTableCopyPartitions_spec tableId hsourceIds
    (fun source hsource => by
      obtain ⟨table, htable, rfl⟩ := List.mem_map.1 hsource
      exact hblocks table htable) maxCopyConnections
  refine ⟨fun table htable hempty numPartitions hnum => ?_, plan, hplan, fun table htable hempty =>
    ?_, fun attemptId copy hreachable total barrier hresult => ?_⟩
  · have hsome : table.estimate.tableBlocks ≠ 0 := by
      simpa [TableCopyPlanningEstimate.isEmpty] using hempty
    obtain ⟨planned, hplanned, hlength, -, honce⟩ :=
      planCtidPartitionsForTableBlocks_spec (hblocks table htable) hsome hnum
    have hblocksPos : 0 < table.estimate.tableBlocks.toNat :=
      Nat.pos_of_ne_zero fun h => hsome (UInt64.toNat_inj.1 h)
    have hnumPos : 0 < numPartitions.toNat :=
      Nat.pos_of_ne_zero fun h => hnum (UInt16.toNat_inj.1 h)
    exact ⟨planned, hplanned, by omega, by omega, honce⟩
  · have htableCovers := hcovers.covers _ (List.mem_map.2 ⟨table, htable, rfl⟩) hempty
    exact ⟨htableCovers.nonempty, htableCovers.bounded, htableCovers.once⟩
  · have hconnections : 1 ≤ maxCopyConnections.toNat := by
      change 1 ≤ (if requestedConnections ≤ 1 then 1 else requestedConnections).toNat
      split
      · decide
      · rename_i hlarge
        rw [UInt16.le_iff_toNat_le, not_le] at hlarge
        exact hlarge.le
    have hcount : plan = [] ↔ copyWorkerCount maxCopyConnections plan = 0 := by
      rw [copyWorkerCount, ← List.length_eq_zero_iff]
      omega
    have hcomplete := hreachable.complete hcount hcovers.nodup hresult
    exact ⟨hcomplete, hcomplete.rows.trans (rowsOf_plan_perm hids htids hcovers)⟩

def sampleSourceTable : SourceTable :=
  ⟨7, ⟨2, 0⟩, [(⟨0, 1⟩, ⟨[some "a"]⟩), (⟨1, 1⟩, ⟨[some "b"]⟩), (⟨2, 1⟩, ⟨[some "c"]⟩)]⟩

def samplePlan : List TableCopyPartition :=
  [⟨7, 7, .openStart ⟨1, 1⟩, 1⟩, ⟨7, 7, .openEnd ⟨1, 1⟩, 1⟩]

def sampleCopyActions : List (CopyAction 2) :=
  [.spawn 0, .spawn 1, .worker 0 .beginTransaction, .worker 1 .beginTransaction,
   .worker 0 .claim, .worker 1 .claim, .worker 0 .openStream, .worker 1 .openStream,
   .worker 1 (.takeBatch 2), .worker 0 (.takeBatch 1), .worker 0 (.acknowledge .durable),
   .worker 1 (.acknowledge .accepted), .worker 0 .endOfStream, .worker 0 .claim,
   .worker 1 .endOfStream, .worker 1 .claim, .worker 0 .commit, .worker 1 .commit, .join 1, .join 0,
   .finish]

theorem tableCopy_complete_twoWorkers :
    ∃ copy : TableCopy 2,
      TableCopy.Reachable (SourceTable.rowsOf [sampleSourceTable]) 0 samplePlan copy ∧
        copy.result = some (.ok (.completed 3 true)) ∧
        TableCopy.Complete (SourceTable.rowsOf [sampleSourceTable]) samplePlan copy 3 true ∧
        (copy.sent.flatMap (·.2)).Perm (SourceTable.allRows [sampleSourceTable]) := by
  obtain ⟨-, plan, hplan, -, hcopies⟩ := tableCopy_complete 7 [sampleSourceTable] (by decide)
    (by decide) (by decide) 2
  have hsample : planTableCopyPartitions 7 [(7, ⟨2, 0⟩)] 2 = some (.ok samplePlan) := by
    decide +kernel
  obtain rfl : samplePlan = plan := by
    have heq := hsample.symm.trans hplan
    cases heq
    rfl
  have hrun : ((TableCopy.start 2 samplePlan).run (SourceTable.rowsOf [sampleSourceTable]) 0
      sampleCopyActions).bind (·.result) = some (.ok (.completed 3 true)) := by decide +kernel
  obtain ⟨copy, hcopy, hresult⟩ := Option.bind_eq_some_iff.1 hrun
  have hreachable := TableCopy.Reachable.start.run hcopy
  exact ⟨copy, hreachable, hresult, hcopies 0 copy hreachable 3 true hresult⟩

end Etl
