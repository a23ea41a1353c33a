import Mathlib

/-!
# The memory monitor

One task samples the memory at an interval, within the cgroup of the process if that is tighter than
the host. It publishes what it has read and, from the ratio of used memory, a flag that pauses the
polling of sources. The ratio is computed in single precision; it is a parameter, and nothing is
assumed about its rounding.
-/

namespace Etl

inductive MemorySnapshotSource where
  | processCgroup
  | rootCgroup
  | system
deriving DecidableEq

structure MemorySnapshot where
  used : Nat
  total : Nat
  source : MemorySnapshotSource

structure CGroupLimits where
  totalMemory : Nat
  freeMemory : Nat

/-- What the system answers in one refresh; a cgroup that cannot be read is `none`. -/
structure MemoryReading where
  usedMemory : Nat
  totalMemory : Nat
  process : Option CGroupLimits
  root : Option CGroupLimits

namespace MemorySnapshot

def fromCgroupLimits (cgroup : CGroupLimits) (source : MemorySnapshotSource) : MemorySnapshot :=
  ⟨cgroup.totalMemory - cgroup.freeMemory, cgroup.totalMemory, source⟩

def constrainedCgroupSnapshot (cgroup : CGroupLimits) (source : MemorySnapshotSource)
    (system : MemorySnapshot) : Option MemorySnapshot :=
  let snapshot := fromCgroupLimits cgroup source
  if snapshot.total < system.total then some snapshot else none

/-- The snapshot to use, and whether it was read in this refresh. -/
def refresh (reading : MemoryReading) (previous : Option MemorySnapshot) : MemorySnapshot × Bool :=
  let system : MemorySnapshot := ⟨reading.usedMemory, reading.totalMemory, .system⟩
  match reading.process with
  | some cgroup => ((constrainedCgroupSnapshot cgroup .processCgroup system).getD system, true)
  | none =>
    match previous.filter (·.source = .processCgroup) with
    | some previous => (previous, false)
    | none =>
      match reading.root with
      | some cgroup => ((constrainedCgroupSnapshot cgroup .rootCgroup system).getD system, true)
      | none =>
        match previous.filter (·.source = .rootCgroup) with
        | some previous => (previous, false)
        | none => (system, true)

end MemorySnapshot

structure MemoryBackpressureConfig (α : Type*) [LinearOrder α] where
  activateThreshold : α
  resumeThreshold : α
  resume_lt_activate : resumeThreshold < activateThreshold

structure MemoryMonitor where
  snapshot : MemorySnapshot
  snapshotRevision : UInt64
  backpressureActive : Bool

namespace MemoryMonitor

variable {α : Type*} [LinearOrder α] (usedPercent : MemorySnapshot → α)
  (config : MemoryBackpressureConfig α)

def computeNextBackpressureActive (active : Bool) (usedPercent : α) : Bool :=
  if active then config.resumeThreshold ≤ usedPercent else config.activateThreshold ≤ usedPercent

def new (reading : MemoryReading) : MemoryMonitor :=
  let snapshot := (MemorySnapshot.refresh reading none).1
  ⟨snapshot, 0, computeNextBackpressureActive config false (usedPercent snapshot)⟩

def publishRefresh (monitor : MemoryMonitor) : MemorySnapshot × Bool → MemoryMonitor
  | (snapshot, true) =>
    { monitor with snapshot := snapshot, snapshotRevision := monitor.snapshotRevision + 1 }
  | (_, false) => monitor

def tick (monitor : MemoryMonitor) (reading : MemoryReading) : MemoryMonitor :=
  let refresh := MemorySnapshot.refresh reading (some monitor.snapshot)
  { monitor.publishRefresh refresh with
    backpressureActive := computeNextBackpressureActive config monitor.backpressureActive
      (usedPercent refresh.1) }

def run (reading : MemoryReading) (readings : List MemoryReading) : MemoryMonitor :=
  readings.foldl (tick usedPercent config) (new usedPercent config reading)

/-- The flag is set from the snapshot that is published then, also where an old one was kept. -/
lemma backpressureActive_tick (monitor : MemoryMonitor) (reading : MemoryReading) :
    (monitor.tick usedPercent config reading).backpressureActive =
      computeNextBackpressureActive config monitor.backpressureActive
        (usedPercent (monitor.tick usedPercent config reading).snapshot) := by
  have hsnapshot : (monitor.tick usedPercent config reading).snapshot =
      (MemorySnapshot.refresh reading (some monitor.snapshot)).1 := by
    simp only [tick, publishRefresh, MemorySnapshot.refresh]
    grind
  rw [hsnapshot, tick]

end MemoryMonitor

open MemoryMonitor

variable {α : Type*} [LinearOrder α] (usedPercent : MemorySnapshot → α)
  (config : MemoryBackpressureConfig α)

/-- After any readings, polling is paused exactly if some snapshot reached the activation threshold
and none since then fell below the resume threshold. -/
theorem backpressureActive_iff (reading : MemoryReading) (readings : List MemoryReading) :
    (run usedPercent config reading readings).backpressureActive = true ↔
      ∃ k ≤ readings.length,
        config.activateThreshold ≤
          usedPercent (run usedPercent config reading (readings.take k)).snapshot ∧
        ∀ j, k < j → j ≤ readings.length → config.resumeThreshold ≤
          usedPercent (run usedPercent config reading (readings.take j)).snapshot := by
  induction readings using List.reverseRecOn with
  | nil =>
    have hnone (j : Nat) (hj : 0 < j) : ¬ j = 0 := hj.ne'
    simp +contextual [run, MemoryMonitor.new, computeNextBackpressureActive, hnone]
  | append_singleton readings last ih =>
    have hlast : run usedPercent config reading (readings ++ [last]) =
        tick usedPercent config (run usedPercent config reading readings) last := by simp [run]
    have htake {j : Nat} (hj : j ≤ readings.length) :
        (readings ++ [last]).take j = readings.take j := List.take_append_of_le_length hj
    have hall : (readings ++ [last]).take (readings.length + 1) = readings ++ [last] := by simp
    have hstep := backpressureActive_tick usedPercent config
      (run usedPercent config reading readings) last
    rw [← hlast, computeNextBackpressureActive] at hstep
    have hresume := config.resume_lt_activate
    rw [hstep, List.length_append, List.length_singleton]
    constructor
    · intro hactive
      split_ifs at hactive with hbefore
      · obtain ⟨k, hk, hactivate, hkeeps⟩ := ih.1 hbefore
        refine ⟨k, by omega, by rwa [htake hk], fun j hkj hj => ?_⟩
        rcases Nat.lt_or_eq_of_le hj with hj | rfl
        · rw [htake (by omega)]
          exact hkeeps j hkj (by omega)
        · rw [hall]
          exact of_decide_eq_true hactive
      · exact ⟨_, le_rfl, by rw [hall]; exact of_decide_eq_true hactive, fun j _ _ => by omega⟩
    · rintro ⟨k, hk, hactivate, hkeeps⟩
      rcases Nat.lt_or_eq_of_le hk with hk | rfl
      · have hbefore := ih.2 ⟨k, by omega, by rwa [htake (by omega)] at hactivate,
          fun j hkj hj => by simpa [htake hj] using hkeeps j hkj (by omega)⟩
        rw [if_pos hbefore]
        exact decide_eq_true (hall ▸ hkeeps _ hk le_rfl)
      · rw [hall] at hactivate
        split_ifs
        · exact decide_eq_true (hresume.le.trans hactivate)
        · exact decide_eq_true hactivate

end Etl
