import DistributedCompilation.Lib.Checked
import DistributedCompilation.Lib.Sorting
import DistributedCompilation.Runtime.Eligibility

/-!
# Distributed Compilation — the ranking

`rank_workers` in the arithmetic of the machine, and its order. The factors are
computed once more with checked operations, one for each the source performs;
every one of them has a result, the one the ranking is built from. The
comparator the workers are sorted by is a strict total order on workers that
differ in id, boot or generation, so the ranking is the only sorted arrangement
of them, whatever the sort does with equal elements.
-/

namespace DistributedCompilation

open Checked

-- ---------------------------------------------------------------------------
-- The factors in machine arithmetic
-- ---------------------------------------------------------------------------

/-- `rank_workers` on one worker, with its score, in checked operations. -/
def rankWorkerChecked (req : HardRequirements) (estimatedCostMillis : UInt64) (worker : WorkerRecord) :
    Option (RankedWorker × Int) := do
  let locality ← int64 (if !req.localityHost.isEmpty && worker.host == req.localityHost then 10000 else 0)
  let hits ← int64 (min worker.cacheAffinityHits.toNat 500 : Nat)
  let cacheAffinity ← mul hits 4
  let evidenceFreshness ← int64 (if worker.trustedEvidenceFresh then 250 else 0)
  let trust ← int64 (if worker.capabilities.trusted then 100 else 0)
  let completed := if worker.completedUnits = 0 then 1 else worker.completedUnits.toNat
  let mean ← div worker.totalCompileMillis.toNat completed
  let historical ← div (min mean 600000) 100
  let historicalCost ← neg historical
  let expected ← div (min estimatedCostMillis.toNat 600000) 100
  let expectedCost ← neg expected
  let queued ← neg worker.queueDepth.toNat
  let queuePenalty ← mul queued 300
  let started ← neg worker.inFlight.toNat
  let inFlightPenalty ← mul started 600
  let cores ← int64 (min worker.capabilities.logicalCores.toNat 256 : Nat)
  let coresBonus ← mul cores 5
  let memoryBonus ← int64 (min (worker.capabilities.memoryBytes >>> 30).toNat 1024 : Nat)
  let factors :=
    [(txt "locality", locality), (txt "cache_affinity", cacheAffinity),
     (txt "evidence_freshness", evidenceFreshness), (txt "trust", trust),
     (txt "historical_cost", historicalCost), (txt "expected_cost", expectedCost),
     (txt "queue_depth", queuePenalty), (txt "in_flight", inFlightPenalty),
     (txt "logical_cores", coresBonus), (txt "memory_gib", memoryBonus)]
  let score ← sum (factors.map (·.2))
  pure ({ id := worker.id, boot := worker.boot, generation := worker.generation, factors }, score)

/-- No factor is larger than a full queue weighs. -/
def factorBound : Nat := 2 ^ 32 * 600

/-- A count of 32 bits. -/
theorem toNat_lt (n : UInt32) : n.toNat < 2 ^ 32 := n.toNat_lt_size

/-- What a cost takes away. -/
theorem small_cost (n : Nat) : (-((min n 600000 / 100 : Nat) : Int)).natAbs ≤ 6000 := by omega

theorem small_factors (req : HardRequirements) (cost : UInt64) (worker : WorkerRecord) :
    ∀ x ∈ (rankWorker req cost worker).factors.map (·.2), x.natAbs ≤ factorBound := by
  intro x hx
  have hqueue := toNat_lt worker.queueDepth
  have hflight := toNat_lt worker.inFlight
  unfold factorBound
  simp only [rankWorker, List.map_cons, List.map_nil, List.mem_cons, List.not_mem_nil, or_false] at hx
  rcases hx with h | h | h | h | h | h | h | h | h | h <;> subst h
  · split <;> omega
  · omega
  · split <;> omega
  · split <;> omega
  · exact (small_cost _).trans (by omega)
  · exact (small_cost _).trans (by omega)
  all_goals omega

/-- A bonus that is granted or not. -/
theorem int64_ite {c : Prop} [Decidable c] {n : Int} (h : Fits n) :
    int64 (if c then n else 0) = some (if c then n else 0) := by
  refine int64_eq ?_
  unfold Fits at h ⊢
  split <;> omega

/-- No step of the ranking overflows or divides by zero. -/
theorem rankWorkerChecked_eq (req : HardRequirements) (cost : UInt64) (worker : WorkerRecord) :
    rankWorkerChecked req cost worker =
      some (rankWorker req cost worker, (rankWorker req cost worker).score) := by
  have hqueue := toNat_lt worker.queueDepth
  have hflight := toNat_lt worker.inFlight
  have hcompleted : (if worker.completedUnits = 0 then 1 else worker.completedUnits.toNat) ≠ 0 := by
    split
    · omega
    · next hne => exact fun hzero => hne (UInt64.toNat_inj.mp (by simpa using hzero))
  have hmin (n k : Nat) (hk : k ≤ 1024) : int64 ((min n k : Nat) : Int) = some ((min n k : Nat) : Int) := by
    refine int64_eq ?_
    unfold Fits
    omega
  have hhundred (n : Nat) : div n 100 = some (n / 100) := div_eq (by omega)
  have hcost (n : Nat) :
      neg ((min n 600000 / 100 : Nat) : Int) = some (-((min n 600000 / 100 : Nat) : Int)) := by
    have hsmall := small_cost n
    refine neg_eq ?_
    unfold Fits
    omega
  have hscore := sum_eq (small_factors req cost worker) (by
    unfold factorBound rankWorker
    simp only [List.map_cons, List.map_nil, List.length_cons, List.length_nil]
    omega)
  have hmemory : ((min (worker.capabilities.memoryBytes >>> 30).toNat 1024 : Nat) : Int) =
      min ((worker.capabilities.memoryBytes >>> 30).toNat : Int) 1024 := by omega
  unfold rankWorkerChecked
  refine (bind_eq (int64_ite (by decide))).trans ?_
  refine (bind_eq (hmin _ 500 (by omega))).trans ?_
  refine (bind_eq (mul_eq (by unfold Fits; omega))).trans ?_
  refine (bind_eq (int64_ite (by decide))).trans ?_
  refine (bind_eq (int64_ite (by decide))).trans ?_
  refine (bind_eq (div_eq hcompleted)).trans ?_
  refine (bind_eq (hhundred _)).trans ?_
  refine (bind_eq (hcost _)).trans ?_
  refine (bind_eq (hhundred _)).trans ?_
  refine (bind_eq (hcost _)).trans ?_
  refine (bind_eq (neg_eq (by unfold Fits; omega))).trans ?_
  refine (bind_eq (mul_eq (by unfold Fits; omega))).trans ?_
  refine (bind_eq (neg_eq (by unfold Fits; omega))).trans ?_
  refine (bind_eq (mul_eq (by unfold Fits; omega))).trans ?_
  refine (bind_eq (hmin _ 256 (by omega))).trans ?_
  refine (bind_eq (mul_eq (by unfold Fits; omega))).trans ?_
  refine (bind_eq (hmin _ 1024 (by omega))).trans ?_
  rw [hmemory]
  exact bind_eq hscore

-- ---------------------------------------------------------------------------
-- The order
-- ---------------------------------------------------------------------------

/-- The comparator of `rank_workers`: whether `a` is ranked before `b`. -/
def RankedWorker.before (a b : RankedWorker) : Bool :=
  if a.score ≠ b.score then b.score < a.score
  else if a.id ≠ b.id then a.id.value < b.id.value
  else if a.boot ≠ b.boot then a.boot.value < b.boot.value
  else a.generation.value < b.generation.value

/-- What distinguishes workers of equal score. -/
def WorkerRecord.incarnation (worker : WorkerRecord) : WorkerId × WorkerBootId × WorkerGeneration :=
  (worker.id, worker.boot, worker.generation)

def RankedWorker.incarnation (entry : RankedWorker) : WorkerId × WorkerBootId × WorkerGeneration :=
  (entry.id, entry.boot, entry.generation)

theorem compare_id {tag : IdTag} (a b : Id tag) : compare a b = compare a.value b.value := rfl

theorem eq_of_value {tag : IdTag} {a b : Id tag} (h : a.value = b.value) : a = b := by
  cases a
  cases b
  exact congrArg Id.mk h

instance : Std.TransCmp RankedWorker.order :=
  inferInstanceAs (Std.TransCmp (compareLex (fun a b => compareOn RankedWorker.score b a)
    (compareLex (compareOn RankedWorker.id) (compareLex (compareOn RankedWorker.boot)
      (compareOn fun entry : RankedWorker => entry.generation.value)))))

/-- The comparator says whether the comparison does. -/
theorem before_iff (a b : RankedWorker) : a.before b = true ↔ RankedWorker.order a b = .lt := by
  unfold RankedWorker.before RankedWorker.order
  rw [compare_id, compare_id]
  by_cases hscore : a.score = b.score
  · have heq : compare b.score a.score = .eq := Int.compare_eq_eq.mpr hscore.symm
    rw [if_neg (not_not.mpr hscore), heq, Ordering.eq_then]
    by_cases hid : a.id = b.id
    · have heq : compare a.id.value b.id.value = .eq := Nat.compare_eq_eq.mpr (by rw [hid])
      rw [if_neg (not_not.mpr hid), heq, Ordering.eq_then]
      by_cases hboot : a.boot = b.boot
      · have heq : compare a.boot.value b.boot.value = .eq := Nat.compare_eq_eq.mpr (by rw [hboot])
        rw [if_neg (not_not.mpr hboot), heq, Ordering.eq_then, decide_eq_true_iff, Nat.compare_eq_lt]
      · have hne : a.boot.value ≠ b.boot.value := fun h => hboot (eq_of_value h)
        rw [if_pos hboot, decide_eq_true_iff, Ordering.then_eq_lt, Nat.compare_eq_lt, Nat.compare_eq_eq]
        omega
    · have hne : a.id.value ≠ b.id.value := fun h => hid (eq_of_value h)
      rw [if_pos hid, decide_eq_true_iff, Ordering.then_eq_lt, Nat.compare_eq_lt, Nat.compare_eq_eq]
      omega
  · rw [if_pos hscore, decide_eq_true_iff, Ordering.then_eq_lt, Int.compare_eq_lt, Int.compare_eq_eq]
    omega

/-- Only entries of one incarnation are ranked alike. -/
theorem incarnation_eq_of_order {a b : RankedWorker} (h : RankedWorker.order a b = .eq) :
    a.incarnation = b.incarnation := by
  unfold RankedWorker.order at h
  rw [Ordering.then_eq_eq, Ordering.then_eq_eq, Ordering.then_eq_eq, compare_id, compare_id,
    Nat.compare_eq_eq, Nat.compare_eq_eq, Nat.compare_eq_eq] at h
  obtain ⟨-, hid, hboot, hgeneration⟩ := h
  have hgeneration : a.generation = b.generation := by
    cases ha : a.generation
    cases hb : b.generation
    rw [ha, hb] at hgeneration
    exact congrArg Gen.mk hgeneration
  unfold RankedWorker.incarnation
  rw [eq_of_value hid, eq_of_value hboot, hgeneration]

/-- Distinct workers are ranked apart. -/
theorem eq_of_ranked {candidates : List WorkerRecord} (distinct : (candidates.map (·.incarnation)).Nodup)
    {req : HardRequirements} {cost : UInt64} :
    ∀ a ∈ candidates.map (rankWorker req cost), ∀ b ∈ candidates.map (rankWorker req cost),
      RankedWorker.order a b = .eq → a = b := by
  intro a ha b hb heq
  obtain ⟨worker, hworker, rfl⟩ := List.mem_map.mp ha
  obtain ⟨worker', hworker', rfl⟩ := List.mem_map.mp hb
  have hsame : worker.incarnation = worker'.incarnation := incarnation_eq_of_order heq
  rw [List.inj_on_of_nodup_map distinct hworker hworker' hsame]

/-- The ranking is strict. -/
theorem pairwise_rankWorkers {candidates : List WorkerRecord}
    (distinct : (candidates.map (·.incarnation)).Nodup) (req : HardRequirements) (cost : UInt64) :
    (rankWorkers candidates req cost).Pairwise fun a b => a.before b = true := by
  have hnodup : ((rankWorkers candidates req cost).map (·.incarnation)).Nodup := by
    refine (((sortBy_perm _ _).map _).nodup_iff).mpr ?_
    rw [List.map_map]
    exact distinct
  have hsorted : SortedBy RankedWorker.order (rankWorkers candidates req cost) := sortedBy_sortBy _ _
  refine List.Pairwise.imp₂ (fun a b hle hne => ?_) hsorted (List.pairwise_map.mp hnodup)
  rw [before_iff]
  cases horder : RankedWorker.order a b with
  | lt => rfl
  | eq => exact absurd (incarnation_eq_of_order horder) hne
  | gt =>
    rw [horder] at hle
    cases hle

/-- A sorted arrangement of the entries is the ranking. -/
theorem eq_rankWorkers {candidates : List WorkerRecord} (distinct : (candidates.map (·.incarnation)).Nodup)
    {req : HardRequirements} {cost : UInt64} {xs : List RankedWorker}
    (perm : xs.Perm (candidates.map (rankWorker req cost)))
    (sorted : xs.Pairwise fun a b => b.before a = false) : xs = rankWorkers candidates req cost := by
  have hxs : SortedBy RankedWorker.order xs := by
    refine sorted.imp fun {a b} hab => ?_
    cases horder : RankedWorker.order a b with
    | lt => rfl
    | eq => rfl
    | gt =>
      have hlt : RankedWorker.order b a = .lt := Std.OrientedCmp.lt_of_gt horder
      rw [← before_iff, hab] at hlt
      cases hlt
  rw [← sortBy_of_sorted hxs]
  refine sortBy_eq_of_perm perm fun a ha b hb heq => ?_
  exact eq_of_ranked distinct a (perm.mem_iff.mp ha) b (perm.mem_iff.mp hb) heq

/-- The ranking of distinct workers: no step of it overflows or divides by zero,
it holds every worker once and strictly in order, no other arrangement is
sorted, and it does not depend on the order the workers come in. -/
theorem ranking_is_total_order (candidates : List WorkerRecord) (req : HardRequirements)
    (estimatedCostMillis : UInt64) (distinct : (candidates.map (·.incarnation)).Nodup) :
    (candidates.mapM (rankWorkerChecked req estimatedCostMillis) =
      some (candidates.map fun worker => (rankWorker req estimatedCostMillis worker,
        (rankWorker req estimatedCostMillis worker).score))) ∧
    (rankWorkers candidates req estimatedCostMillis).Perm
      (candidates.map (rankWorker req estimatedCostMillis)) ∧
    ((rankWorkers candidates req estimatedCostMillis).Pairwise fun a b => a.before b = true) ∧
    (∀ xs : List RankedWorker, xs.Perm (candidates.map (rankWorker req estimatedCostMillis)) →
      (xs.Pairwise fun a b => b.before a = false) → xs = rankWorkers candidates req estimatedCostMillis) ∧
    ∀ shuffled : List WorkerRecord, shuffled.Perm candidates →
      rankWorkers shuffled req estimatedCostMillis = rankWorkers candidates req estimatedCostMillis := by
  refine ⟨?_, sortBy_perm _ _, pairwise_rankWorkers distinct _ _, ?_, ?_⟩
  · induction candidates with
    | nil => rfl
    | cons worker rest ih =>
      rw [List.map_cons, List.nodup_cons] at distinct
      rw [List.mapM_cons, rankWorkerChecked_eq, ih distinct.2]
      rfl
  · intro xs hperm hsorted
    exact eq_rankWorkers distinct hperm hsorted
  · intro shuffled hperm
    have hdistinct : (shuffled.map (·.incarnation)).Nodup := (hperm.map _).nodup_iff.mpr distinct
    exact sortBy_eq_of_perm (hperm.map _) (eq_of_ranked hdistinct)

/-- Two workers that differ in their boot alone. -/
theorem ranking_is_total_order_boots :
    let candidates : List WorkerRecord := [{ id := ⟨1⟩, boot := ⟨2⟩ }, { id := ⟨1⟩, boot := ⟨1⟩ }]
    (rankWorkers candidates {} 0).map (·.boot) = [⟨1⟩, ⟨2⟩] ∧
      (rankWorkers candidates {} 0).Pairwise fun a b => a.before b = true := by
  intro candidates
  exact ⟨by decide, (ranking_is_total_order candidates {} 0 (by decide)).2.2.1⟩

end DistributedCompilation
