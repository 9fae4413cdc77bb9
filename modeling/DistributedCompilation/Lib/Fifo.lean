import DistributedCompilation.Lib.Table

/-!
# A bounded cache that evicts the oldest

A table of weighted entries, the order they came in and their total weight.
`evict` removes entries from the front while the total exceeds the limit. An
entry stays exactly when it and everything behind it fit.
-/

namespace Fifo

variable {κ α : Type} [Ord κ] [Std.TransOrd κ] [Std.LawfulEqOrd κ] [DecidableEq κ]

/-- `while (total > limit && !order.empty())` evict the first. -/
def evict (limit : Nat) (weight : α → Nat) : List κ → Table κ α → Nat → List κ × Table κ α × Nat
  | [], table, total => ([], table, total)
  | victim :: order, table, total =>
    if limit < total then
      match table[victim]? with
      | none => evict limit weight order table total
      | some entry => evict limit weight order (table.erase victim) (total - weight entry)
    else (victim :: order, table, total)

/-- What an entry weighs; an absent one weighs nothing. -/
def weightOf (weight : α → Nat) (table : Table κ α) (k : κ) : Nat := ((table[k]?).map weight).getD 0

/-- The weight of an entry and of everything that came after it. -/
def weightFrom (weight : α → Nat) (table : Table κ α) (order : List κ) (k : κ) : Nat :=
  ((order.dropWhile (· ≠ k)).map (weightOf weight table)).sum

/-- The order lists the entries once each, the total is theirs. -/
structure Exact (weight : α → Nat) (order : List κ) (table : Table κ α) (total : Nat) : Prop where
  nodup : order.Nodup
  listed : ∀ k, k ∈ order ↔ ∃ entry, table[k]? = some entry
  total : total = (order.map (weightOf weight table)).sum

omit [DecidableEq κ] in
theorem Exact.empty (weight : α → Nat) : Exact weight ([] : List κ) ∅ 0 where
  nodup := List.nodup_nil
  listed k := by simp
  total := rfl

variable {weight : α → Nat} {limit : Nat} {order : List κ} {table : Table κ α} {total : Nat} {k : κ}

omit [DecidableEq κ] in
theorem weightOf_congr {table' : Table κ α} (h : table'[k]? = table[k]?) :
    weightOf weight table' k = weightOf weight table k := by
  unfold weightOf
  rw [h]

omit [DecidableEq κ] in
theorem sum_congr {table' : Table κ α} (h : ∀ k ∈ order, table'[k]? = table[k]?) :
    (order.map (weightOf weight table')).sum = (order.map (weightOf weight table)).sum := by
  refine congrArg List.sum (List.map_congr_left fun k hk => ?_)
  exact weightOf_congr (h k hk)

theorem weightFrom_congr {table' : Table κ α} (h : ∀ k ∈ order, table'[k]? = table[k]?) :
    weightFrom weight table' order k = weightFrom weight table order k := by
  unfold weightFrom
  exact sum_congr fun k' hk' => h k' ((List.dropWhile_sublist _).subset hk')

theorem weightFrom_le (exact : Exact weight order table total) : weightFrom weight table order k ≤ total := by
  rw [exact.total]
  unfold weightFrom
  exact ((List.dropWhile_sublist _).map _).sum_le_sum fun _ _ => Nat.zero_le _

/-- Without its first entry the cache is exact. -/
theorem Exact.tail {victim : κ} {entry : α} (exact : Exact weight (victim :: order) table total)
    (found : table[victim]? = some entry) :
    Exact weight order (table.erase victim) (total - weight entry) := by
  obtain ⟨hfresh, hnodup⟩ := List.nodup_cons.mp exact.nodup
  have hsame (k : κ) (hk : k ∈ order) : (table.erase victim)[k]? = table[k]? := by
    rw [Table.get_erase]
    split
    · next heq => exact absurd (heq ▸ hk) hfresh
    · rfl
  refine ⟨hnodup, fun k => ?_, ?_⟩
  · rw [Table.get_erase]
    split
    · next heq =>
      subst heq
      exact ⟨fun h => absurd h hfresh, fun ⟨_, h⟩ => nomatch h⟩
    · next hne =>
      rw [← exact.listed k, List.mem_cons]
      exact ⟨.inr, fun h => h.resolve_left fun heq => hne heq.symm⟩
  · have hweight : weightOf weight table victim = weight entry := by
      unfold weightOf
      rw [found]
      rfl
    rw [exact.total, List.map_cons, List.sum_cons, hweight, Nat.add_sub_cancel_left, sum_congr hsame]

/-- Eviction keeps the cache exact, brings it below the limit and drops the
entries that do not fit with what came after them. -/
theorem evict_spec (exact : Exact weight order table total) :
    Exact weight (evict limit weight order table total).1 (evict limit weight order table total).2.1
        (evict limit weight order table total).2.2 ∧
      (evict limit weight order table total).2.2 ≤ limit ∧
      ∀ k, (evict limit weight order table total).2.1[k]? =
        if weightFrom weight table order k ≤ limit then table[k]? else none := by
  induction order generalizing table total with
  | nil =>
    have hzero : total = 0 := exact.total
    refine ⟨exact, by rw [hzero]; exact Nat.zero_le _, fun k => ?_⟩
    have hle : weightFrom weight table [] k ≤ limit := Nat.zero_le _
    rw [if_pos hle]
    rfl
  | cons victim order ih =>
    unfold evict
    split
    · next hover =>
      obtain ⟨entry, hentry⟩ := (exact.listed victim).mp (List.mem_cons_self ..)
      obtain ⟨hfresh, -⟩ := List.nodup_cons.mp exact.nodup
      have htail := exact.tail hentry
      rw [hentry]
      refine ⟨(ih htail).1, (ih htail).2.1, fun k => ?_⟩
      rw [(ih htail).2.2 k, Table.get_erase]
      by_cases hk : victim = k
      · subst hk
        have hall : weightFrom weight table (victim :: order) victim = total := by
          unfold weightFrom
          rw [exact.total, List.dropWhile_cons_of_neg (by simp)]
        rw [if_pos rfl, ite_self, if_neg (by omega)]
      · have hrest : weightFrom weight table (victim :: order) k =
            weightFrom weight (table.erase victim) order k := by
          have hskip : (victim :: order).dropWhile (· ≠ k) = order.dropWhile (· ≠ k) :=
            List.dropWhile_cons_of_pos (by simpa using hk)
          have hsame (k' : κ) (hk' : k' ∈ order) : (table.erase victim)[k']? = table[k']? := by
            rw [Table.get_erase, if_neg]
            rintro rfl
            exact hfresh hk'
          rw [weightFrom_congr hsame]
          unfold weightFrom
          rw [hskip]
        rw [if_neg hk, hrest]
    · next hunder =>
      refine ⟨exact, Nat.le_of_not_lt hunder, fun k => ?_⟩
      have hle : weightFrom weight table (victim :: order) k ≤ total := weightFrom_le exact
      rw [if_pos (hle.trans (by omega))]

/-- A cache with one more entry. -/
theorem Exact.push {entry : α} (exact : Exact weight order table total) (fresh : table[k]? = none) :
    Exact weight (order ++ [k]) (table.insert k entry) (total + weight entry) := by
  have hfresh : k ∉ order := by
    rw [exact.listed k, fresh]
    exact fun ⟨_, h⟩ => nomatch h
  have hsame (k' : κ) (hk' : k' ∈ order) : (table.insert k entry)[k']? = table[k']? := by
    rw [Table.get_insert]
    split
    · next heq => exact absurd (heq ▸ hk') hfresh
    · rfl
  refine ⟨?_, fun k' => ?_, ?_⟩
  · exact List.nodup_append.mpr ⟨exact.nodup, List.nodup_singleton _, fun a ha b hb hab => by
      rw [List.mem_singleton] at hb
      exact hfresh (hb ▸ hab ▸ ha)⟩
  · rw [List.mem_append, List.mem_singleton, exact.listed k', Table.get_insert]
    split
    · next heq => exact ⟨fun _ => ⟨entry, rfl⟩, fun _ => .inr heq.symm⟩
    · next hne => exact ⟨fun h => h.resolve_right fun heq => hne heq.symm, .inl⟩
  · have hnew : weightOf weight (table.insert k entry) k = weight entry := by
      unfold weightOf
      rw [Table.get_insert, if_pos rfl]
      rfl
    rw [List.map_append, List.sum_append, sum_congr hsame, exact.total, List.map_singleton, List.sum_singleton,
      hnew]

/-- What an older entry has behind it after the push. -/
theorem weightFrom_push {k' : κ} {entry : α} (exact : Exact weight order table total)
    (fresh : table[k]? = none) (old : k' ∈ order) :
    weightFrom weight (table.insert k entry) (order ++ [k]) k' =
      weightFrom weight table order k' + weight entry := by
  have hfresh : k ∉ order := by
    rw [exact.listed k, fresh]
    exact fun ⟨_, h⟩ => nomatch h
  have hsame (k' : κ) (hk' : k' ∈ order) : (table.insert k entry)[k']? = table[k']? := by
    rw [Table.get_insert]
    split
    · next heq => exact absurd (heq ▸ hk') hfresh
    · rfl
  have hnew : weightOf weight (table.insert k entry) k = weight entry := by
    unfold weightOf
    rw [Table.get_insert, if_pos rfl]
    rfl
  have hdrop : (order ++ [k]).dropWhile (· ≠ k') = order.dropWhile (· ≠ k') ++ [k] := by
    rw [List.dropWhile_append, if_neg]
    rw [List.isEmpty_iff, List.dropWhile_eq_nil_iff]
    intro hall
    have hself := hall k' old
    simp at hself
  unfold weightFrom
  rw [hdrop, List.map_append, List.sum_append, List.map_singleton, List.sum_singleton, hnew,
    sum_congr fun a ha => hsame a ((List.dropWhile_sublist _).subset ha)]

/-- What the newest entry has behind it. -/
theorem weightFrom_new {entry : α} (exact : Exact weight order table total) (fresh : table[k]? = none) :
    weightFrom weight (table.insert k entry) (order ++ [k]) k = weight entry := by
  have hfresh : k ∉ order := by
    rw [exact.listed k, fresh]
    exact fun ⟨_, h⟩ => nomatch h
  have hnone : order.dropWhile (· ≠ k) = [] := by
    rw [List.dropWhile_eq_nil_iff]
    intro a ha
    simpa using fun heq : a = k => hfresh (heq ▸ ha)
  unfold weightFrom
  rw [List.dropWhile_append, hnone, if_pos (by rfl), List.dropWhile_cons_of_neg (by simp), List.map_singleton,
    List.sum_singleton]
  unfold weightOf
  rw [Table.get_insert, if_pos rfl]
  rfl

end Fifo
