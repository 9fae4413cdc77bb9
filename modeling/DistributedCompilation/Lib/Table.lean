import Mathlib

/-!
# Tables

An ordered finite map with the lemmas of `Std.ExtTreeMap` restated with
equality of keys in place of `compare`, which is what proofs about programs on
tables split on.
-/

/-- An ordered map, equal as soon as its lookups are. -/
abbrev Table (κ α : Type) [Ord κ] [Std.TransOrd κ] [Std.LawfulEqOrd κ] := Std.ExtTreeMap κ α

namespace Table

variable {κ α β : Type} [Ord κ] [Std.TransOrd κ] [Std.LawfulEqOrd κ] [DecidableEq κ]

omit [DecidableEq κ] in
theorem get_empty (a : κ) : (∅ : Table κ α)[a]? = none := Std.ExtTreeMap.getElem?_empty

theorem get_insert (t : Table κ α) (k a : κ) (v : α) :
    (t.insert k v)[a]? = if k = a then some v else t[a]? := by
  rw [Std.ExtTreeMap.getElem?_insert]
  simp only [Std.LawfulEqOrd.compare_eq_iff_eq]

theorem get_erase (t : Table κ α) (k a : κ) :
    (t.erase k)[a]? = if k = a then none else t[a]? := by
  rw [Std.ExtTreeMap.getElem?_erase]
  simp only [Std.LawfulEqOrd.compare_eq_iff_eq]

theorem get_modify (t : Table κ α) (k a : κ) (f : α → α) :
    (t.modify k f)[a]? = if k = a then t[k]?.map f else t[a]? := by
  rw [Std.ExtTreeMap.getElem?_modify]
  simp only [Std.LawfulEqOrd.compare_eq_iff_eq]

omit [DecidableEq κ] in
theorem get_map (t : Table κ α) (f : κ → α → β) (a : κ) : (t.map f)[a]? = t[a]?.map (f a) := by
  rw [Std.ExtTreeMap.getElem?_map]

/-- A lookup in a modified table is a lookup in the table, up to the function. -/
theorem of_get_modify {t : Table κ α} {k a : κ} {f : α → α} {v : α}
    (h : (t.modify k f)[a]? = some v) : ∃ u, t[a]? = some u ∧ (v = u ∨ (a = k ∧ v = f u)) := by
  rw [get_modify] at h
  split at h
  next hk =>
    obtain ⟨u, hu, rfl⟩ := Option.map_eq_some_iff.mp h
    exact ⟨u, hk ▸ hu, .inr ⟨hk.symm, rfl⟩⟩
  next => exact ⟨v, h, .inl rfl⟩

omit [DecidableEq κ] in
theorem contains_iff {t : Table κ α} {a : κ} : t.contains a = true ↔ ∃ v, t[a]? = some v := by
  rw [Std.ExtTreeMap.contains_eq_isSome_getElem?, Option.isSome_iff_exists]

omit [DecidableEq κ] in
theorem contains_eq_false {t : Table κ α} {a : κ} : t.contains a = false ↔ t[a]? = none := by
  rw [Std.ExtTreeMap.contains_eq_isSome_getElem?, Option.isSome_eq_false_iff, Option.isNone_iff_eq_none]

omit [DecidableEq κ] in
/-- Tables with the same lookups are equal. -/
theorem ext {t u : Table κ α} (h : ∀ a : κ, t[a]? = u[a]?) : t = u := Std.ExtTreeMap.ext_getElem? h

/-- Only what a function does to the entry matters. -/
theorem modify_congr {t : Table κ α} {k : κ} {f g : α → α}
    (h : ∀ v, t[k]? = some v → f v = g v) : t.modify k f = t.modify k g := by
  refine ext fun a => ?_
  simp only [get_modify]
  split
  next hk =>
    subst hk
    cases hv : t[k]? with
    | none => rfl
    | some v => simp only [Option.map_some, h v hv]
  next => rfl

/-- Modifying an entry with its own value changes nothing. -/
theorem modify_eq_self {t : Table κ α} {k : κ} {f : α → α}
    (h : ∀ v, t[k]? = some v → f v = v) : t.modify k f = t := by
  refine ext fun a => ?_
  rw [get_modify]
  split
  next hk =>
    subst hk
    cases hv : t[k]? with
    | none => rfl
    | some v => rw [Option.map_some, h v hv]
  next => rfl

omit [DecidableEq κ] in
/-- The values are those of the listing. -/
theorem values_eq (t : Table κ α) : t.values = t.toList.map (·.2) := by
  have hfold : t.values = t.foldr (fun _ v l => v :: l) [] := by
    obtain ⟨⟨t⟩⟩ := t
    induction t using Quotient.ind with
    | _ t => rfl
  rw [hfold, Std.ExtTreeMap.foldr_eq_foldr_toList]
  induction t.toList with
  | nil => rfl
  | cons a l ih => rw [List.foldr_cons, ih, List.map_cons]

omit [DecidableEq κ] in
/-- A value of a table is the value of some key. -/
theorem mem_values {t : Table κ α} {v : α} (h : v ∈ t.values) : ∃ k : κ, t[k]? = some v := by
  rw [values_eq] at h
  obtain ⟨⟨k, w⟩, hmem, rfl⟩ := List.mem_map.mp h
  exact ⟨k, Std.ExtTreeMap.mem_toList_iff_getElem?_eq_some.mp hmem⟩

omit [DecidableEq κ] in
theorem mem_values_of_get {t : Table κ α} {k : κ} {v : α} (h : t[k]? = some v) : v ∈ t.values := by
  rw [values_eq]
  exact List.mem_map.mpr ⟨(k, v), Std.ExtTreeMap.mem_toList_iff_getElem?_eq_some.mpr h, rfl⟩

omit [DecidableEq κ] in
/-- A key that is not listed has no entry. -/
theorem get_of_not_mem_keys {t : Table κ α} {k : κ} (h : k ∉ t.keys) : t[k]? = none := by
  rw [Std.ExtTreeMap.mem_keys] at h
  exact Std.ExtTreeMap.getElem?_eq_none h

omit [DecidableEq κ] in
/-- The values of different keys are listed in pairs. -/
theorem pairwise_values {t : Table κ α} {R : α → α → Prop}
    (h : ∀ (k k' : κ) (v v' : α), t[k]? = some v → t[k']? = some v' → k ≠ k' → R v v') :
    t.values.Pairwise R := by
  have hkeys : (t.toList.map (·.1)).Nodup := by
    rw [Std.ExtTreeMap.map_fst_toList_eq_keys]
    exact Std.ExtTreeMap.nodup_keys
  rw [values_eq, List.pairwise_map]
  refine (List.pairwise_map.mp hkeys).imp_of_mem fun {p q} hp hq hne => ?_
  exact h p.1 q.1 p.2 q.2 (Std.ExtTreeMap.mem_toList_iff_getElem?_eq_some.mp hp)
    (Std.ExtTreeMap.mem_toList_iff_getElem?_eq_some.mp hq) hne

/-- A modification that what is looked at does not see. -/
theorem map_get_modify {t : Table κ α} {k : κ} {f : α → α} {g : α → β}
    (h : ∀ v, t[k]? = some v → g (f v) = g v) (a : κ) :
    ((t.modify k f)[a]?).map g = (t[a]?).map g := by
  rw [get_modify]
  split
  next hk =>
    subst hk
    cases hv : t[k]? with
    | none => rfl
    | some v => simp only [Option.map_some, h v hv]
  next => rfl

end Table
