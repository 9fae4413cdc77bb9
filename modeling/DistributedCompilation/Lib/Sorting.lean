import Mathlib

/-!
# Sorting and deduplication by a comparison

`sortBy` sorts by a three-way comparison and keeps the order of equal
elements. `uniqueBy` keeps the first element of every run of equal ones.
-/

/-- Stable sort by a comparison. -/
def sortBy {α : Type} (cmp : α → α → Ordering) (xs : List α) : List α :=
  xs.insertionSort fun a b => (cmp a b).isLE = true

/-- Removes every element equal to the last one kept. -/
def uniqueBy {α : Type} (same : α → α → Bool) (xs : List α) : List α :=
  xs.destutter fun a b => same a b = false

theorem sortBy_perm {α : Type} (cmp : α → α → Ordering) (xs : List α) :
    (sortBy cmp xs).Perm xs := List.perm_insertionSort _ _

@[simp] theorem mem_sortBy {α : Type} {cmp : α → α → Ordering} {xs : List α} {a : α} :
    a ∈ sortBy cmp xs ↔ a ∈ xs := (sortBy_perm cmp xs).mem_iff

@[simp] theorem length_sortBy {α : Type} (cmp : α → α → Ordering) (xs : List α) :
    (sortBy cmp xs).length = xs.length := (sortBy_perm cmp xs).length_eq

theorem uniqueBy_sublist {α : Type} (same : α → α → Bool) (xs : List α) :
    (uniqueBy same xs).Sublist xs := List.destutter_sublist _ _

theorem mem_of_mem_uniqueBy {α : Type} {same : α → α → Bool} {xs : List α} {a : α}
    (h : a ∈ uniqueBy same xs) : a ∈ xs := (uniqueBy_sublist same xs).subset h

-- ---------------------------------------------------------------------------
-- Sorted lists
-- ---------------------------------------------------------------------------

/-- No element comes after a greater one. -/
def SortedBy {α : Type} (cmp : α → α → Ordering) (xs : List α) : Prop :=
  xs.Pairwise fun a b => (cmp a b).isLE = true

theorem sortBy_of_sorted {α : Type} {cmp : α → α → Ordering} {xs : List α}
    (h : SortedBy cmp xs) : sortBy cmp xs = xs := List.Pairwise.insertionSort_eq h

theorem sortedBy_sortBy {α : Type} (cmp : α → α → Ordering) [Std.TransCmp cmp] (xs : List α) :
    SortedBy cmp (sortBy cmp xs) := by
  let le : α → α → Prop := fun a b => (cmp a b).isLE = true
  have total : Std.Total le := ⟨fun a b => by
    rcases h : (cmp a b).isLE with _ | _
    · refine .inr ?_
      show (cmp b a).isLE = true
      have hswap : cmp b a = (cmp a b).swap := Std.OrientedCmp.eq_swap
      rw [hswap]
      cases hc : cmp a b <;> simp_all
    · exact .inl h⟩
  have trans : IsTrans α le := ⟨fun _ _ _ => Std.TransCmp.isLE_trans⟩
  exact List.pairwise_insertionSort le xs

theorem sortBy_eq_self_iff {α : Type} {cmp : α → α → Ordering} [Std.TransCmp cmp] {xs : List α} :
    sortBy cmp xs = xs ↔ SortedBy cmp xs :=
  ⟨fun h => h ▸ sortedBy_sortBy cmp xs, sortBy_of_sorted⟩

theorem SortedBy.sublist {α : Type} {cmp : α → α → Ordering} {xs ys : List α}
    (h : SortedBy cmp ys) (hs : xs.Sublist ys) : SortedBy cmp xs := List.Pairwise.sublist hs h

/-- Sorting looks at the keys alone. -/
theorem sortBy_map {α β : Type} {cmp : α → α → Ordering} {cmp' : β → β → Ordering} (f : α → β)
    (hf : ∀ a b, cmp' (f a) (f b) = cmp a b) (xs : List α) :
    sortBy cmp' (xs.map f) = (sortBy cmp xs).map f := by
  refine (List.map_insertionSort _ _ f xs fun a _ b _ => ?_).symm
  rw [hf]

theorem SortedBy.map {α β : Type} {cmp : α → α → Ordering} {cmp' : β → β → Ordering} {f : α → β}
    (hf : ∀ a b, cmp' (f a) (f b) = cmp a b) {xs : List α} (h : SortedBy cmp xs) :
    SortedBy cmp' (xs.map f) := by
  rw [SortedBy, List.pairwise_map]
  exact List.Pairwise.imp (fun {a b} hab => by rw [hf]; exact hab) h

@[simp] theorem uniqueBy_uniqueBy {α : Type} (same : α → α → Bool) (xs : List α) :
    uniqueBy same (uniqueBy same xs) = uniqueBy same xs := List.destutter_idem ..

theorem uniqueBy_map {α β : Type} {same : α → α → Bool} {same' : β → β → Bool} (f : α → β)
    (hf : ∀ a b, same' (f a) (f b) = same a b) (xs : List α) :
    uniqueBy same' (xs.map f) = (uniqueBy same xs).map f :=
  (List.map_destutter fun a _ b _ => by rw [hf]).symm

/-- A list that was sorted and deduplicated is left alone. -/
theorem uniqueBy_sortBy_idem {α : Type} {cmp : α → α → Ordering} [Std.TransCmp cmp]
    (same : α → α → Bool) (xs : List α) :
    uniqueBy same (sortBy cmp (uniqueBy same (sortBy cmp xs))) =
      uniqueBy same (sortBy cmp xs) := by
  rw [sortBy_of_sorted ((sortedBy_sortBy cmp xs).sublist (uniqueBy_sublist same _)),
    uniqueBy_uniqueBy]

/-- A sorted list is sorted when all elements that are equal to a kept one are put
back behind it. -/
theorem sortedBy_of_destutter' {α : Type} {cmp : α → α → Ordering} [Std.TransCmp cmp]
    {same : α → α → Bool} (hsame : ∀ a b, same a b = true → cmp a b = .eq) (a : α) (xs : List α)
    (h : SortedBy cmp (xs.destutter' (fun a b => same a b = false) a)) : SortedBy cmp (a :: xs) := by
  induction xs generalizing a with
  | nil => exact List.pairwise_singleton _ _
  | cons b xs ih =>
    have step : (cmp a b).isLE = true ∧ SortedBy cmp (b :: xs) → SortedBy cmp (a :: b :: xs) := by
      rintro ⟨hab, hsorted⟩
      refine List.pairwise_cons.mpr ⟨fun x hx => ?_, hsorted⟩
      rcases List.mem_cons.mp hx with rfl | hx
      · exact hab
      · exact Std.TransCmp.isLE_trans hab (List.rel_of_pairwise_cons hsorted hx)
    rw [List.destutter'_cons] at h
    split at h
    · obtain ⟨hhead, htail⟩ := List.pairwise_cons.mp h
      exact step ⟨hhead b (List.mem_destutter' _ _ _), ih b htail⟩
    · next hkept =>
      have heq : cmp a b = .eq := hsame a b (Bool.not_eq_false _ ▸ hkept)
      have hsorted := ih a h
      refine step ⟨by rw [heq]; rfl, List.pairwise_cons.mpr ⟨fun x hx => ?_, hsorted.of_cons⟩⟩
      have hba : (cmp b a).isLE = true := by
        have hswap : cmp b a = (cmp a b).swap := Std.OrientedCmp.eq_swap
        rw [hswap, heq]
        rfl
      exact Std.TransCmp.isLE_trans hba (List.rel_of_pairwise_cons hsorted hx)

/-- Deduplication by equal keys neither sorts a list nor unsorts it. -/
theorem sortedBy_uniqueBy_iff {α : Type} {cmp : α → α → Ordering} [Std.TransCmp cmp]
    {same : α → α → Bool} (hsame : ∀ a b, same a b = true → cmp a b = .eq) {xs : List α} :
    SortedBy cmp (uniqueBy same xs) ↔ SortedBy cmp xs := by
  refine ⟨fun h => ?_, fun h => h.sublist (uniqueBy_sublist same xs)⟩
  cases xs with
  | nil => exact .nil
  | cons a xs => exact sortedBy_of_destutter' hsame a xs h

-- ---------------------------------------------------------------------------
-- Lists in another order
-- ---------------------------------------------------------------------------

/-- Sorting forgets the order a list came in when elements that compare equal
are equal. -/
theorem sortBy_eq_of_perm {α : Type} {cmp : α → α → Ordering} [Std.TransCmp cmp] {xs ys : List α}
    (h : xs.Perm ys) (distinct : ∀ a ∈ xs, ∀ b ∈ xs, cmp a b = .eq → a = b) :
    sortBy cmp xs = sortBy cmp ys := by
  have perm : (sortBy cmp xs).Perm (sortBy cmp ys) :=
    (sortBy_perm cmp xs).trans (h.trans (sortBy_perm cmp ys).symm)
  refine perm.eq_of_pairwise (fun a b ha hb hab hba => ?_) (sortedBy_sortBy cmp xs)
    (sortedBy_sortBy cmp ys)
  have ha : a ∈ xs := mem_sortBy.mp ha
  have hb : b ∈ xs := h.mem_iff.mpr (mem_sortBy.mp hb)
  exact distinct a ha b hb (Std.OrientedCmp.isLE_antisymm hab hba)

theorem forall₂_orderedInsert {α β : Type} {R : α → β → Prop} {le : α → α → Prop}
    {le' : β → β → Prop} [DecidableRel le] [DecidableRel le']
    (hle : ∀ a b a' b', R a b → R a' b' → (le a a' ↔ le' b b')) {a : α} {b : β} (hab : R a b)
    {xs : List α} {ys : List β} (h : List.Forall₂ R xs ys) :
    List.Forall₂ R (xs.orderedInsert le a) (ys.orderedInsert le' b) := by
  induction h with
  | nil => exact .cons hab .nil
  | @cons a' b' xs ys hab' hxs ih =>
    have same := hle a b a' b' hab hab'
    rw [List.orderedInsert_cons, List.orderedInsert_cons]
    by_cases hla : le a a'
    · rw [if_pos hla, if_pos (same.mp hla)]
      exact .cons hab (.cons hab' hxs)
    · rw [if_neg hla, if_neg (fun hlb => hla (same.mpr hlb))]
      exact .cons hab' ih

/-- Two lists that agree element by element agree so after sorting. -/
theorem forall₂_sortBy {α β : Type} {R : α → β → Prop} {cmp : α → α → Ordering}
    {cmp' : β → β → Ordering} (hcmp : ∀ a b a' b', R a b → R a' b' → cmp' b b' = cmp a a')
    {xs : List α} {ys : List β} (h : List.Forall₂ R xs ys) :
    List.Forall₂ R (sortBy cmp xs) (sortBy cmp' ys) := by
  have hle : ∀ a b a' b', R a b → R a' b' → ((cmp a a').isLE = true ↔ (cmp' b b').isLE = true) := by
    intro a b a' b' hab hab'
    rw [hcmp a b a' b' hab hab']
  induction h with
  | nil => exact .nil
  | cons hab _ ih => exact forall₂_orderedInsert hle hab ih

theorem uniqueBy_map_cons_of_isChain {α β : Type} [BEq β] [LawfulBEq β] {k : α → β} {f : α → α}
    (hk : ∀ a, k (f a) = k a) (kept last : α) (xs : List α) (hkept : k last = k kept)
    (chain : List.IsChain (fun a b => k b = k a ∨ f b = b) (last :: xs)) :
    (xs.map f).destutter' (fun a b => (k a == k b) = false) kept =
      xs.destutter' (fun a b => (k a == k b) = false) kept := by
  induction xs generalizing kept last with
  | nil => rfl
  | cons b xs ih =>
    rw [List.isChain_cons_cons] at chain
    obtain ⟨hb, chain⟩ := chain
    rw [List.map_cons, List.destutter'_cons, List.destutter'_cons, hk]
    by_cases hdrop : (k kept == k b) = false
    · rw [if_pos hdrop, if_pos hdrop]
      have hne : k b ≠ k last := by
        intro heq
        rw [heq, hkept, beq_self_eq_true] at hdrop
        exact Bool.noConfusion hdrop
      rw [hb.resolve_left hne, ih b b rfl chain]
    · rw [if_neg hdrop, if_neg hdrop]
      have heq : k kept = k b := eq_of_beq (Bool.not_eq_false _ ▸ hdrop)
      exact ih kept b heq.symm chain

/-- Deduplication does not see what happens to elements that carry the key of
the element before them. -/
theorem uniqueBy_map_of_isChain {α β : Type} [BEq β] [LawfulBEq β] {k : α → β} {f : α → α}
    (hk : ∀ a, k (f a) = k a) {xs : List α} (hhead : ∀ a ∈ xs.head?, f a = a)
    (chain : xs.IsChain fun a b => k b = k a ∨ f b = b) :
    uniqueBy (fun a b => k a == k b) (xs.map f) = uniqueBy (fun a b => k a == k b) xs := by
  cases xs with
  | nil => rfl
  | cons a xs =>
    have fixed : f a = a := hhead a rfl
    rw [List.map_cons, fixed]
    exact uniqueBy_map_cons_of_isChain hk a a xs rfl chain
