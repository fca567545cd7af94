/-
**Sorting and maxima under a comparator.**

A comparator `cmp : α → α → Ordering` drives two list operations.

* `sortBy cmp` — the stable sort. On a list in which `cmp` separates distinct elements the sorted
  list depends only on the elements (`sortBy_eq_of_perm`).
* `maxBy cmp` — the last of the greatest elements. It is a member (`maxBy_mem`) and it bounds every
  element (`le_maxBy`).

Both are transported along every relation the comparators respect (`sortBy_rel`, `maxBy_rel`).
`foldl_perm_rel` is the rule for folds whose steps commute.
-/

import Mathlib

namespace Darkmatter.Lib

open Std List

variable {α β : Type}

/-! ### The stable sort -/

section SortBy

/-- The stable sort by a comparator. -/
def sortBy (cmp : α → α → Ordering) (l : List α) : List α :=
  l.insertionSort fun a b => (cmp a b).isLE

variable {cmp : α → α → Ordering}

theorem sortBy_perm (l : List α) : (sortBy cmp l).Perm l :=
  perm_insertionSort _ l

@[simp]
theorem mem_sortBy {l : List α} {a : α} : a ∈ sortBy cmp l ↔ a ∈ l :=
  (sortBy_perm l).mem_iff

@[simp]
theorem sortBy_nil : sortBy cmp [] = [] := rfl

variable {cmp' : β → β → Ordering}

private theorem orderedInsert_rel {R : α → β → Prop}
    (respects : ∀ a a' b b', R a a' → R b b' → cmp a b = cmp' a' b') {a : α} {a' : β}
    (here : R a a') {l : List α} {l' : List β} (related : List.Forall₂ R l l') :
    List.Forall₂ R (l.orderedInsert (fun a b => (cmp a b).isLE) a)
      (l'.orderedInsert (fun a b => (cmp' a b).isLE) a') := by
  induction related with
  | nil => exact .cons here .nil
  | cons first rest ih =>
    rw [orderedInsert_cons, orderedInsert_cons, respects _ _ _ _ here first]
    split
    · exact .cons here (.cons first rest)
    · exact .cons first ih

/-- **Sorting is transported along every relation the comparators respect.** -/
theorem sortBy_rel {R : α → β → Prop}
    (respects : ∀ a a' b b', R a a' → R b b' → cmp a b = cmp' a' b') {l : List α} {l' : List β}
    (related : List.Forall₂ R l l') : List.Forall₂ R (sortBy cmp l) (sortBy cmp' l') := by
  induction related with
  | nil => exact .nil
  | cons here _ ih => exact orderedInsert_rel respects here ih

theorem map_sortBy {key : α → β} (respects : ∀ a b, cmp a b = cmp' (key a) (key b)) (l : List α) :
    (sortBy cmp l).map key = sortBy cmp' (l.map key) := by
  have keyed : List.Forall₂ (fun a k => key a = k) l (l.map key) :=
    forall₂_map_right_iff.mpr (forall₂_same.mpr fun _ _ => rfl)
  have sorted := @sortBy_rel _ _ cmp cmp' (fun a k => key a = k)
    (fun a k b k' first second => by rw [← first, ← second]; exact respects a b) _ _ keyed
  rwa [← forall₂_map_left_iff, forall₂_eq_eq_eq] at sorted

variable [TransCmp cmp]

theorem sortBy_pairwise (l : List α) : (sortBy cmp l).Pairwise fun a b => (cmp a b).isLE := by
  have : Std.Total fun a b => (cmp a b).isLE = true :=
    ⟨fun a b => by
      rcases h : cmp a b with _ | _ | _
      · exact Or.inl rfl
      · exact Or.inl rfl
      · exact Or.inr (by rw [OrientedCmp.lt_of_gt h]; rfl)⟩
  have : IsTrans α fun a b => (cmp a b).isLE = true := ⟨fun _ _ _ => TransCmp.isLE_trans⟩
  exact pairwise_insertionSort _ l

private theorem filter_orderedInsert {keep : α → Bool} {a : α} {l : List α}
    (sorted : l.Pairwise fun a b => (cmp a b).isLE) :
    (l.orderedInsert (fun a b => (cmp a b).isLE) a).filter keep =
      if keep a then (l.filter keep).orderedInsert (fun a b => (cmp a b).isLE) a
      else l.filter keep := by
  induction l with
  | nil =>
    rw [orderedInsert_nil, filter_cons]
    rfl
  | cons b l ih =>
    obtain ⟨least, rest⟩ := pairwise_cons.mp sorted
    rw [orderedInsert_cons]
    by_cases le : (cmp a b).isLE
    · rw [if_pos le, filter_cons]
      split
      · cases kept : (b :: l).filter keep with
        | nil => rfl
        | cons c =>
          rw [orderedInsert_cons, if_pos]
          have member : c ∈ b :: l := mem_of_mem_filter (kept ▸ mem_cons_self)
          rcases mem_cons.mp member with rfl | later
          · exact le
          · exact TransCmp.isLE_trans le (least c later)
      · rfl
    · rw [if_neg le, filter_cons, filter_cons, ih rest]
      split <;> split <;> simp [le]

/-- **The sort is stable under dropping elements.** -/
theorem filter_sortBy {keep : α → Bool} (l : List α) :
    (sortBy cmp l).filter keep = sortBy cmp (l.filter keep) := by
  induction l with
  | nil => rfl
  | cons a l ih =>
    have inserted := @filter_orderedInsert _ cmp _ keep a _ (sortBy_pairwise l)
    rw [ih] at inserted
    rw [filter_cons]
    refine inserted.trans ?_
    split <;> rfl

/-- **The sorted list depends only on the elements**, as soon as the comparator separates them. -/
theorem sortBy_eq_of_perm {l l' : List α} (same : l.Perm l')
    (separates : ∀ a ∈ l, ∀ b ∈ l, cmp a b = .eq → a = b) : sortBy cmp l = sortBy cmp l' := by
  have perm : (sortBy cmp l).Perm (sortBy cmp l') :=
    (sortBy_perm l).trans (same.trans (sortBy_perm l').symm)
  refine perm.eq_of_pairwise (fun a b hereA hereB le ge => ?_) (sortBy_pairwise l)
    (sortBy_pairwise l')
  refine separates a (mem_sortBy.mp hereA) b (same.mem_iff.mpr (mem_sortBy.mp hereB)) ?_
  exact OrientedCmp.isLE_antisymm le ge

/-- **Two sorted lists with the same elements are equal**, when each has every element once and the
comparator separates them. -/
theorem eq_of_sorted {l l' : List α} (sorted : l.Pairwise fun a b => (cmp a b).isLE)
    (sorted' : l'.Pairwise fun a b => (cmp a b).isLE) (once : l.Nodup) (once' : l'.Nodup)
    (separates : ∀ a ∈ l, ∀ b ∈ l, cmp a b = .eq → a = b) (same : ∀ a, a ∈ l ↔ a ∈ l') :
    l = l' := by
  have perm : l.Perm l' := (perm_ext_iff_of_nodup once once').mpr same
  refine perm.eq_of_pairwise (fun a b hereA hereB le ge => ?_) sorted sorted'
  exact separates a hereA b ((same b).mpr hereB) (OrientedCmp.isLE_antisymm le ge)

theorem sortBy_congr [LawfulEqCmp cmp] {l l' : List α} (same : l.Perm l') :
    sortBy cmp l = sortBy cmp l' :=
  sortBy_eq_of_perm same fun _ _ _ _ => LawfulEqCmp.eq_of_compare

end SortBy

/-! ### The last greatest element -/

section MaxBy

/-- The last of the greatest elements under a comparator. -/
def maxBy (cmp : α → α → Ordering) : List α → Option α
  | [] => none
  | a :: l => some (l.foldl (fun best x => if cmp best x = .gt then best else x) a)

variable {cmp : α → α → Ordering}

variable {l : List α} {best : α} {cmp' : β → β → Ordering} {R : α → β → Prop} {l' : List β}

theorem maxBy_eq_none : maxBy cmp l = none ↔ l = [] := by
  cases l <;> simp [maxBy]

private theorem foldl_max_mem (l : List α) (a : α) :
    l.foldl (fun best x => if cmp best x = .gt then best else x) a ∈ a :: l := by
  induction l generalizing a with
  | nil => exact mem_singleton_self a
  | cons b l ih =>
    rw [foldl_cons]
    split
    · rcases mem_cons.mp (ih a) with here | here
      · rw [here]
        exact mem_cons_self
      · exact mem_cons_of_mem _ (mem_cons_of_mem _ here)
    · exact mem_cons_of_mem _ (ih b)

theorem maxBy_mem (isMax : maxBy cmp l = some best) : best ∈ l := by
  cases l with
  | nil => cases isMax
  | cons a l =>
    cases isMax
    exact foldl_max_mem l a

private theorem le_foldl_max [TransCmp cmp] (l : List α) (a : α) :
    ∀ x ∈ a :: l,
      (cmp x (l.foldl (fun best x => if cmp best x = .gt then best else x) a)).isLE := by
  induction l generalizing a with
  | nil =>
    intro x member
    rw [mem_singleton.mp member]
    exact ReflCmp.isLE_rfl
  | cons b l ih =>
    intro x member
    rw [foldl_cons]
    split
    · rename_i greater
      rcases mem_cons.mp member with rfl | member
      · exact ih _ _ mem_cons_self
      · rcases mem_cons.mp member with rfl | member
        · refine TransCmp.isLE_trans ?_ (ih a a mem_cons_self)
          rw [OrientedCmp.lt_of_gt greater]
          rfl
        · exact ih _ _ (mem_cons_of_mem _ member)
    · rename_i notGreater
      rcases mem_cons.mp member with rfl | member
      · refine TransCmp.isLE_trans ?_ (ih b b mem_cons_self)
        cases order : cmp x b <;> simp_all
      · exact ih _ _ member

/-- **The maximum bounds every element.** -/
theorem le_maxBy [TransCmp cmp] (isMax : maxBy cmp l = some best) : ∀ x ∈ l, (cmp x best).isLE := by
  cases l with
  | nil => cases isMax
  | cons a l =>
    cases isMax
    exact le_foldl_max l a

theorem maxBy_eq_some_of_lt [TransCmp cmp] (member : best ∈ l)
    (above : ∀ x ∈ l, x ≠ best → cmp x best = .lt) : maxBy cmp l = some best := by
  cases found : maxBy cmp l with
  | none => exact absurd (maxBy_eq_none.mp found) (ne_nil_of_mem member)
  | some other =>
    refine congrArg some (Classical.byContradiction fun apart => ?_)
    have below := le_maxBy found best member
    rw [OrientedCmp.gt_of_lt (above other (maxBy_mem found) apart)] at below
    cases below

private theorem foldl_max_rel (respects : ∀ a a' b b', R a a' → R b b' → cmp a b = cmp' a' b')
    (related : List.Forall₂ R l l') :
    ∀ {a : α} {a' : β}, R a a' →
      R (l.foldl (fun best x => if cmp best x = .gt then best else x) a)
        (l'.foldl (fun best x => if cmp' best x = .gt then best else x) a') := by
  induction related with
  | nil => exact fun start => start
  | cons here _ ih =>
    intro a _ start
    rw [foldl_cons, foldl_cons, respects _ _ _ _ start here]
    split
    · exact ih start
    · exact ih here

/-- **The maximum is transported along every relation the comparators respect.** -/
theorem maxBy_rel (respects : ∀ a a' b b', R a a' → R b b' → cmp a b = cmp' a' b')
    (related : List.Forall₂ R l l') : Option.Rel R (maxBy cmp l) (maxBy cmp' l') := by
  cases related with
  | nil => exact .none
  | cons here rest => exact .some (foldl_max_rel respects rest here)

end MaxBy

/-! ### Folds that do not see the order -/

/-- **A fold over a permuted list**, up to a transitive relation that the step respects and under
which two steps commute. -/
theorem foldl_perm_rel {R : β → β → Prop} (trans : ∀ {x y z}, R x y → R y z → R x z)
    {step : β → α → β} (respects : ∀ {x y} a, R x y → R (step x a) (step y a))
    (commutes : ∀ x a b, R (step (step x a) b) (step (step x b) a)) {l l' : List α}
    (same : l.Perm l') :
    ∀ {x y : β}, R x x → R x y → R (l.foldl step x) (l'.foldl step y) := by
  induction same with
  | nil => exact fun _ start => start
  | cons a _ ih => exact fun loop start => ih (respects a loop) (respects a start)
  | swap a b l =>
    intro x y _ start
    have tail : ∀ (l : List α) {u v : β}, R u v → R (l.foldl step u) (l.foldl step v) := by
      intro l
      induction l with
      | nil => exact fun here => here
      | cons c l ih => exact fun here => ih (respects c here)
    exact tail l (trans (commutes x b a) (respects b (respects a start)))
  | trans _ _ first second =>
    exact fun loop start => trans (first loop loop) (second loop start)

end Darkmatter.Lib
