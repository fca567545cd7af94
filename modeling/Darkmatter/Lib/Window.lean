/-
**Histories of bounded depth.**

A history is the set of the points visited so far. Of these, a bounded history keeps the ones that no
visited point lies more than `depth` above. It covers a tip when it keeps every point from the start
of the history, or from `depth` below the tip, up to the tip:

* `mem_kept_insert` — what is kept after one more visit;
* `covers_Icc_iff` — **when a history without gaps covers its tip**;
* `EveryStep` — a condition on every step of a run and the steps before it.
-/

import Mathlib.Data.List.Infix
import Mathlib.Data.Set.Insert
import Mathlib.Order.Interval.Set.Basic

namespace Darkmatter.Lib

open List

section Window

variable {visited : Set ℕ} {depth first top tip point : ℕ}

/-- The visited points that no visited point lies more than `depth` above. -/
def kept (visited : Set ℕ) (depth : ℕ) : Set ℕ :=
  {point ∈ visited | ∀ other ∈ visited, other ≤ point + depth}

/-- Every point from the start of the history, or from `depth` below the tip, up to the tip is
kept. -/
def Covers (visited : Set ℕ) (depth first tip : ℕ) : Prop :=
  ∀ point, first ≤ point → tip - depth ≤ point → point ≤ tip → point ∈ kept visited depth

/-- **One more visit.** -/
theorem mem_kept_insert (near : ∀ other ∈ visited, other ≤ tip + depth) :
    point ∈ kept (insert tip visited) depth ↔
      tip ≤ point + depth ∧ (point = tip ∨ point ∈ kept visited depth) := by
  constructor
  · rintro ⟨visit, above⟩
    refine ⟨above tip (Set.mem_insert _ _), ?_⟩
    rcases visit with rfl | visit
    · exact Or.inl rfl
    · exact Or.inr ⟨visit, fun other old => above other (Set.mem_insert_of_mem _ old)⟩
  · rintro ⟨close, rfl | ⟨visit, above⟩⟩
    · refine ⟨Set.mem_insert _ _, ?_⟩
      rintro other (rfl | old)
      · exact close
      · exact near other old
    · refine ⟨Set.mem_insert_of_mem _ visit, ?_⟩
      rintro other (rfl | old)
      · exact close
      · exact above other old

theorem insert_Icc (above : first ≤ tip) (close : tip ≤ top + 1) :
    insert tip (Set.Icc first top) = Set.Icc first (max top tip) := by
  ext point
  rw [Set.mem_insert_iff, Set.mem_Icc, Set.mem_Icc]
  omega

/-- **A history without gaps** covers a tip exactly when the tip is its highest point, or no point is
out of reach yet. -/
theorem covers_Icc_iff (within : tip ∈ Set.Icc first top) (near : top ≤ tip + depth) :
    Covers (Set.Icc first top) depth first tip ↔ top ≤ tip ∨ top ≤ first + depth := by
  rw [Set.mem_Icc] at within
  constructor
  · intro covered
    by_contra uncovered
    rw [not_or] at uncovered
    obtain ⟨_, reach⟩ := covered (max first (tip - depth)) (le_max_left _ _) (le_max_right _ _)
      (by omega)
    have highest := reach top (Set.mem_Icc.mpr ⟨by omega, le_rfl⟩)
    omega
  · intro _ _ above _ _
    refine ⟨Set.mem_Icc.mpr ⟨above, by omega⟩, fun other visit => ?_⟩
    rw [Set.mem_Icc] at visit
    omega

theorem covers_zero (visit : tip ∈ visited) (near : ∀ other ∈ visited, other ≤ tip) :
    Covers visited 0 first tip := by
  intro point _ _ _
  rw [show point = tip by omega]
  exact ⟨visit, near⟩

end Window

/-! ### Steps of a run -/

section Runs

variable {α : Type} {P : List α → α → Prop} {steps : List α} {step : α}

/-- A condition on every step of a run, given the steps before it. -/
def EveryStep (P : List α → α → Prop) (steps : List α) : Prop :=
  ∀ done step, done ++ [step] <+: steps → P done step

theorem everyStep_nil : EveryStep P [] := by
  intro _ _ earlier
  simp only [prefix_nil, append_eq_nil_iff, cons_ne_nil, and_false] at earlier

theorem everyStep_append_iff : EveryStep P (steps ++ [step]) ↔ EveryStep P steps ∧ P steps step := by
  constructor
  · intro every
    exact ⟨fun done step' earlier => every done step' (earlier.trans (prefix_append _ _)),
      every steps step prefix_rfl⟩
  · rintro ⟨every, last⟩ done step' earlier
    rcases prefix_concat_iff.mp earlier with same | before
    · obtain ⟨rfl, lastStep⟩ := append_inj' same rfl
      rw [singleton_inj.mp lastStep]
      exact last
    · exact every done step' before

end Runs

end Darkmatter.Lib
