/-
**Cutting a list into chunks within a limit.**

* `Greedy` — every chunk takes as many elements as the limit allows;
* `Greedy.length_le` — **no list of pieces within the limit is shorter**.
-/

import Mathlib

namespace Darkmatter.Lib

open List

variable {α : Type} (weight : α → ℕ) (limit : ℕ)

def weightOf (chunk : List α) : ℕ := (chunk.map weight).sum

/-- **Greedy chunks**: none is empty, one over the limit is a single element, and the next element
does not fit into any. -/
def Greedy : List (List α) → Prop
  | [] => True
  | chunk :: rest => chunk ≠ [] ∧ (limit < weightOf weight chunk → chunk.length = 1) ∧
    (∀ next ∈ rest.flatten.head?, limit < weightOf weight chunk + weight next) ∧ Greedy rest

variable {weight limit}

theorem Greedy.within {chunks : List (List α)} (greedy : Greedy weight limit chunks) :
    ∀ chunk ∈ chunks, chunk ≠ [] ∧ (limit < weightOf weight chunk → chunk.length = 1) := by
  induction chunks with
  | nil => exact fun _ member => by cases member
  | cons first rest ih =>
    obtain ⟨nonempty, single, _, greedyRest⟩ := greedy
    intro chunk member
    rcases mem_cons.mp member with rfl | member
    · exact ⟨nonempty, single⟩
    · exact ih greedyRest chunk member

/-- **Greedy chunks are few.** The pieces may have more in front: they are always behind. -/
theorem Greedy.length_le {chunks pieces : List (List α)} {front : List α}
    (greedy : Greedy weight limit chunks) (same : pieces.flatten = front ++ chunks.flatten)
    (fits : ∀ piece ∈ pieces, weightOf weight piece ≤ limit) : chunks.length ≤ pieces.length := by
  induction chunks generalizing front pieces with
  | nil => exact Nat.zero_le _
  | cons chunk rest ih =>
    obtain ⟨nonempty, _, full, greedyRest⟩ := greedy
    cases pieces with
    | nil =>
      rw [flatten_cons, flatten_nil, eq_comm] at same
      exact absurd (append_eq_nil_iff.mp (append_eq_nil_iff.mp same).2).1 nonempty
    | cons piece pieces =>
      have fitsRest := fun other member => fits other (mem_cons_of_mem piece member)
      rw [flatten_cons, flatten_cons, ← append_assoc] at same
      refine Nat.succ_le_succ ?_
      rcases append_eq_append_iff.mp same with ⟨more, _, after⟩ | ⟨more, longer, after⟩
      · exact ih greedyRest after fitsRest
      · cases more with
        | nil =>
          exact ih greedyRest (show pieces.flatten = [] ++ rest.flatten from after.symm) fitsRest
        | cons next =>
          -- The piece has the whole chunk and the next element, so it does not fit.
          have above := full next (by rw [after]; rfl)
          have fit := fits piece mem_cons_self
          rw [longer] at fit
          simp only [weightOf, map_append, sum_append, map_cons, sum_cons] at above fit
          omega

end Darkmatter.Lib
