/-
**Tables with one row under each key.**

A table is a list of rows, and a row has a key. Writing a row replaces the row of its key in place, or
adds it at the end.

* `mem_put` — the rows after one was written;
* `mem_foldl_put` — **the rows of one table written over another**: those of the first, and those of
  the second under keys that the first does not have;
* `foldl_put_eq` — rows that grew from older ones, written over the older ones, are what they are.
-/

import Mathlib

namespace Darkmatter.Lib

open List

variable {α κ : Type} [DecidableEq κ] (key : α → κ)

/-- A row is replaced in place, and a new row goes to the end. -/
def put (rows : List α) (row : α) : List α :=
  match rows with
  | [] => [row]
  | first :: rest => if key first = key row then row :: rest else first :: put rest row

variable {key} {rows : List α}

theorem put_keys (row : α) :
    (put key rows row).map key =
      if key row ∈ rows.map key then rows.map key else rows.map key ++ [key row] := by
  induction rows with
  | nil => rfl
  | cons first rest ih =>
    rw [put]
    by_cases here : key first = key row
    · rw [if_pos here, map_cons, map_cons, if_pos]
      · rw [here]
      · rw [here]
        exact mem_cons_self
    · rw [if_neg here, map_cons, map_cons, ih]
      by_cases later : key row ∈ rest.map key
      · rw [if_pos later, if_pos (mem_cons_of_mem _ later)]
      · rw [if_neg later, if_neg]
        · rfl
        · rw [mem_cons, not_or]
          exact ⟨Ne.symm here, later⟩

theorem put_grows (row : α) : rows.map key <+: (put key rows row).map key := by
  rw [put_keys]
  split
  · exact prefix_rfl
  · exact prefix_append _ _

theorem put_nodup (distinct : (rows.map key).Nodup) (row : α) :
    ((put key rows row).map key).Nodup := by
  rw [put_keys]
  split_ifs with known
  · exact distinct
  · refine nodup_append.mpr ⟨distinct, nodup_singleton _, ?_⟩
    rintro _ isOld _ isNew rfl
    rw [mem_singleton.mp isNew] at isOld
    exact known isOld

variable {row : α} {live older : List α}

theorem mem_put {other : α} (distinct : (rows.map key).Nodup) :
    other ∈ put key rows row ↔ other = row ∨ other ∈ rows ∧ key other ≠ key row := by
  induction rows with
  | nil => simp [put]
  | cons first rest ih =>
    rw [map_cons, nodup_cons] at distinct
    rw [put]
    split_ifs with here
    · have apart : ∀ later ∈ rest, key later ≠ key row :=
        fun later member same => distinct.1 (here ▸ same ▸ mem_map_of_mem member)
      simp only [mem_cons]
      constructor
      · rintro (rfl | later)
        · exact Or.inl rfl
        · exact Or.inr ⟨Or.inr later, apart other later⟩
      · rintro (rfl | ⟨rfl | later, differs⟩)
        · exact Or.inl rfl
        · exact absurd here differs
        · exact Or.inr later
    · rw [mem_cons, mem_cons, ih distinct.2]
      constructor
      · rintro (rfl | rfl | ⟨later, differs⟩)
        · exact Or.inr ⟨Or.inl rfl, here⟩
        · exact Or.inl rfl
        · exact Or.inr ⟨Or.inr later, differs⟩
      · rintro (rfl | ⟨rfl | later, differs⟩)
        · exact Or.inr (Or.inl rfl)
        · exact Or.inl rfl
        · exact Or.inr (Or.inr ⟨later, differs⟩)

/-- **The rows of one table written over another.** -/
theorem mem_foldl_put (distinct : (live.map key).Nodup) (olderDistinct : (older.map key).Nodup) :
    ((live.foldl (put key) older).map key).Nodup ∧
      ∀ row, row ∈ live.foldl (put key) older ↔
        row ∈ live ∨ row ∈ older ∧ key row ∉ live.map key := by
  induction live generalizing older with
  | nil => exact ⟨olderDistinct, fun row => by simp⟩
  | cons first rest ih =>
    rw [map_cons, nodup_cons] at distinct
    obtain ⟨rows, members⟩ := ih distinct.2 (put_nodup olderDistinct first)
    refine ⟨rows, fun row => ?_⟩
    rw [foldl_cons, members, mem_put olderDistinct, map_cons, mem_cons, mem_cons, not_or]
    constructor
    · rintro (later | ⟨rfl | ⟨old, differs⟩, fresh⟩)
      · exact Or.inl (Or.inr later)
      · exact Or.inl (Or.inl rfl)
      · exact Or.inr ⟨old, differs, fresh⟩
    · rintro ((rfl | later) | ⟨old, differs, fresh⟩)
      · exact Or.inr ⟨Or.inl rfl, distinct.1⟩
      · exact Or.inl later
      · exact Or.inr ⟨Or.inr ⟨old, differs⟩, fresh⟩

theorem put_append {done : List α} (fresh : key row ∉ done.map key) :
    put key (done ++ older) row = done ++ put key older row := by
  induction done with
  | nil => rfl
  | cons first rest ih =>
    rw [map_cons, mem_cons, not_or] at fresh
    rw [cons_append, put, if_neg (Ne.symm fresh.1), ih fresh.2, cons_append]

theorem foldl_put_eq (distinct : (live.map key).Nodup) (grown : older.map key <+: live.map key) :
    live.foldl (put key) older = live := by
  -- The rows written so far stand in front, and the older rows that are left behind them.
  suffices split : ∀ done older rest : List α,
      ((done ++ rest).map key).Nodup → older.map key <+: rest.map key →
        rest.foldl (put key) (done ++ older) = done ++ rest from
    split [] older live distinct grown
  intro done older rest
  induction rest generalizing done older with
  | nil =>
    intro _ grown
    rw [map_nil, prefix_nil, map_eq_nil_iff] at grown
    rw [grown, foldl_nil]
  | cons row rest ih =>
    intro distinct grown
    have fresh : key row ∉ done.map key := by
      rw [map_append, map_cons] at distinct
      exact fun old => (nodup_append.mp distinct).2.2 _ old _ mem_cons_self rfl
    have moved : done ++ row :: rest = (done ++ [row]) ++ rest := by simp
    rw [foldl_cons, put_append fresh, moved]
    rw [moved] at distinct
    cases older with
    | nil =>
      have next := ih (done ++ [row]) [] distinct nil_prefix
      rwa [append_nil] at next
    | cons first others =>
      rw [map_cons, map_cons, cons_prefix_cons] at grown
      rw [put, if_pos grown.1, append_cons]
      exact ih (done ++ [row]) others distinct grown.2

end Darkmatter.Lib
