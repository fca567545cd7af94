/-
**Tables whose rows have owners.**

A table keeps its rows under a primary key, and a predicate says which rows belong to an owner. A row
can only be inserted under a key that is free, and when it clashes with no other row.

* `insertRow` — one row is inserted, or refused;
* `replaceRows` — the rows of the owner are deleted and others are inserted, all or none;
* `replaceRows_owned`, `replaceRows_others` — **what a replacement leaves**: the inserted rows are
  those of the owner, and the other rows are as they were.
-/

import Mathlib

namespace Darkmatter.Lib

open Std Option ExtTreeMap

/-- A table: rows under a primary key, in the order of the key. -/
abbrev Table (κ ρ : Type) [Ord κ] : Type := ExtTreeMap κ ρ compare

variable {κ ρ : Type} [Ord κ] [TransOrd κ] [LawfulEqOrd κ]
  {owns : κ → ρ → Bool} {clashes : ρ → ρ → Bool} {table result : Table κ ρ}

theorem nodup_keys (table : Table κ ρ) : table.keys.Nodup :=
  table.distinct_keys.imp fun different same =>
    different (LawfulEqOrd.compare_eq_iff_eq.mpr same)

theorem getElem?_insert [DecidableEq κ] (table : Table κ ρ) (key other : κ) (row : ρ) :
    (table.insert key row)[other]? = if key = other then some row else table[other]? := by
  rw [ExtTreeMap.getElem?_insert]
  simp only [LawfulEqOrd.compare_eq_iff_eq]

theorem getElem?_erase [DecidableEq κ] (table : Table κ ρ) (key other : κ) :
    (table.erase key)[other]? = if key = other then none else table[other]? := by
  rw [ExtTreeMap.getElem?_erase]
  simp only [LawfulEqOrd.compare_eq_iff_eq]

theorem getElem?_filter (keep : κ → ρ → Bool) (table : Table κ ρ) (key : κ) :
    (table.filter keep)[key]? = table[key]?.filter (keep key) := by
  rw [ExtTreeMap.getElem?_filter]
  simp only [ExtTreeMap.getKey_eq, pfilter_eq_filter]

omit [LawfulEqOrd κ] in
theorem values_eq (table : Table κ ρ) : table.values = table.toList.map Prod.snd := by
  have folded : table.values = table.foldr (fun _ row list => row :: list) [] := by
    rcases table with ⟨⟨table⟩⟩
    induction table using Quotient.ind
    rfl
  rw [folded, foldr_eq_foldr_toList]
  induction table.toList with
  | nil => rfl
  | cons entry rest ih => rw [List.foldr_cons, ih, List.map_cons]

theorem mem_values {row : ρ} : row ∈ table.values ↔ ∃ key : κ, table[key]? = some row := by
  simp only [values_eq, List.mem_map, Prod.exists, mem_toList_iff_getElem?_eq_some, exists_eq_right]

/-- What is said of every row can be said of its key. -/
theorem map_values {γ : Type} {ofRow : ρ → γ} {ofKey : κ → γ}
    (keyed : ∀ key row, table[key]? = some row → ofRow row = ofKey key) :
    table.values.map ofRow = table.keys.map ofKey := by
  rw [values_eq, ← map_fst_toList_eq_keys, List.map_map, List.map_map]
  exact List.map_congr_left fun entry member =>
    keyed _ _ (mem_toList_iff_getElem?_eq_some.mp member)

/-- A row is refused when its key is taken or it clashes with a row of the table. -/
def insertRow (clashes : ρ → ρ → Bool) (table : Table κ ρ) (entry : κ × ρ) : Option (Table κ ρ) :=
  if entry.1 ∈ table ∨ table.any fun _ row => clashes row entry.2 then
    none
  else
    some (table.insert entry.1 entry.2)

/-- **The rows of the owner are replaced.** -/
def replaceRows (owns : κ → ρ → Bool) (clashes : ρ → ρ → Bool) (table : Table κ ρ)
    (entries : List (κ × ρ)) : Option (Table κ ρ) :=
  entries.foldlM (insertRow clashes) (table.filter fun key row => !owns key row)

variable {entries : List (κ × ρ)}

theorem getElem?_foldlM_insertRow
    (inserted : entries.foldlM (insertRow clashes) table = some result) (key : κ) (row : ρ) :
    result[key]? = some row ↔ (key, row) ∈ entries ∨ table[key]? = some row := by
  induction entries generalizing table with
  | nil =>
    cases inserted
    simp
  | cons entry rest ih =>
    obtain ⟨_, first, later⟩ := bind_eq_some_iff.mp inserted
    rw [insertRow] at first
    split_ifs at first with refused
    cases first
    rw [not_or] at refused
    rw [ih later, ExtTreeMap.getElem?_insert, List.mem_cons]
    by_cases here : entry.1 = key
    · obtain ⟨entryKey, _⟩ := entry
      obtain rfl : entryKey = key := here
      have free : table[entryKey]? = none := getElem?_eq_none refused.1
      rw [if_pos (LawfulEqOrd.compare_eq_iff_eq.mpr rfl), free]
      simp only [Prod.mk.injEq, true_and, some.injEq, reduceCtorEq, or_false]
      rw [or_comm, eq_comm]
    · rw [if_neg fun same => here (LawfulEqOrd.compare_eq_iff_eq.mp same)]
      have different : (key, row) ≠ entry := by
        rintro rfl
        exact here rfl
      simp only [different, false_or]

theorem replaceRows_owned (replaced : replaceRows owns clashes table entries = some result)
    (owned : ∀ entry ∈ entries, owns entry.1 entry.2) (key : κ) (row : ρ) :
    (result.filter owns)[key]? = some row ↔ (key, row) ∈ entries := by
  rw [getElem?_filter, filter_eq_some_iff, getElem?_foldlM_insertRow replaced,
    getElem?_filter, filter_eq_some_iff]
  constructor
  · rintro ⟨member | ⟨_, foreign⟩, mine⟩
    · exact member
    · rw [mine] at foreign
      cases foreign
  · intro member
    exact ⟨Or.inl member, owned _ member⟩

theorem replaceRows_others (replaced : replaceRows owns clashes table entries = some result)
    (owned : ∀ entry ∈ entries, owns entry.1 entry.2) :
    (result.filter fun key row => !owns key row) = table.filter fun key row => !owns key row := by
  refine ext_getElem? fun key => ext fun row => ?_
  rw [getElem?_filter, filter_eq_some_iff, getElem?_foldlM_insertRow replaced]
  constructor
  · rintro ⟨member | there, foreign⟩
    · rw [owned _ member] at foreign
      cases foreign
    · exact there
  · intro there
    refine ⟨Or.inr there, ?_⟩
    rw [getElem?_filter, filter_eq_some_iff] at there
    exact there.2

/-- The rows of another owner are among those that do not belong to this one. -/
theorem filter_eq_of_others {ownsOther : κ → ρ → Bool}
    (others : (result.filter fun key row => !owns key row) =
      table.filter fun key row => !owns key row)
    (apart : ∀ key row, ownsOther key row → owns key row = false) :
    result.filter ownsOther = table.filter ownsOther := by
  refine ext_getElem? fun key => ext fun row => ?_
  rw [getElem?_filter, getElem?_filter, filter_eq_some_iff, filter_eq_some_iff]
  refine and_congr_left fun mine => ?_
  have kept (table : Table κ ρ) :
      (table.filter fun key row => !owns key row)[key]? = some row ↔ table[key]? = some row := by
    rw [getElem?_filter, filter_eq_some_iff, apart key row mine]
    exact and_iff_left rfl
  rw [← kept result, ← kept table, others]

/-- **Rows that were read from a table are back** after they replaced those of a later one. -/
theorem replaceRows_restores {old : Table κ ρ}
    (replaced : replaceRows owns clashes table (old.filter owns).toList = some result) :
    result.filter owns = old.filter owns ∧
      (result.filter fun key row => !owns key row) = table.filter fun key row => !owns key row := by
  have owned : ∀ entry ∈ (old.filter owns).toList, owns entry.1 entry.2 := by
    rintro ⟨key, row⟩ member
    rw [mem_toList_iff_getElem?_eq_some, getElem?_filter, filter_eq_some_iff] at member
    exact member.2
  refine ⟨ext_getElem? fun key => ext fun row => ?_, replaceRows_others replaced owned⟩
  rw [replaceRows_owned replaced owned, mem_toList_iff_getElem?_eq_some]

end Darkmatter.Lib
