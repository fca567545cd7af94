/-
**Views that are kept up to date.**

A view has a row under some keys, computed from data. It is kept in a table, and after a change of the
data the rows of some keys are computed anew.

* `getElem?_foldl` — steps that each act on the row of a key, seen from that key;
* `refresh`, `getElem?_refresh` — **rows that are computed anew**;
* `follow`, `follow_eq_iff` — **a copy that takes over right changes is the new table exactly when
  they cover what changed**.
-/

import Darkmatter.Lib.Table

namespace Darkmatter.Lib

open Std List

variable {κ ρ α : Type} [Ord κ] [TransOrd κ]

/-- **Steps over a table, seen from one key.** Some of the steps change its row. -/
theorem getElem?_foldl {step : Table κ ρ → α → Table κ ρ} {key : κ} (concerns : α → Bool)
    (change : ρ → α → ρ)
    (acts : ∀ table action, (step table action)[key]? =
      if concerns action then table[key]?.map (change · action) else table[key]?)
    (table : Table κ ρ) (actions : List α) :
    (actions.foldl step table)[key]? =
      table[key]?.map fun row => (actions.filter concerns).foldl change row := by
  induction actions generalizing table with
  | nil => simp
  | cons first rest ih =>
    rw [foldl_cons, ih, acts, filter_cons]
    split_ifs
    · rw [Option.map_map]
      rfl
    · rfl

variable [LawfulEqOrd κ] [DecidableEq κ]

/-! ### Copies that take over changes -/

/-- A row is written under a key, or the key is removed. -/
def takeOver (table : Table κ ρ) (change : κ × Option ρ) : Table κ ρ :=
  match change.2 with
  | some row => table.insert change.1 row
  | none => table.erase change.1

def follow (table : Table κ ρ) (changes : List (κ × Option ρ)) : Table κ ρ :=
  changes.foldl takeOver table

variable {project : κ → Option ρ} {table target : Table κ ρ} {keys : List κ}
  {changes : List (κ × Option ρ)}

theorem getElem?_takeOver (change : κ × Option ρ) (key : κ) :
    (takeOver table change)[key]? = if change.1 = key then change.2 else table[key]? := by
  rw [takeOver]
  split
  · rename_i row written
    rw [getElem?_insert, written]
  · rename_i removed
    rw [getElem?_erase, removed]

/-- Changes that put in place what belongs under their keys. -/
theorem getElem?_follow (right : ∀ change ∈ changes, change.2 = project change.1) (key : κ) :
    (follow table changes)[key]? =
      if key ∈ changes.map (·.1) then project key else table[key]? := by
  induction changes generalizing table with
  | nil => simp [follow]
  | cons change rest ih =>
    rw [forall_mem_cons] at right
    rw [follow, foldl_cons, ← follow, ih right.2, getElem?_takeOver, map_cons]
    by_cases later : key ∈ rest.map (·.1)
    · rw [if_pos later, if_pos (mem_cons_of_mem _ later)]
    · rw [if_neg later]
      by_cases here : change.1 = key
      · rw [if_pos here, if_pos (mem_cons.mpr (Or.inl here.symm)), right.1, here]
      · rw [if_neg here, if_neg]
        rw [mem_cons, not_or]
        exact ⟨fun same => here same.symm, later⟩

/-! ### Rows that are computed anew -/

/-- One row is computed anew. A key without a row loses the one it had. -/
def refreshRow (project : κ → Option ρ) (table : Table κ ρ) (key : κ) : Table κ ρ :=
  match project key with
  | some row => table.insert key row
  | none => table.erase key

/-- The rows of these keys are computed anew. -/
def refresh (project : κ → Option ρ) (table : Table κ ρ) (keys : List κ) : Table κ ρ :=
  keys.foldl (refreshRow project) table

theorem getElem?_refresh (key : κ) :
    (refresh project table keys)[key]? = if key ∈ keys then project key else table[key]? := by
  have changes : refresh project table keys =
      follow table (keys.map fun key => (key, project key)) := by
    rw [follow, foldl_map]
    rfl
  rw [changes, @getElem?_follow _ _ _ _ _ _ project _ _ fun change listed => ?_, map_map]
  · exact congrArg (fun keys => if key ∈ keys then _ else _) (map_id keys)
  · obtain ⟨_, -, rfl⟩ := mem_map.mp listed
    rfl

theorem getElem?_foldl_erase (key : κ) :
    (keys.foldl .erase table)[key]? = if key ∈ keys then none else table[key]? :=
  @getElem?_refresh κ ρ _ _ _ _ (fun _ => none) table keys key

/-! ### Copies that are right -/

/-- **A copy that takes over right changes is the new table exactly when they cover what changed.** -/
theorem follow_eq_iff (right : ∀ change ∈ changes, change.2 = target[change.1]?) :
    follow table changes = target ↔ ∀ key, key ∉ changes.map (·.1) → table[key]? = target[key]? := by
  constructor
  · intro same key uncovered
    rw [← same, getElem?_follow right, if_neg uncovered]
  · intro covered
    refine ExtTreeMap.ext_getElem? fun key => ?_
    rw [getElem?_follow right]
    split_ifs with mentioned
    · rfl
    · exact covered key mentioned

end Darkmatter.Lib
