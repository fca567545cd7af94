/-
**Ledgers with withdrawals.**

A ledger is a list of entries: a key takes a value, on behalf of an origin, or an origin is withdrawn.
What a ledger says is read by folding its changes in order, without those whose origin is withdrawn
later.

* `standing` — the changes that are not withdrawn, `settle` — their fold;
* `standing_append` — what is appended withdraws from what was there;
* `settle_filter` — **changes that no longer count can be left out**;
* `settle_extend` — **a ledger stays coherent** when it is extended by the differences between two
  states, and no withdrawn change holds in both.
-/

import Mathlib

set_option linter.unusedSectionVars false

namespace Darkmatter.Lib

open List

inductive LedgerEntry (κ ω : Type)
  | change (key : κ) (value : Bool) (origin : Option ω)
  | withdrawn (origin : ω)
deriving DecidableEq, Repr

structure LedgerChange (κ ω : Type) where
  key : κ
  value : Bool
  origin : Option ω
deriving DecidableEq, Repr

variable {κ ω : Type} [DecidableEq κ] [DecidableEq ω]

/-- The origins that a ledger withdraws. -/
def withdrawnOrigins (ledger : List (LedgerEntry κ ω)) : List ω :=
  ledger.filterMap fun entry =>
    match entry with
    | .change _ _ _ => none
    | .withdrawn origin => some origin

/-- The origin of the change is not among the given ones. -/
def LedgerChange.outlives (change : LedgerChange κ ω) (origins : List ω) : Bool :=
  change.origin.all (· ∉ origins)

/-- **The changes whose origin is not withdrawn later.** -/
def standing : List (LedgerEntry κ ω) → List (LedgerChange κ ω)
  | [] => []
  | .withdrawn _ :: rest => standing rest
  | .change key value origin :: rest =>
    if (LedgerChange.mk key value origin).outlives (withdrawnOrigins rest) then
      ⟨key, value, origin⟩ :: standing rest
    else
      standing rest

/-- The fold of the changes. -/
def settle (initial : κ → Bool) (changes : List (LedgerChange κ ω)) : κ → Bool :=
  changes.foldl (fun current change => Function.update current change.key change.value) initial

theorem withdrawnOrigins_append (first second : List (LedgerEntry κ ω)) :
    withdrawnOrigins (first ++ second) = withdrawnOrigins first ++ withdrawnOrigins second :=
  filterMap_append

theorem outlives_append (change : LedgerChange κ ω) (first second : List ω) :
    change.outlives (first ++ second) = (change.outlives first && change.outlives second) := by
  cases origin : change.origin with
  | none => simp [LedgerChange.outlives, origin]
  | some => simp [LedgerChange.outlives, origin]

theorem standing_append (first second : List (LedgerEntry κ ω)) :
    standing (first ++ second) =
      (standing first).filter (·.outlives (withdrawnOrigins second)) ++ standing second := by
  induction first with
  | nil => rfl
  | cons entry rest ih =>
    cases entry with
    | withdrawn => exact ih
    | change key value origin =>
      rw [cons_append, standing, standing, withdrawnOrigins_append, outlives_append, ih]
      by_cases here : (LedgerChange.mk key value origin).outlives (withdrawnOrigins rest)
      · by_cases later : (LedgerChange.mk key value origin).outlives (withdrawnOrigins second)
        · simp [here, later]
        · simp [here, later]
      · simp [here]

variable {ledger : List (LedgerEntry κ ω)} {initial : κ → Bool} {changes : List (LedgerChange κ ω)}
  {origin : Option ω} {withdrawn : List ω}

theorem mem_of_mem_standing {change : LedgerChange κ ω} (listed : change ∈ standing ledger) :
    .change change.key change.value change.origin ∈ ledger := by
  induction ledger with
  | nil => cases listed
  | cons entry rest ih =>
    cases entry with
    | withdrawn => exact mem_cons_of_mem _ (ih listed)
    | change =>
      rw [standing] at listed
      split_ifs at listed
      · obtain rfl | later := mem_cons.mp listed
        · exact mem_cons_self
        · exact mem_cons_of_mem _ (ih later)
      · exact mem_cons_of_mem _ (ih listed)

/-! ### Folding -/

theorem settle_append (initial : κ → Bool) (first second : List (LedgerChange κ ω)) :
    settle initial (first ++ second) = settle (settle initial first) second :=
  foldl_append

theorem settle_concat (initial : κ → Bool) (changes : List (LedgerChange κ ω))
    (change : LedgerChange κ ω) (key : κ) :
    settle initial (changes ++ [change]) key =
      if key = change.key then change.value else settle initial changes key := by
  rw [settle_append]
  exact Function.update_apply _ _ _ _

/-- **Changes that no longer count can be left out**: if those that are left out give the key another
value than it has, then it keeps the value. -/
theorem settle_filter (initial : κ → Bool) (changes : List (LedgerChange κ ω))
    (keeps : LedgerChange κ ω → Bool) (key : κ)
    (overruled : ∀ change ∈ changes, change.key = key → keeps change = false →
      change.value ≠ settle initial changes key) :
    settle initial (changes.filter keeps) key = settle initial changes key := by
  induction changes using reverseRecOn with
  | nil => rfl
  | append_singleton earlier last ih =>
    rw [settle_concat] at overruled ⊢
    by_cases here : key = last.key
    · have kept : keeps last := by
        by_contra left
        exact overruled last (by simp) here.symm (by simpa using left) (if_pos here).symm
      rw [filter_append, filter_singleton, kept, cond_true, settle_concat, if_pos here, if_pos here]
    · rw [if_neg here] at overruled ⊢
      have before := ih fun change listed => overruled change (mem_append_left _ listed)
      rw [filter_append, filter_singleton]
      cases keeps last with
      | true => rw [cond_true, settle_concat, if_neg here, before]
      | false => rw [cond_false, append_nil, before]

theorem settle_of_not_mem {key : κ} (absent : ∀ change ∈ changes, change.key ≠ key) :
    settle initial changes key = initial key := by
  induction changes using reverseRecOn with
  | nil => rfl
  | append_singleton earlier last ih =>
    rw [settle_concat, if_neg (absent last (by simp)).symm]
    exact ih fun change listed => absent change (mem_append_left _ listed)

theorem settle_of_mem {key : κ} {value : Bool} (present : ∃ change ∈ changes, change.key = key)
    (same : ∀ change ∈ changes, change.key = key → change.value = value) :
    settle initial changes key = value := by
  induction changes using reverseRecOn with
  | nil =>
    obtain ⟨_, listed, _⟩ := present
    cases listed
  | append_singleton earlier last ih =>
    rw [settle_concat]
    split_ifs with here
    · exact same last (by simp) here.symm
    · refine ih ?_ fun change listed => same change (mem_append_left _ listed)
      obtain ⟨change, listed, own⟩ := present
      obtain early | only := mem_append.mp listed
      · exact ⟨change, early, own⟩
      · exact absurd (mem_singleton.mp only ▸ own) fun own => here own.symm

/-! ### Extending -/

/-- The entries of one step: changes of one origin, and withdrawals. -/
def stepEntries (changes : List (κ × Bool)) (origin : Option ω) (withdrawn : List ω) :
    List (LedgerEntry κ ω) :=
  changes.map (fun change => .change change.1 change.2 origin) ++ withdrawn.map .withdrawn

theorem withdrawnOrigins_stepEntries (changes : List (κ × Bool)) (origin : Option ω)
    (withdrawn : List ω) :
    withdrawnOrigins (stepEntries changes origin withdrawn) = withdrawn := by
  rw [stepEntries, withdrawnOrigins_append]
  simp [withdrawnOrigins, filterMap_map]

theorem standing_withdrawals (withdrawn : List ω) :
    standing (withdrawn.map .withdrawn : List (LedgerEntry κ ω)) = [] := by
  induction withdrawn with
  | nil => rfl
  | cons origin rest ih => exact ih

theorem standing_changes (changes : List (κ × Bool)) (origin : Option ω) :
    standing (changes.map fun change => LedgerEntry.change change.1 change.2 origin) =
      changes.map fun change => ⟨change.1, change.2, origin⟩ := by
  induction changes with
  | nil => rfl
  | cons change rest ih =>
    have none : withdrawnOrigins (rest.map fun change =>
        LedgerEntry.change change.1 change.2 origin) = [] := by
      simp [withdrawnOrigins, filterMap_map]
    rw [map_cons, standing, none, ih, if_pos (by simp [LedgerChange.outlives])]
    rfl

theorem standing_stepEntries {changes : List (κ × Bool)} (stays : ∀ own ∈ origin, own ∉ withdrawn) :
    standing (stepEntries changes origin withdrawn) =
      changes.map fun change => ⟨change.1, change.2, origin⟩ := by
  have origins : withdrawnOrigins (withdrawn.map .withdrawn : List (LedgerEntry κ ω)) =
      withdrawn := by
    simp [withdrawnOrigins, filterMap_map]
  rw [stepEntries, standing_append, standing_withdrawals, append_nil, origins, standing_changes,
    filter_eq_self.mpr]
  intro change listed
  obtain ⟨_, _, rfl⟩ := mem_map.mp listed
  rw [LedgerChange.outlives, Option.all_eq_true]
  exact fun own here => decide_eq_true (stays own here)

/-- **A ledger stays coherent** when a step adds the differences between the states before and after
it, its own origin is not withdrawn by it, and no change that it withdraws holds before and after. -/
theorem settle_extend {before after : κ → Bool} {changes : List (κ × Bool)}
    (coherent : settle initial (standing ledger) = before)
    (differs : ∀ key value, (key, value) ∈ changes ↔ before key ≠ after key ∧ value = after key)
    (stays : ∀ own ∈ origin, own ∉ withdrawn)
    (undone : ∀ key value own, .change key value (some own) ∈ ledger → own ∈ withdrawn →
      before key = value → after key ≠ value) :
    settle initial (standing (ledger ++ stepEntries changes origin withdrawn)) = after := by
  funext key
  rw [standing_append, withdrawnOrigins_stepEntries, standing_stepEntries stays, settle_append]
  by_cases same : before key = after key
  · -- no change of the step is about the key, and what the step withdraws was overruled
    rw [settle_of_not_mem, settle_filter, coherent, same]
    · intro change listed own left holds
      rw [coherent] at holds
      rw [LedgerChange.outlives, Option.all_eq_false] at left
      obtain ⟨origin, named, out⟩ := left
      have entry := mem_of_mem_standing listed
      rw [named, own] at entry
      exact undone key change.value origin entry (by simpa using out) holds.symm
        (same.symm.trans holds.symm)
    · intro change listed own
      obtain ⟨⟨changed, value⟩, member, rfl⟩ := mem_map.mp listed
      obtain rfl : changed = key := own
      exact ((differs changed value).mp member).1 same
  · refine settle_of_mem ⟨⟨key, after key, origin⟩, mem_map.mpr ⟨(key, after key),
      (differs key (after key)).mpr ⟨same, rfl⟩, rfl⟩, rfl⟩ fun change listed own => ?_
    obtain ⟨⟨changed, value⟩, member, rfl⟩ := mem_map.mp listed
    obtain rfl : changed = key := own
    exact ((differs changed value).mp member).2

end Darkmatter.Lib
