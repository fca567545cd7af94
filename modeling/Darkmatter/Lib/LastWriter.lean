/-
**Registers that the last writer wins.**

A register holds an entry with its stamp, or nothing. An entry is written when its stamp is greater
than the stored one.

* `write` — one entry;
* `Greatest` — the register holds an entry with the greatest stamp of a list;
* `Greatest.foldl` — **whatever the order of the writes**;
* `Greatest.unique` — registers that were given the same entries agree, when a stamp has one entry.
-/

import Mathlib

namespace Darkmatter.Lib

open List

section LastWriter

variable {σ ν : Type} [LinearOrder σ] {register other : Option (σ × ν)}
  {entries more : List (σ × ν)}

/-- An entry is written when its stamp is greater than the stored one. -/
def write (register : Option (σ × ν)) (entry : σ × ν) : Option (σ × ν) :=
  if register.all (fun stored => decide (stored.1 < entry.1)) then some entry else register

/-- **The register holds an entry with the greatest stamp.** -/
structure Greatest (register : Option (σ × ν)) (entries : List (σ × ν)) : Prop where
  listed : ∀ entry, register = some entry → entry ∈ entries
  above : ∀ entry ∈ entries, ∃ stored, register = some stored ∧ entry.1 ≤ stored.1

theorem greatest_nil : Greatest (none : Option (σ × ν)) [] :=
  ⟨by simp, by simp⟩

theorem Greatest.write (greatest : Greatest register entries) (entry : σ × ν) :
    Greatest (write register entry) (entries ++ [entry]) := by
  rw [Lib.write]
  split_ifs with newer
  · refine ⟨by rintro _ ⟨⟩; simp, fun other listed => ⟨entry, rfl, ?_⟩⟩
    obtain earlier | own := mem_append.mp listed
    · obtain ⟨stored, rfl, below⟩ := greatest.above other earlier
      rw [Option.all_some, decide_eq_true_eq] at newer
      exact below.trans newer.le
    · rw [mem_singleton.mp own]
  · refine ⟨fun stored same => mem_append_left _ (greatest.listed stored same), ?_⟩
    intro other listed
    obtain earlier | own := mem_append.mp listed
    · exact greatest.above other earlier
    · cases register with
      | none => exact absurd rfl newer
      | some stored =>
        rw [Option.all_some, decide_eq_true_eq, not_lt] at newer
        rw [mem_singleton.mp own]
        exact ⟨stored, rfl, newer⟩

/-- **Writes in any order.** -/
theorem Greatest.foldl (greatest : Greatest register entries) :
    Greatest (more.foldl Lib.write register) (entries ++ more) := by
  induction more generalizing register entries with
  | nil => simpa using greatest
  | cons first rest ih =>
    rw [foldl_cons, append_cons]
    exact ih (greatest.write first)

theorem Greatest.eq_some (greatest : Greatest register entries)
    (distinct : ∀ entry ∈ entries, ∀ other ∈ entries, entry.1 = other.1 → entry = other)
    {entry : σ × ν} (listed : entry ∈ entries) (top : ∀ other ∈ entries, other.1 ≤ entry.1) :
    register = some entry := by
  obtain ⟨stored, held, below⟩ := greatest.above entry listed
  have isListed := greatest.listed stored held
  rw [held, distinct stored isListed entry listed (le_antisymm (top stored isListed) below)]

theorem Greatest.eq_none (greatest : Greatest register []) : register = none := by
  cases register with
  | none => rfl
  | some entry => exact absurd (greatest.listed entry rfl) not_mem_nil

/-- **Registers that were given the same entries agree.** -/
theorem Greatest.unique (greatest : Greatest register entries) (greatestToo : Greatest other more)
    (distinct : ∀ entry ∈ entries, ∀ other ∈ entries, entry.1 = other.1 → entry = other)
    (same : ∀ entry, entry ∈ entries ↔ entry ∈ more) : register = other := by
  cases other with
  | none =>
    cases register with
    | none => rfl
    | some entry =>
      obtain ⟨_, held, _⟩ := greatestToo.above entry ((same entry).mp (greatest.listed entry rfl))
      cases held
  | some entry =>
    have listed := greatestToo.listed entry rfl
    refine greatest.eq_some distinct ((same entry).mpr listed) fun other isOther => ?_
    obtain ⟨_, held, below⟩ := greatestToo.above other ((same other).mp isOther)
    obtain rfl := Option.some.inj held
    exact below

end LastWriter

end Darkmatter.Lib
