/-
**Computations that stop at the first error.**

A check is a computation in `Except`. What passes, passed at every step:

* `bind_eq_ok`, `mapError_eq_ok` — a step, and a step whose error is renamed;
* `forM_eq_ok` — **a check of a list passes when it passes at every element**;
* `mem_of_mapM_eq_ok` — a list that is computed element by element;
* `loopCost_le` — a loop whose rounds are paid out of what is left costs at most what is left.
-/

import Mathlib

namespace Darkmatter.Lib

variable {ε ε' α β : Type}

theorem bind_eq_ok {first : Except ε α} {next : α → Except ε β} {result : β} :
    (first >>= next) = .ok result ↔ ∃ value, first = .ok value ∧ next value = .ok result := by
  cases first with
  | error => simp [bind, Except.bind]
  | ok => simp [bind, Except.bind]

theorem mapError_eq_ok {rename : ε → ε'} {check : Except ε α} {result : α} :
    check.mapError rename = .ok result ↔ check = .ok result := by
  cases check <;> simp [Except.mapError]

/-- **A check of a list passes when it passes at every element.** -/
theorem forM_eq_ok {check : α → Except ε Unit} {list : List α} :
    list.forM check = .ok () ↔ ∀ element ∈ list, check element = .ok () := by
  induction list with
  | nil => simp [pure, Except.pure]
  | cons first rest ih =>
    change (check first >>= fun _ => rest.forM check) = _ ↔ _
    rw [bind_eq_ok, List.forall_mem_cons, ← ih]
    exact ⟨fun ⟨_, head, tail⟩ => ⟨head, tail⟩, fun ⟨head, tail⟩ => ⟨(), head, tail⟩⟩

theorem mem_of_mapM_eq_ok {compute : α → Except ε β} {list : List α} {results : List β}
    (computed : list.mapM compute = .ok results) :
    ∀ result ∈ results, ∃ element ∈ list, compute element = .ok result := by
  induction list generalizing results with
  | nil =>
    cases computed
    simp
  | cons first rest ih =>
    rw [List.mapM_cons, bind_eq_ok] at computed
    obtain ⟨_, head, computed⟩ := computed
    obtain ⟨_, tail, same⟩ := bind_eq_ok.mp computed
    cases same
    rintro result listed
    obtain rfl | later := List.mem_cons.mp listed
    · exact ⟨first, List.mem_cons_self, head⟩
    · obtain ⟨element, isElement, found⟩ := ih tail result later
      exact ⟨element, List.mem_cons_of_mem _ isElement, found⟩

/-! ### The cost of a loop -/

section Loop

variable {σ : Type} (step : σ → α → Except ε σ) (cost : σ → α → Nat)

/-- What a loop over a list costs, up to the element at which it fails. -/
def loopCost : σ → List α → Nat
  | _, [] => 0
  | state, element :: rest =>
    cost state element +
      match step state element with
      | .ok next => loopCost next rest
      | .error _ => 0

variable {step cost}

/-- **A loop whose rounds are paid out of what is left** costs at most what is left, and what it
costs is gone when it succeeds. -/
theorem loopCost_le {left : σ → Nat}
    (paid : ∀ state element next, step state element = .ok next →
      cost state element + left next ≤ left state)
    (bounded : ∀ state element, cost state element ≤ left state) (state : σ) (list : List α) :
    loopCost step cost state list ≤ left state ∧
      ∀ last, list.foldlM step state = .ok last →
        loopCost step cost state list + left last ≤ left state := by
  induction list generalizing state with
  | nil =>
    refine ⟨Nat.zero_le _, fun last ran => ?_⟩
    cases ran
    simp [loopCost]
  | cons element rest ih =>
    have here := bounded state element
    rw [loopCost, List.foldlM_cons]
    cases stepped : step state element with
    | error =>
      refine ⟨by simpa using here, fun last ran => ?_⟩
      cases ran
    | ok next =>
      have round := paid state element next stepped
      obtain ⟨_, ends⟩ := ih next
      refine ⟨by dsimp only; omega, fun last ran => ?_⟩
      have after := ends last ran
      dsimp only
      omega

end Loop

end Darkmatter.Lib
