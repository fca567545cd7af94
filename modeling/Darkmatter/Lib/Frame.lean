/-
**Computations that leave the state as it is.**

A computation on a state returns a value and a new state. `Yields ready kept x value` says that from
every ready state it returns `value`, and that the state moves only along `kept`, a preorder that
keeps ready states ready.

* `Yields.bind`, `Yields.loop` — computations one after another, and a loop that stops at the first
  error, computed by the loop without a state;
* `Moves` — the same without a value: from every state, a computation moves along a relation;
* `returned_of_bind` — a computation that returned went through every step.
-/

import Mathlib

namespace Darkmatter.Lib

variable {σ α β ε : Type}

/-- **A computation that returns a value and moves the state along a relation only.** -/
def Yields (ready : σ → Prop) (kept : σ → σ → Prop) (x : StateM σ α) (value : α) : Prop :=
  ∀ state, ready state → (x state).1 = value ∧ kept state (x state).2

/-- The relations along which a state may move. -/
structure Keeps (ready : σ → Prop) (kept : σ → σ → Prop) : Prop where
  refl : ∀ state, kept state state
  trans : ∀ {a b c}, kept a b → kept b c → kept a c
  ready : ∀ {a b}, ready a → kept a b → ready b

/-- A loop over a list that stops at the first error. -/
def loop (step : β → α → StateM σ (Except ε β)) : β → List α → StateM σ (Except ε β)
  | result, [] => pure (.ok result)
  | result, element :: rest => do
    match ← step result element with
    | .error e => return .error e
    | .ok next => loop step next rest

variable {ready : σ → Prop} {kept : σ → σ → Prop}

theorem Yields.pure (keeps : Keeps ready kept) (value : α) :
    Yields ready kept (Pure.pure value) value :=
  fun state _ => ⟨rfl, keeps.refl state⟩

variable {next : α → StateM σ β}

theorem Yields.bind (keeps : Keeps ready kept) {x : StateM σ α} {value : α}
    {result : β} (first : Yields ready kept x value) (rest : Yields ready kept (next value) result) :
    Yields ready kept (x >>= next) result := by
  intro state isReady
  obtain ⟨returns, moves⟩ := first state isReady
  obtain ⟨returns', moves'⟩ := rest (x state).2 (keeps.ready isReady moves)
  rw [← returns] at returns' moves'
  exact ⟨returns', keeps.trans moves moves'⟩

/-- **A loop of computations is the loop of their values.** -/
theorem Yields.loop (keeps : Keeps ready kept) {step : β → α → StateM σ (Except ε β)}
    {value : β → α → Except ε β} (each : ∀ result element,
      Yields ready kept (step result element) (value result element))
    (result : β) (list : List α) :
    Yields ready kept (Lib.loop step result list) (list.foldlM value result) := by
  induction list generalizing result with
  | nil => exact .pure keeps _
  | cons element rest ih =>
    rw [Lib.loop, List.foldlM_cons]
    refine .bind keeps (each result element) ?_
    cases value result element with
    | error => exact .pure keeps _
    | ok next => exact ih next

/-! ### Moves -/

/-- A computation that moves every state along a relation. -/
def Moves (kept : σ → σ → Prop) (x : StateM σ α) : Prop := ∀ state, kept state (x state).2

theorem Moves.pure (keeps : Keeps ready kept) (value : α) : Moves kept (Pure.pure value) :=
  keeps.refl

theorem Moves.bind (keeps : Keeps ready kept) {x : StateM σ α} (first : Moves kept x)
    (rest : ∀ value, Moves kept (next value)) : Moves kept (x >>= next) :=
  fun state => keeps.trans (first state) (rest _ (x state).2)

theorem run_bind (x : StateM σ α) (next : α → StateM σ β) (state : σ) :
    (x >>= next) state = next (x state).1 (x state).2 := rfl

/-- **A computation that returned went through every step**, when an error of a step is an error of
the whole. -/
theorem returned_of_bind {ε' : Type} {x : StateM σ (Except ε α)}
    {next : Except ε α → StateM σ (Except ε' β)}
    (fails : ∀ error state, ∃ e, (next (.error error) state).1 = .error e) {state : σ} {result : β}
    (returns : ((x >>= next) state).1 = .ok result) :
    ∃ value, (x state).1 = .ok value ∧ (next (.ok value) (x state).2).1 = .ok result := by
  rw [run_bind] at returns
  cases outcome : (x state).1 with
  | ok value => exact ⟨value, rfl, outcome ▸ returns⟩
  | error error =>
    obtain ⟨e, failed⟩ := fails error (x state).2
    rw [outcome, failed] at returns
    cases returns

end Darkmatter.Lib
