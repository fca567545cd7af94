/-
**Programs that act on a state.**

A program looks at the state, performs actions on it, and ends with a result. What an action does to
the state is not part of the program: the same program can be run, and it can be asked what it
demands of every action it performs.

* `Program.run` — the result of a program and the state it leaves;
* `Program.trace` — the actions of a program, each with the state it was performed in;
* `Program.Meets` — **a program meets a guard and a postcondition**: every action meets the guard in
  its state, and the result meets the postcondition in the final state;
* `Program.Meets.invariant` — an invariant that the guarded actions keep holds along a program;
* `Program.interrupt` — a run that is cut off;
* `Follows` — actions that follow one another, and the rule of invariants with a history;
* `Task` — programs that can fail, with the failure handled by `Task.attempt`.
-/

import Mathlib

namespace Darkmatter.Lib

/-- A program that ends with a result of type `Result`. -/
inductive Program (State Action Result : Type)
  | done (result : Result)
  | look (next : State → Program State Action Result)
  | act (action : Action) (next : Program State Action Result)

namespace Program

variable {State Action Result Result' : Type}

def bind (program : Program State Action Result)
    (next : Result → Program State Action Result') : Program State Action Result' :=
  match program with
  | done result => next result
  | look rest => look fun state => (rest state).bind next
  | act action rest => act action (rest.bind next)

section Running

variable (perform : Action → State → State)

def run (program : Program State Action Result) (state : State) : Result × State :=
  match program with
  | done result => (result, state)
  | look next => (next state).run state
  | act action next => next.run (perform action state)

/-- The actions of a program, each with the state it is performed in. -/
def trace (program : Program State Action Result) (state : State) : List (State × Action) :=
  match program with
  | done _ => []
  | look next => (next state).trace state
  | act action next => (state, action) :: next.trace (perform action state)

/-- **A program meets a guard and a postcondition** from a state. -/
def Meets (guard : State → Action → Prop) (post : Result → State → Prop)
    (program : Program State Action Result) (state : State) : Prop :=
  match program with
  | done result => post result state
  | look next => (next state).Meets guard post state
  | act action next => guard state action ∧ next.Meets guard post (perform action state)

variable {perform}

theorem run_bind (program : Program State Action Result)
    (next : Result → Program State Action Result') (state : State) :
    (program.bind next).run perform state =
      (next (program.run perform state).1).run perform (program.run perform state).2 := by
  induction program generalizing state with
  | done => rfl
  | look rest ih => exact ih state state
  | act action rest ih => exact ih (perform action state)

theorem trace_bind (program : Program State Action Result)
    (next : Result → Program State Action Result') (state : State) :
    (program.bind next).trace perform state = program.trace perform state ++
      (next (program.run perform state).1).trace perform (program.run perform state).2 := by
  induction program generalizing state with
  | done => rfl
  | look rest ih => exact ih state state
  | act action rest ih => exact congrArg (_ :: ·) (ih (perform action state))

/-! ### Meeting guards -/

section Guards

variable {guard guard' : State → Action → Prop} {post post' : Result → State → Prop}
  {program : Program State Action Result} {state : State}

/-- **The judgment is about the trace and the outcome.** -/
theorem meets_iff :
    program.Meets perform guard post state ↔
      (∀ step ∈ program.trace perform state, guard step.1 step.2) ∧
        post (program.run perform state).1 (program.run perform state).2 := by
  induction program generalizing state with
  | done => simp [Meets, trace, run]
  | look rest ih => exact ih state
  | act action rest ih =>
    rw [Meets, ih, trace, List.forall_mem_cons, and_assoc]
    rfl

theorem meets_bind {post : Result' → State → Prop} {next : Result → Program State Action Result'} :
    (program.bind next).Meets perform guard post state ↔
      program.Meets perform guard (fun result => (next result).Meets perform guard post) state := by
  induction program generalizing state with
  | done => rfl
  | look rest ih => exact ih state
  | act action rest ih => exact and_congr_right fun _ => ih

theorem Meets.mono (meets : program.Meets perform guard post state)
    (guards : ∀ state action, guard state action → guard' state action)
    (posts : ∀ result state, post result state → post' result state) :
    program.Meets perform guard' post' state := by
  rw [meets_iff] at meets ⊢
  exact ⟨fun step member => guards _ _ (meets.1 step member), posts _ _ meets.2⟩

/-- **An invariant along a program.** The guarded actions keep it, so it holds before every action
and at the end. -/
theorem Meets.invariant (Invariant : State → Prop) (meets : program.Meets perform guard post state)
    (initial : Invariant state) (keeps : ∀ state action, Invariant state → guard state action →
      Invariant (perform action state)) :
    program.Meets perform (fun state action => Invariant state ∧ guard state action)
      (fun result state => Invariant state ∧ post result state) state := by
  induction program generalizing state with
  | done => exact ⟨initial, meets⟩
  | look rest ih => exact ih state meets initial
  | act action rest ih =>
    exact ⟨⟨initial, meets.1⟩, ih meets.2 (keeps state action initial meets.1)⟩

end Guards

/-! ### Runs that are cut off -/

section Interruptions

variable (perform)

/-- A run that is cut off after a number of reads and actions. It has no result when it was. -/
def interrupt (program : Program State Action Result) (calls : Nat) (state : State) :
    Option Result × State :=
  match program, calls with
  | done result, _ => (some result, state)
  | look _, 0 | act _ _, 0 => (none, state)
  | look next, calls + 1 => (next state).interrupt calls state
  | act action next, calls + 1 => next.interrupt calls (perform action state)

/-- The number of reads and actions of a program. -/
def calls (program : Program State Action Result) (state : State) : Nat :=
  match program with
  | done _ => 0
  | look next => (next state).calls state + 1
  | act action next => next.calls (perform action state) + 1

variable {perform} {program : Program State Action Result} {state : State} {calls : Nat}

theorem interrupt_of_calls_le (enough : program.calls perform state ≤ calls) :
    program.interrupt perform calls state =
      (some (program.run perform state).1, (program.run perform state).2) := by
  induction program generalizing state calls with
  | done => rfl
  | look rest ih =>
    obtain ⟨_, rfl⟩ := Nat.exists_eq_add_of_le' (Nat.le_of_add_left_le enough)
    exact ih state (Nat.le_of_add_le_add_right enough)
  | act action rest ih =>
    obtain ⟨_, rfl⟩ := Nat.exists_eq_add_of_le' (Nat.le_of_add_left_le enough)
    exact ih (Nat.le_of_add_le_add_right enough)

theorem interrupt_of_lt_calls (fewer : calls < program.calls perform state) :
    (program.interrupt perform calls state).1 = none := by
  induction program generalizing state calls with
  | done => cases fewer
  | look rest ih =>
    cases calls with
    | zero => rfl
    | succ => exact ih state (Nat.lt_of_add_lt_add_right fewer)
  | act action rest ih =>
    cases calls with
    | zero => rfl
    | succ => exact ih (Nat.lt_of_add_lt_add_right fewer)

/-- **An invariant holds wherever a program is cut off.** -/
theorem Meets.interrupted {guard : State → Action → Prop} {post : Result → State → Prop}
    (Invariant : State → Prop) (meets : program.Meets perform guard post state)
    (initial : Invariant state) (keeps : ∀ state action, Invariant state → guard state action →
      Invariant (perform action state)) (calls : Nat) :
    Invariant (program.interrupt perform calls state).2 := by
  induction program generalizing state calls with
  | done => exact initial
  | look rest ih =>
    cases calls with
    | zero => exact initial
    | succ calls => exact ih state meets initial calls
  | act action rest ih =>
    cases calls with
    | zero => exact initial
    | succ calls => exact ih meets.2 (keeps state action initial meets.1) calls

end Interruptions

end Running

end Program

/-! ### Actions that follow one another -/

section Follows

variable {State Action : Type} {perform : Action → State → State}

/-- Actions with the states they are performed in, from the first state to the last one. -/
def Follows (perform : Action → State → State) (first : State) :
    List (State × Action) → State → Prop
  | [], last => last = first
  | (state, action) :: rest, last => state = first ∧ Follows perform (perform action first) rest last

variable {first last : State} {steps : List (State × Action)}

theorem Follows.append {middle : State} {rest : List (State × Action)}
    (follows : Follows perform first steps middle) (later : Follows perform middle rest last) :
    Follows perform first (steps ++ rest) last := by
  induction steps generalizing first with
  | nil => exact follows ▸ later
  | cons step steps ih => exact ⟨follows.1, ih follows.2⟩

/-- The actions before one of them lead to the state it is performed in. -/
theorem Follows.until {before after : List (State × Action)} {step : State × Action}
    (follows : Follows perform first (before ++ step :: after) last) :
    Follows perform first before step.1 := by
  induction before generalizing first with
  | nil => exact follows.1
  | cons earlier before ih => exact ⟨follows.1, ih follows.2⟩

theorem Program.follows {Result : Type} (program : Program State Action Result) (state : State) :
    Follows perform state (program.trace perform state) (program.run perform state).2 := by
  induction program generalizing state with
  | done => rfl
  | look rest ih => exact ih state state
  | act action rest ih => exact ⟨rfl, ih (perform action state)⟩

/-- **An invariant with a history.** What every action keeps, of the state and of what was recorded
of the actions before, holds at the end. -/
theorem Follows.invariant {History : Type} (record : History → State × Action → History)
    (Invariant : History → State → Prop) {history : History}
    (follows : Follows perform first steps last) (initial : Invariant history first)
    (keeps : ∀ before step after, steps = before ++ step :: after →
      Invariant (before.foldl record history) step.1 →
        Invariant (record (before.foldl record history) step) (perform step.2 step.1)) :
    Invariant (steps.foldl record history) last := by
  induction steps generalizing first history with
  | nil => exact follows ▸ initial
  | cons step steps ih =>
    obtain ⟨state, action⟩ := step
    obtain ⟨rfl, later⟩ := follows
    refine ih later (keeps [] (state, action) steps rfl initial) ?_
    intro before step after here holds
    exact keeps ((state, action) :: before) step after (by rw [here]; rfl) holds

/-- **An invariant along actions** that does not need their history. -/
theorem Follows.keeps (Invariant : State → Prop) (follows : Follows perform first steps last)
    (initial : Invariant first)
    (keeps : ∀ step ∈ steps, Invariant step.1 → Invariant (perform step.2 step.1)) :
    Invariant last := by
  induction steps generalizing first with
  | nil => exact follows ▸ initial
  | cons step steps ih =>
    obtain ⟨state, action⟩ := step
    obtain ⟨rfl, later⟩ := follows
    refine ih later (keeps (state, action) List.mem_cons_self initial) fun step member =>
      keeps step (List.mem_cons_of_mem _ member)

end Follows

/-! ### Programs that can fail -/

/-- A program that ends with a result or an error. -/
def Task (State Action Error Result : Type) : Type :=
  Program State Action (Except Error Result)

namespace Task

variable {State Action Error Result Result' : Type}

def pure (result : Result) : Task State Action Error Result :=
  Program.done (.ok result)

def fail (error : Error) : Task State Action Error Result :=
  Program.done (.error error)

variable (task : Task State Action Error Result)

def bind (next : Result → Task State Action Error Result') : Task State Action Error Result' :=
  Program.bind task fun outcome =>
    match outcome with
    | .ok result => next result
    | .error error => fail error

def look : Task State Action Error State :=
  Program.look fun state => Program.done (.ok state)

def act (action : Action) : Task State Action Error Unit :=
  Program.act action (Program.done (.ok ()))

/-- The outcome of a task, failed or not. -/
def attempt : Task State Action Error (Except Error Result) :=
  Program.bind task fun outcome => Program.done (.ok outcome)

instance : Monad (Task State Action Error) where
  pure := pure
  bind := bind

section Meeting

variable {perform : Action → State → State} {guard : State → Action → Prop}
  {post : Except Error Result → State → Prop} {state : State}

/-- A task as the program it is. -/
abbrev program : Program State Action (Except Error Result) :=
  task

abbrev Meets (perform : Action → State → State) (guard : State → Action → Prop)
    (post : Except Error Result → State → Prop) (task : Task State Action Error Result)
    (state : State) : Prop :=
  Program.Meets perform guard post task state

theorem meets_pure {result : Result} :
    Meets perform guard post (Pure.pure result : Task State Action Error Result) state ↔
      post (.ok result) state :=
  Iff.rfl

theorem meets_bind {task : Task State Action Error Result'}
    {next : Result' → Task State Action Error Result} :
    Meets perform guard post (task >>= next) state ↔
      task.Meets perform guard (fun outcome state =>
        match outcome with
        | .ok result => (next result).Meets perform guard post state
        | .error error => post (.error error) state) state := by
  refine Program.meets_bind.trans (iff_of_eq ?_)
  congr 1
  funext outcome state
  cases outcome <;> rfl

theorem meets_look_bind {next : State → Task State Action Error Result} :
    Meets perform guard post (look >>= next) state ↔ (next state).Meets perform guard post state :=
  Iff.rfl

theorem meets_act_bind {action : Action} {next : Unit → Task State Action Error Result} :
    Meets perform guard post (act action >>= next) state ↔
      guard state action ∧ (next ()).Meets perform guard post (perform action state) :=
  Iff.rfl

theorem run_bind (perform : Action → State → State) (task : Task State Action Error Result)
    (next : Result → Task State Action Error Result') (state : State) :
    (task >>= next).program.run perform state =
      match task.program.run perform state with
      | (.ok result, after) => (next result).program.run perform after
      | (.error error, after) => (.error error, after) := by
  refine (Program.run_bind _ _ _).trans ?_
  obtain ⟨_ | _, _⟩ := task.program.run perform state <;> rfl

theorem trace_bind (perform : Action → State → State) (task : Task State Action Error Result)
    (next : Result → Task State Action Error Result') (state : State) :
    (task >>= next).program.trace perform state = task.program.trace perform state ++
      match task.program.run perform state with
      | (.ok result, after) => (next result).program.trace perform after
      | (.error _, _) => [] := by
  refine (Program.trace_bind _ _ _).trans (congrArg _ ?_)
  obtain ⟨_ | _, _⟩ := task.program.run perform state <;> rfl

theorem run_look_bind (perform : Action → State → State)
    (next : State → Task State Action Error Result) (state : State) :
    (look >>= next).program.run perform state = (next state).program.run perform state :=
  rfl

theorem trace_look_bind (perform : Action → State → State)
    (next : State → Task State Action Error Result) (state : State) :
    (look >>= next).program.trace perform state = (next state).program.trace perform state :=
  rfl

theorem run_act_bind (perform : Action → State → State) (action : Action)
    (next : Unit → Task State Action Error Result) (state : State) :
    (act action >>= next).program.run perform state =
      (next ()).program.run perform (perform action state) :=
  rfl

theorem trace_act_bind (perform : Action → State → State) (action : Action)
    (next : Unit → Task State Action Error Result) (state : State) :
    (act action >>= next).program.trace perform state =
      (state, action) :: (next ()).program.trace perform (perform action state) :=
  rfl

theorem run_attempt (perform : Action → State → State) (task : Task State Action Error Result)
    (state : State) : Program.run perform task.attempt state =
      (.ok (task.program.run perform state).1, (task.program.run perform state).2) :=
  Program.run_bind _ _ _

/-- A task whose failure is handled runs, and then what handles its outcome. -/
theorem run_attempt_bind (perform : Action → State → State) (task : Task State Action Error Result)
    (next : Except Error Result → Task State Action Error Result') (state : State) :
    (task.attempt >>= next).program.run perform state =
      (next (task.program.run perform state).1).program.run perform
        (task.program.run perform state).2 := by
  refine (Program.run_bind _ _ _).trans ?_
  rw [run_attempt]

theorem trace_attempt_bind (perform : Action → State → State)
    (task : Task State Action Error Result)
    (next : Except Error Result → Task State Action Error Result') (state : State) :
    (task.attempt >>= next).program.trace perform state = task.program.trace perform state ++
      (next (task.program.run perform state).1).program.trace perform
        (task.program.run perform state).2 := by
  refine (Program.trace_bind _ _ _).trans ?_
  rw [run_attempt, show Program.trace perform task.attempt state = task.program.trace perform state
    from (Program.trace_bind _ _ _).trans (List.append_nil _)]

end Meeting

end Task

end Darkmatter.Lib
