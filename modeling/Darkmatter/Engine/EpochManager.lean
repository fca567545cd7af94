/-
**The epoch manager.**

The manager holds, for every group of the client, the state of its commit lifecycle, and for every
commit that waits for its publication the group it belongs to and the epoch to fall back to:

* `CommitLifecycle` — the states of a group and the legal moves between them;
* `EpochManager` — the states, the publish obligations and the epochs the client committed from;
* `EpochManager.Operation`, `EpochManager.run` — sequences of operations on the manager.

A publish obligation is *coupled* to the state machine when its group waits for exactly that
publication. Three operations write a group's state without looking at the obligations, and
`obligations_iff` says that they are the only way to lose the coupling. Two of them do not look at
whether the group can be recovered either: `unrecoverable_stays_iff`.
-/

import Darkmatter.Engine.Model

namespace Darkmatter

open Function

/-! ### The lifecycle of a group's commits -/

/-- A move that the state of the group does not allow. -/
structure InvalidTransition where
  source : String
  target : String
  reason : String
deriving DecidableEq, Repr

/-- **The state of a group**, with the staged commit and the publish obligation it waits for, or the
messages it keeps while it recovers. -/
inductive CommitLifecycle (Handle Message : Type)
  | stable (epoch : Nat)
  | pendingPublish (epoch : Nat) (pending : Handle) (pendingRef : Nat)
  | merging (epoch : Nat)
  | recovering (lastStableEpoch : Nat) (buffered : List Message)
  | unrecoverable (lastStableEpoch : Nat)
deriving DecidableEq, Repr

namespace CommitLifecycle

variable {Handle Message : Type}

def epoch : CommitLifecycle Handle Message → Nat
  | .stable epoch | .pendingPublish epoch _ _ | .merging epoch => epoch
  | .recovering lastStableEpoch _ | .unrecoverable lastStableEpoch => lastStableEpoch

def canIngest : CommitLifecycle Handle Message → Bool
  | .stable _ | .recovering _ _ => true
  | _ => false

def isUnrecoverable : CommitLifecycle Handle Message → Bool
  | .unrecoverable _ => true
  | _ => false

def name : CommitLifecycle Handle Message → String
  | .stable _ => "Stable"
  | .pendingPublish _ _ _ => "PendingPublish"
  | .merging _ => "Merging"
  | .recovering _ _ => "Recovering"
  | .unrecoverable _ => "Unrecoverable"

variable (state : CommitLifecycle Handle Message)

def beginPending (newEpoch : Nat) (pending : Handle)
    (pendingRef : Nat) : Except InvalidTransition (CommitLifecycle Handle Message) :=
  match state with
  | .stable _ => .ok (.pendingPublish newEpoch pending pendingRef)
  | other => .error ⟨other.name, "PendingPublish", "begin_pending requires Stable"⟩

def confirmPublish : Except InvalidTransition (CommitLifecycle Handle Message) :=
  match state with
  | .pendingPublish epoch _ _ => .ok (.merging epoch)
  | other => .error ⟨other.name, "Merging", "confirm_publish requires PendingPublish"⟩

def rollbackPending (priorEpoch : Nat) :
    Except InvalidTransition (CommitLifecycle Handle Message) :=
  match state with
  | .pendingPublish _ _ _ => .ok (.stable priorEpoch)
  | other => .error ⟨other.name, "Stable", "rollback_pending requires PendingPublish"⟩

def mergeToStable (nextEpoch : Nat) : Except InvalidTransition (CommitLifecycle Handle Message) :=
  match state with
  | .merging _ => .ok (.stable nextEpoch)
  | other => .error ⟨other.name, "Stable", "merge_to_stable requires Merging"⟩

def detectFork (buffered : List Message) : CommitLifecycle Handle Message :=
  .recovering state.epoch buffered

def toUnrecoverable : CommitLifecycle Handle Message :=
  .unrecoverable state.epoch

/-- The state as the engine of one group keeps it. -/
def epochState : CommitLifecycle Handle Message → EpochState
  | .stable epoch => .stable epoch
  | .pendingPublish epoch _ _ => .pendingPublish epoch
  | .merging epoch => .merging epoch
  | .recovering lastStableEpoch _ => .recovering lastStableEpoch
  | .unrecoverable lastStableEpoch => .unrecoverable lastStableEpoch

@[simp] theorem epochState_epoch : state.epochState.epoch = state.epoch := by
  cases state <;> rfl

@[simp] theorem epochState_canIngest : state.epochState.canIngest = state.canIngest := by
  cases state <;> rfl

@[simp] theorem epochState_detectFork (buffered : List Message) :
    (state.detectFork buffered).epochState = state.epochState.detectFork := by
  cases state <;> rfl

@[simp] theorem epochState_toUnrecoverable :
    state.toUnrecoverable.epochState = state.epochState.toUnrecoverable := by
  cases state <;> rfl

end CommitLifecycle

/-! ### The manager -/

inductive PendingKind
  | createGroup
  | groupEvolution
deriving DecidableEq, Repr

/-- What is kept for a commit that waits for its publication. -/
structure PendingMeta (GroupId : Type) where
  groupId : GroupId
  priorEpoch : Nat
  kind : PendingKind
deriving DecidableEq, Repr

inductive PeelerError
  | malformed
  | decryptFailed
  | staleEpoch (messageEpoch contextEpoch : Nat)
  | missingContext (label : String)
  | backend
deriving DecidableEq, Repr

inductive EngineError (GroupId : Type)
  | unknownPending
  | unknownGroup (groupId : GroupId)
  | invalidTransition (transition : InvalidTransition)
  | notGroupAdmin (groupId : GroupId)
  | invalidStagedCommit
  | forkedEpoch (groupId : GroupId) (lastStable conflictingEpoch : Nat)
  | storage
  | peeler (error : PeelerError)
  | serialize (context : String)
  | backend (context : String)
deriving DecidableEq, Repr

structure EpochManager (GroupId Handle Message : Type) where
  states : GroupId → Option (CommitLifecycle Handle Message)
  pendingCounter : Nat
  pending : Nat → Option (PendingMeta GroupId)
  committedFrom : GroupId → Option (Finset Nat)

namespace EpochManager

variable {GroupId Handle Message : Type} [DecidableEq GroupId]

section Model

/-- The manager at the start of a session. -/
def new : EpochManager GroupId Handle Message :=
  ⟨fun _ => none, 0, fun _ => none, fun _ => none⟩

variable (manager : EpochManager GroupId Handle Message) (groupId : GroupId)

/-- A group without a state takes messages: its welcome may still be on the way. -/
def canIngest : Bool :=
  match manager.states groupId with
  | some state => state.canIngest
  | none => true

def weCommittedFrom (epoch : Nat) : Bool :=
  match manager.committedFrom groupId with
  | some epochs => epoch ∈ epochs
  | none => false

def nextPendingRef : Nat × EpochManager GroupId Handle Message :=
  (manager.pendingCounter + 1, { manager with pendingCounter := manager.pendingCounter + 1 })

def setState (state : CommitLifecycle Handle Message) : EpochManager GroupId Handle Message :=
  { manager with states := update manager.states groupId (some state) }

def setStable (epoch : Nat) : EpochManager GroupId Handle Message :=
  manager.setState groupId (.stable epoch)

def recordCommittedFrom (epoch : Nat) : EpochManager GroupId Handle Message :=
  { manager with
    committedFrom := update manager.committedFrom groupId
      (some (insert epoch ((manager.committedFrom groupId).getD ∅))) }

/-- **A publish obligation begins.** The move of the state comes before every write, so that a move
that fails leaves the manager as it was. -/
def beginPending (preCommitEpoch newEpoch : Nat) (pending : Handle)
    (pendingRef : Nat) (kind : PendingKind) :
    Except (EngineError GroupId) Unit × EpochManager GroupId Handle Message :=
  let previous := (manager.states groupId).getD (.stable preCommitEpoch)
  match previous.beginPending newEpoch pending pendingRef with
  | .error e => (.error (.invalidTransition e), manager)
  | .ok state =>
    let recorded := (manager.recordCommittedFrom groupId preCommitEpoch).setState groupId state
    (.ok (),
      { recorded with
        pending := update manager.pending pendingRef
          (some ⟨groupId, preCommitEpoch, kind⟩) })

/-- **An obligation is settled.** Its group makes the move and the obligation is dropped, both or
neither. The reference the group waits for is not compared with the one that is settled. -/
def settlePublish (pending : Nat) (move : PendingMeta GroupId → CommitLifecycle Handle Message →
      Except InvalidTransition (CommitLifecycle Handle Message × Nat)) :
    Except (EngineError GroupId) (GroupId × Nat) × EpochManager GroupId Handle Message :=
  match manager.pending pending with
  | none => (.error .unknownPending, manager)
  | some obligation =>
    match manager.states obligation.groupId with
    | none => (.error (.unknownGroup obligation.groupId), manager)
    | some previous =>
      match move obligation previous with
      | .error e => (.error (.invalidTransition e), manager)
      | .ok (stable, epoch) =>
        (.ok (obligation.groupId, epoch),
          { manager.setState obligation.groupId stable with
            pending := update manager.pending pending none })

/-- The obligation is met: the group goes through merging to the new epoch. -/
def confirmPublish (pending : Nat) :
    Except (EngineError GroupId) (GroupId × Nat) × EpochManager GroupId Handle Message :=
  manager.settlePublish pending fun _ previous => do
    let merging ← previous.confirmPublish
    let stable ← merging.mergeToStable merging.epoch
    return (stable, merging.epoch)

/-- The obligation is given up: the group is back at the epoch before its commit. -/
def rollbackPublish (pending : Nat) :
    Except (EngineError GroupId) (GroupId × Nat) × EpochManager GroupId Handle Message :=
  manager.settlePublish pending fun obligation previous => do
    let stable ← previous.rollbackPending obligation.priorEpoch
    return (stable, obligation.priorEpoch)

/-- Epochs below the oldest retained one are forgotten, and with the last of them the entry. -/
def pruneCommittedFromBefore (oldestRetainedEpoch : Nat) : EpochManager GroupId Handle Message :=
  match manager.committedFrom groupId with
  | none => manager
  | some epochs =>
    let retained := epochs.filter fun epoch => oldestRetainedEpoch ≤ epoch
    { manager with
      committedFrom := update manager.committedFrom groupId
        (if retained = ∅ then none else some retained) }

def detectFork (buffered : List Message) : EpochManager GroupId Handle Message :=
  manager.setState groupId (((manager.states groupId).getD (.stable 0)).detectFork buffered)

def markUnrecoverable : EpochManager GroupId Handle Message :=
  manager.setState groupId ((manager.states groupId).getD (.stable 0)).toUnrecoverable

def isUnrecoverable : Bool :=
  (manager.states groupId).any CommitLifecycle.isUnrecoverable

end Model

/-! ### Sequences of operations -/

inductive Operation (GroupId Handle Message : Type)
  | nextPendingRef
  | setStable (groupId : GroupId) (epoch : Nat)
  | beginPending (groupId : GroupId) (preCommitEpoch newEpoch : Nat) (pending : Handle)
      (pendingRef : Nat) (kind : PendingKind)
  | confirmPublish (pending : Nat)
  | rollbackPublish (pending : Nat)
  | recordCommittedFrom (groupId : GroupId) (epoch : Nat)
  | pruneCommittedFromBefore (groupId : GroupId) (oldestRetainedEpoch : Nat)
  | detectFork (groupId : GroupId) (buffered : List Message)
  | markUnrecoverable (groupId : GroupId)

variable (manager : EpochManager GroupId Handle Message)

/-- An operation, with the error it reports. -/
def apply : Operation GroupId Handle Message →
      Except (EngineError GroupId) Unit × EpochManager GroupId Handle Message
  | .nextPendingRef => (.ok (), manager.nextPendingRef.2)
  | .setStable groupId epoch => (.ok (), manager.setStable groupId epoch)
  | .beginPending groupId preCommitEpoch newEpoch pending pendingRef kind =>
    manager.beginPending groupId preCommitEpoch newEpoch pending pendingRef kind
  | .confirmPublish pending =>
    ((manager.confirmPublish pending).1.map fun _ => (), (manager.confirmPublish pending).2)
  | .rollbackPublish pending =>
    ((manager.rollbackPublish pending).1.map fun _ => (), (manager.rollbackPublish pending).2)
  | .recordCommittedFrom groupId epoch => (.ok (), manager.recordCommittedFrom groupId epoch)
  | .pruneCommittedFromBefore groupId oldestRetainedEpoch =>
    (.ok (), manager.pruneCommittedFromBefore groupId oldestRetainedEpoch)
  | .detectFork groupId buffered => (.ok (), manager.detectFork groupId buffered)
  | .markUnrecoverable groupId => (.ok (), manager.markUnrecoverable groupId)

def run (operations : List (Operation GroupId Handle Message)) :
    EpochManager GroupId Handle Message :=
  operations.foldl (fun manager operation => (manager.apply operation).2) manager

theorem run_concat (operations : List (Operation GroupId Handle Message))
    (operation : Operation GroupId Handle Message) :
    manager.run (operations ++ [operation]) = ((manager.run operations).apply operation).2 := by
  simp [run]

/-- The group whose state an operation writes whatever the group waits for. -/
def Operation.overwrites : Operation GroupId Handle Message → Option GroupId
  | .setStable groupId _ | .detectFork groupId _ | .markUnrecoverable groupId => some groupId
  | _ => none

/-! ### Obligations -/

section Obligations

/-- The group waits for exactly this publication. -/
def Awaits (groupId : GroupId) (pendingRef : Nat) : Prop :=
  ∃ epoch pending, manager.states groupId = some (.pendingPublish epoch pending pendingRef)

/-- **The obligations are coupled to the state machine.** -/
def Coupled : Prop :=
  ∀ pendingRef obligation,
    manager.pending pendingRef = some obligation → manager.Awaits obligation.groupId pendingRef

def Owes (groupId : GroupId) : Prop :=
  ∃ pendingRef obligation,
    manager.pending pendingRef = some obligation ∧ obligation.groupId = groupId

/-- An obligation is met or given up only by the group that waits for it. -/
def SettlesAwaited : Prop :=
  ∀ pendingRef operation,
    operation = .confirmPublish pendingRef ∨ operation = .rollbackPublish pendingRef →
    (manager.apply operation).1 = .ok () →
    ∃ obligation, manager.pending pendingRef = some obligation ∧
      manager.Awaits obligation.groupId pendingRef

/-- An operation that reports an error changes nothing. -/
def FailsAtomically : Prop :=
  ∀ operation e, (manager.apply operation).1 = .error e → (manager.apply operation).2 = manager

/-- What a begun obligation leaves: the group was stable, or not known yet. -/
theorem beginPending_cases (groupId : GroupId)
    (preCommitEpoch newEpoch : Nat) (pending : Handle) (pendingRef : Nat) (kind : PendingKind) :
    (∃ e, manager.beginPending groupId preCommitEpoch newEpoch pending pendingRef kind =
      (.error e, manager)) ∨
    (∃ epoch, (manager.states groupId).getD (.stable preCommitEpoch) = .stable epoch) ∧
      manager.beginPending groupId preCommitEpoch newEpoch pending pendingRef kind =
        (.ok (),
          { states := update manager.states groupId
              (some (.pendingPublish newEpoch pending pendingRef))
            pendingCounter := manager.pendingCounter
            pending := update manager.pending pendingRef
              (some ⟨groupId, preCommitEpoch, kind⟩)
            committedFrom :=
              (manager.recordCommittedFrom groupId preCommitEpoch).committedFrom }) := by
  unfold beginPending
  cases known : (manager.states groupId).getD (.stable preCommitEpoch) with
  | stable epoch => exact .inr ⟨⟨epoch, rfl⟩, rfl⟩
  | pendingPublish | merging | recovering | unrecoverable => exact .inl ⟨_, rfl⟩

/-- What a settled obligation leaves. -/
def settled (pendingRef : Nat) (groupId : GroupId) (epoch : Nat) :
    EpochManager GroupId Handle Message :=
  { manager.setState groupId (.stable epoch) with
    pending := update manager.pending pendingRef none }

/-- The moves that settle an obligation: from a pending publication to a stable epoch. -/
def Settling (move : PendingMeta GroupId → CommitLifecycle Handle Message →
    Except InvalidTransition (CommitLifecycle Handle Message × Nat)) : Prop :=
  ∀ obligation state,
    (∃ e, move obligation state = .error e) ∨
    (∃ epoch pending awaited, state = .pendingPublish epoch pending awaited) ∧
      ∃ epoch, move obligation state = .ok (.stable epoch, epoch)

/-- Settling either changes nothing or drops the obligation of a group that waits. -/
def Settles (pendingRef : Nat) (outcome : Except (EngineError GroupId) (GroupId × Nat) ×
    EpochManager GroupId Handle Message) : Prop :=
  (∃ e, outcome = (.error e, manager)) ∨
    ∃ obligation epoch, manager.pending pendingRef = some obligation ∧
      (∃ awaited, manager.Awaits obligation.groupId awaited) ∧ outcome =
        (.ok (obligation.groupId, epoch), manager.settled pendingRef obligation.groupId epoch)

section Settles

variable (pendingRef : Nat)

theorem settlePublish_settles
    {move : PendingMeta GroupId → CommitLifecycle Handle Message →
      Except InvalidTransition (CommitLifecycle Handle Message × Nat)}
    (settling : Settling move) :
    manager.Settles pendingRef (manager.settlePublish pendingRef move) := by
  unfold settlePublish
  cases found : manager.pending pendingRef with
  | none => exact .inl ⟨_, rfl⟩
  | some obligation =>
    cases known : manager.states obligation.groupId with
    | none => exact .inl ⟨.unknownGroup obligation.groupId, by simp only [known]⟩
    | some previous =>
      rcases settling obligation previous with
        ⟨e, refused⟩ | ⟨⟨epoch, pending, awaited, waits⟩, moved⟩
      · exact .inl ⟨.invalidTransition e, by simp only [known, refused]⟩
      · obtain ⟨next, moved⟩ := moved
        refine .inr ⟨obligation, next, found, ⟨awaited, epoch, pending, by rw [known, waits]⟩, ?_⟩
        simp only [known, moved, settled]

theorem confirmPublish_settles :
    manager.Settles pendingRef (manager.confirmPublish pendingRef) := by
  refine manager.settlePublish_settles pendingRef fun obligation state => ?_
  cases state with
  | pendingPublish epoch => exact .inr ⟨⟨_, _, _, rfl⟩, epoch, rfl⟩
  | stable | merging | recovering | unrecoverable => exact .inl ⟨_, rfl⟩

theorem rollbackPublish_settles :
    manager.Settles pendingRef (manager.rollbackPublish pendingRef) := by
  refine manager.settlePublish_settles pendingRef fun obligation state => ?_
  cases state with
  | pendingPublish => exact .inr ⟨⟨_, _, _, rfl⟩, _, rfl⟩
  | stable | merging | recovering | unrecoverable => exact .inl ⟨_, rfl⟩

end Settles

/-- **What one operation can do.** -/
inductive Effect (manager : EpochManager GroupId Handle Message)
    (operation : Operation GroupId Handle Message) :
    Except (EngineError GroupId) Unit → EpochManager GroupId Handle Message → Prop
  | refused (e : EngineError GroupId) (obliging : operation.overwrites = none) :
      Effect manager operation (.error e) manager
  | aside (next : EpochManager GroupId Handle Message) (obliging : operation.overwrites = none)
      (unsettling : ∀ pendingRef, operation ≠ .confirmPublish pendingRef ∧
        operation ≠ .rollbackPublish pendingRef)
      (states : next.states = manager.states) (pending : next.pending = manager.pending) :
      Effect manager operation (.ok ()) next
  | overwritten (groupId : GroupId) (state : CommitLifecycle Handle Message)
      (overwrites : operation.overwrites = some groupId)
      (free : ∀ epoch pending awaited, state ≠ .pendingPublish epoch pending awaited) :
      Effect manager operation (.ok ()) (manager.setState groupId state)
  | begun (groupId : GroupId) (preCommitEpoch newEpoch : Nat) (pending : Handle)
      (pendingRef : Nat) (kind : PendingKind) (next : EpochManager GroupId Handle Message)
      (begins : operation = .beginPending groupId preCommitEpoch newEpoch pending pendingRef kind)
      (unowed : ∀ awaited, ¬ manager.Awaits groupId awaited)
      (states : next.states = update manager.states groupId
        (some (.pendingPublish newEpoch pending pendingRef)))
      (obliged : next.pending = update manager.pending pendingRef
        (some ⟨groupId, preCommitEpoch, kind⟩)) :
      Effect manager operation (.ok ()) next
  | settled (pendingRef : Nat) (obligation : PendingMeta GroupId) (epoch : Nat)
      (settles : operation = .confirmPublish pendingRef ∨ operation = .rollbackPublish pendingRef)
      (found : manager.pending pendingRef = some obligation) :
      Effect manager operation (.ok ()) (manager.settled pendingRef obligation.groupId epoch)

theorem apply_effect (operation : Operation GroupId Handle Message) :
    manager.Effect operation (manager.apply operation).1 (manager.apply operation).2 := by
  cases operation with
  | nextPendingRef => exact .aside _ rfl (by simp) rfl rfl
  | setStable groupId => exact .overwritten groupId _ rfl (by simp)
  | beginPending groupId preCommitEpoch newEpoch pending pendingRef kind =>
    rcases manager.beginPending_cases groupId preCommitEpoch newEpoch pending pendingRef kind with
      ⟨e, refused⟩ | ⟨⟨epoch, stable⟩, begun⟩
    · simp only [apply, refused]
      exact .refused e rfl
    · simp only [apply, begun]
      refine .begun groupId preCommitEpoch newEpoch pending pendingRef kind _ rfl ?_ rfl rfl
      rintro _ ⟨_, _, waits⟩
      simp [waits] at stable
  | confirmPublish pending =>
    rcases manager.confirmPublish_settles pending with
      ⟨e, refused⟩ | ⟨obligation, epoch, found, _, confirmed⟩
    · simp only [apply, refused, Except.map]
      exact .refused e rfl
    · simp only [apply, confirmed, Except.map]
      exact .settled pending obligation epoch (.inl rfl) found
  | rollbackPublish pending =>
    rcases manager.rollbackPublish_settles pending with
      ⟨e, refused⟩ | ⟨obligation, epoch, found, _, rolledBack⟩
    · simp only [apply, refused, Except.map]
      exact .refused e rfl
    · simp only [apply, rolledBack, Except.map]
      exact .settled pending obligation epoch (.inr rfl) found
  | recordCommittedFrom => exact .aside _ rfl (by simp) rfl rfl
  | pruneCommittedFromBefore groupId =>
    refine .aside _ rfl (by simp) ?_ ?_ <;>
      · simp only [apply, pruneCommittedFromBefore]
        cases manager.committedFrom groupId <;> rfl
  | detectFork groupId =>
    exact .overwritten groupId _ rfl (by simp [CommitLifecycle.detectFork])
  | markUnrecoverable groupId =>
    exact .overwritten groupId _ rfl (by simp [CommitLifecycle.toUnrecoverable])

variable {manager}

omit [DecidableEq GroupId] in
theorem Awaits.unique {groupId : GroupId} {first second : Nat}
    (firstAwaited : manager.Awaits groupId first) (secondAwaited : manager.Awaits groupId second) :
    first = second := by
  obtain ⟨_, _, firstState⟩ := firstAwaited
  obtain ⟨_, _, secondState⟩ := secondAwaited
  rw [firstState] at secondState
  injection secondState with states
  injection states

theorem failsAtomically (manager : EpochManager GroupId Handle Message) :
    manager.FailsAtomically := by
  intro operation e failed
  have effect := manager.apply_effect operation
  rw [failed] at effect
  generalize (manager.apply operation).2 = next at effect ⊢
  cases effect
  rfl

omit [DecidableEq GroupId] in
theorem Awaits.of_update [DecidableEq GroupId] {next : EpochManager GroupId Handle Message}
    {groupId other : GroupId} {state : Option (CommitLifecycle Handle Message)} {pendingRef : Nat}
    (awaited : manager.Awaits other pendingRef) (different : other ≠ groupId)
    (states : next.states = update manager.states groupId state) :
    next.Awaits other pendingRef := by
  obtain ⟨epoch, pending, known⟩ := awaited
  exact ⟨epoch, pending, by rw [states, update_of_ne different, known]⟩

/-- Under coupled obligations, settling meets a group that waits for exactly what is settled. -/
theorem Coupled.settlesAwaited (coupled : manager.Coupled) : manager.SettlesAwaited := by
  intro pendingRef operation settles succeeded
  have effect := manager.apply_effect operation
  rw [succeeded] at effect
  generalize (manager.apply operation).2 = next at effect
  cases effect with
  | aside _ _ unsettling => exact absurd settles (by simp [unsettling])
  | overwritten _ _ overwrites => rcases settles with rfl | rfl <;> cases overwrites
  | begun _ _ _ _ _ _ _ begins => simp [begins] at settles
  | settled settledRef obligation _ settledBy found =>
    have same : settledRef = pendingRef := by
      rcases settles with rfl | rfl <;> simpa [eq_comm] using settledBy
    subst same
    exact ⟨obligation, found, coupled _ _ found⟩

/-- **One operation keeps the coupling** unless it writes over a group that owes a publication. -/
theorem Coupled.apply (coupled : manager.Coupled) (operation : Operation GroupId Handle Message)
    (free : ∀ groupId, operation.overwrites = some groupId → ¬ manager.Owes groupId) :
    (manager.apply operation).2.Coupled := by
  have effect := manager.apply_effect operation
  generalize (manager.apply operation).1 = reported at effect
  generalize (manager.apply operation).2 = next at effect ⊢
  cases effect with
  | refused => exact coupled
  | aside _ _ _ states pending =>
    intro pendingRef obligation found
    obtain ⟨epoch, staged, known⟩ := coupled pendingRef obligation (by rw [← pending, found])
    exact ⟨epoch, staged, by rw [states, known]⟩
  | overwritten groupId state overwrites =>
    intro pendingRef obligation found
    refine (coupled pendingRef obligation found).of_update (fun same => ?_) rfl
    exact free groupId overwrites ⟨pendingRef, obligation, found, same⟩
  | begun groupId preCommitEpoch newEpoch pending begunRef kind _ _ unowed states obliged =>
    intro pendingRef obligation found
    rw [obliged] at found
    by_cases same : pendingRef = begunRef
    · subst same
      rw [update_self] at found
      injection found with found
      subst found
      exact ⟨newEpoch, pending, by rw [states, update_self]⟩
    · rw [update_of_ne same] at found
      have awaited := coupled pendingRef obligation found
      have otherGroup : obligation.groupId ≠ groupId := by
        rintro rfl
        exact unowed pendingRef awaited
      exact awaited.of_update otherGroup states
  | settled settledRef settledOne epoch _ settledFound =>
    intro pendingRef obligation found
    simp only [settled] at found
    by_cases same : pendingRef = settledRef
    · rw [same, update_self] at found
      cases found
    · rw [update_of_ne same] at found
      have awaited := coupled pendingRef obligation found
      refine awaited.of_update (fun sameGroup => same ?_) rfl
      exact awaited.unique (sameGroup ▸ coupled settledRef settledOne settledFound)

theorem not_coupled_of_overwrites {operation : Operation GroupId Handle Message} {groupId : GroupId}
    (overwrites : operation.overwrites = some groupId) (owes : manager.Owes groupId) :
    ¬ (manager.apply operation).2.Coupled := by
  intro coupled
  obtain ⟨pendingRef, obligation, found, rfl⟩ := owes
  have effect := manager.apply_effect operation
  generalize (manager.apply operation).1 = reported at effect
  generalize (manager.apply operation).2 = next at effect coupled
  cases effect with
  | refused _ obliging => simp [overwrites] at obliging
  | aside _ obliging => simp [overwrites] at obliging
  | begun _ _ _ _ _ _ _ begins => simp [begins, Operation.overwrites] at overwrites
  | settled _ _ _ settles => rcases settles with rfl | rfl <;> cases overwrites
  | overwritten other state overwritesOther free =>
    rw [overwrites] at overwritesOther
    injection overwritesOther with sameGroup
    subst sameGroup
    obtain ⟨_, _, known⟩ := coupled pendingRef obligation found
    simp only [setState, update_self, Option.some.injEq] at known
    exact free _ _ _ known

/-- **Obligations along a run.** In every sequence of operations from an empty manager, the
obligations stay coupled, are settled only by the group that waits for them, and failing operations
change nothing, exactly when no operation writes over a group that owes a publication. -/
theorem obligations_iff (operations : List (Operation GroupId Handle Message)) :
    (∀ before, before <+: operations →
      ((new : EpochManager GroupId Handle Message).run before).Coupled ∧
      ((new : EpochManager GroupId Handle Message).run before).SettlesAwaited ∧
      ((new : EpochManager GroupId Handle Message).run before).FailsAtomically) ↔
    ∀ before operation, before ++ [operation] <+: operations →
      ∀ groupId, operation.overwrites = some groupId →
        ¬ ((new : EpochManager GroupId Handle Message).run before).Owes groupId := by
  constructor
  · intro obligations before operation within groupId overwrites owes
    have coupled := (obligations _ within).1
    rw [run_concat] at coupled
    exact not_coupled_of_overwrites overwrites owes coupled
  · intro free before within
    have coupled : ((new : EpochManager GroupId Handle Message).run before).Coupled := by
      induction before using List.reverseRecOn with
      | nil => exact fun _ _ found => by cases found
      | append_singleton earlier operation ih =>
        rw [run_concat]
        exact (ih ((List.prefix_append _ _).trans within)).apply operation
          (free earlier operation within)
    exact ⟨coupled, coupled.settlesAwaited, failsAtomically _⟩

/-- A group is set stable while it owes a publication, and stages another commit. -/
def restaged : EpochManager Nat Unit Unit :=
  new.run [.beginPending 0 3 4 () 1 .groupEvolution, .setStable 0 3,
    .beginPending 0 3 4 () 2 .groupEvolution]

/-- The first publication can be confirmed although the group waits for the second. -/
theorem restaged_confirms_unawaited :
    (restaged.apply (.confirmPublish 1)).1 = .ok () ∧
      ¬ restaged.Coupled ∧ ¬ restaged.SettlesAwaited := by
  have owed : restaged.pending 1 = some ⟨0, 3, .groupEvolution⟩ := rfl
  have waits : restaged.Awaits 0 2 := ⟨4, (), rfl⟩
  refine ⟨rfl, fun coupled => ?_, fun settles => ?_⟩
  · exact absurd ((coupled 1 _ owed).unique waits) (by decide)
  · obtain ⟨obligation, found, awaited⟩ := settles 1 (.confirmPublish 1) (.inl rfl) rfl
    rw [owed] at found
    injection found with first
    subst first
    exact absurd (awaited.unique waits) (by decide)

end Obligations

/-! ### Groups that cannot be recovered -/

section Frozen

/-- The operations that write a group's state without asking whether the group can be recovered. -/
def Operation.thaws (groupId : GroupId) : Operation GroupId Handle Message → Bool
  | .setStable other _ | .detectFork other _ => other = groupId
  | _ => false

variable {manager} {groupId : GroupId}

omit [DecidableEq GroupId] in
theorem isUnrecoverable_iff :
    manager.isUnrecoverable groupId ↔
      ∃ epoch, manager.states groupId = some (.unrecoverable epoch) := by
  rw [isUnrecoverable]
  cases manager.states groupId with
  | none => simp
  | some state => cases state <;> simp [CommitLifecycle.isUnrecoverable]

variable {other : GroupId} {state : CommitLifecycle Handle Message}

theorem setState_isUnrecoverable_of_ne
    (different : other ≠ groupId) (frozen : manager.isUnrecoverable groupId) :
    (manager.setState other state).isUnrecoverable groupId := by
  show Option.any _ (update manager.states other (some state) groupId) = true
  rw [update_of_ne (Ne.symm different)]
  exact frozen

theorem setState_isUnrecoverable :
    (manager.setState groupId state).isUnrecoverable groupId = state.isUnrecoverable := by
  show Option.any _ (update manager.states groupId (some state) groupId) = _
  rw [update_self]
  rfl

omit [DecidableEq GroupId] in
theorem ne_of_awaits {awaited : Nat} (waits : manager.Awaits other awaited)
    (frozen : manager.isUnrecoverable groupId) : other ≠ groupId := by
  rintro rfl
  obtain ⟨_, known⟩ := isUnrecoverable_iff.mp frozen
  obtain ⟨_, _, waits⟩ := waits
  rw [known] at waits
  cases waits

/-- **One operation keeps a group frozen** unless it writes the group's state unasked. -/
theorem apply_isUnrecoverable (frozen : manager.isUnrecoverable groupId)
    (operation : Operation GroupId Handle Message) :
    (manager.apply operation).2.isUnrecoverable groupId = !operation.thaws groupId := by
  cases operation with
  | nextPendingRef => exact frozen
  | setStable other =>
    by_cases same : other = groupId
    · subst same
      simp [apply, setStable, setState_isUnrecoverable, CommitLifecycle.isUnrecoverable,
        Operation.thaws]
    · rw [Operation.thaws, decide_eq_false same]
      exact setState_isUnrecoverable_of_ne same frozen
  | beginPending other preCommitEpoch newEpoch pending pendingRef kind =>
    rcases manager.beginPending_cases other preCommitEpoch newEpoch pending pendingRef kind with
      ⟨e, refused⟩ | ⟨⟨epoch, stable⟩, begun⟩
    · rw [apply, refused]
      exact frozen
    · have different : other ≠ groupId := by
        rintro rfl
        obtain ⟨epoch, known⟩ := isUnrecoverable_iff.mp frozen
        rw [known] at stable
        cases stable
      rw [apply, begun]
      exact setState_isUnrecoverable_of_ne different frozen
  | confirmPublish pending =>
    rcases manager.confirmPublish_settles pending with
      ⟨e, refused⟩ | ⟨obligation, epoch, found, ⟨awaited, waits⟩, confirmed⟩
    · rw [apply, refused]
      exact frozen
    · rw [apply, confirmed]
      exact setState_isUnrecoverable_of_ne (ne_of_awaits waits frozen) frozen
  | rollbackPublish pending =>
    rcases manager.rollbackPublish_settles pending with
      ⟨e, refused⟩ | ⟨obligation, epoch, found, ⟨awaited, waits⟩, rolledBack⟩
    · rw [apply, refused]
      exact frozen
    · rw [apply, rolledBack]
      exact setState_isUnrecoverable_of_ne (ne_of_awaits waits frozen) frozen
  | recordCommittedFrom => exact frozen
  | pruneCommittedFromBefore other =>
    rw [apply, pruneCommittedFromBefore]
    cases manager.committedFrom other <;> exact frozen
  | detectFork other =>
    by_cases same : other = groupId
    · subst same
      simp [apply, detectFork, setState_isUnrecoverable, CommitLifecycle.isUnrecoverable,
        CommitLifecycle.detectFork, Operation.thaws]
    · rw [Operation.thaws, decide_eq_false same]
      exact setState_isUnrecoverable_of_ne same frozen
  | markUnrecoverable other =>
    by_cases same : other = groupId
    · subst same
      exact setState_isUnrecoverable
    · exact setState_isUnrecoverable_of_ne same frozen

/-- **A group that cannot be recovered stays so**, along every sequence of operations, exactly when
none of them sets the group stable or lets it recover from a fork. -/
theorem unrecoverable_stays_iff (frozen : manager.isUnrecoverable groupId)
    (operations : List (Operation GroupId Handle Message)) :
    (∀ before, before <+: operations → (manager.run before).isUnrecoverable groupId) ↔
      ∀ operation ∈ operations, operation.thaws groupId = false := by
  constructor
  · intro stays operation member
    obtain ⟨before, after, rfl⟩ := List.append_of_mem member
    have here : before ++ [operation] <+: before ++ operation :: after :=
      ⟨after, by simp⟩
    have kept := stays _ here
    rw [run_concat, apply_isUnrecoverable (stays before (List.prefix_append _ _))] at kept
    simpa using kept
  · intro unasked before within
    induction before using List.reverseRecOn with
    | nil => exact frozen
    | append_singleton earlier operation ih =>
      rw [run_concat, apply_isUnrecoverable (ih ((List.prefix_append _ _).trans within))]
      have member : operation ∈ operations := within.subset (by simp)
      rw [unasked operation member]
      rfl

/-- A manager whose only group cannot be recovered. -/
def frozen : EpochManager Nat Unit Unit :=
  new.run [.setStable 0 3, .markUnrecoverable 0]

/-- The group is set stable, and it takes messages again when a fork is detected. -/
theorem frozen_group_thaws :
    frozen.isUnrecoverable 0 ∧
      (frozen.run [.setStable 0 7]).states 0 = some (.stable 7) ∧
      (frozen.run [.detectFork 0 []]).states 0 = some (.recovering 3 []) ∧
      (frozen.run [.detectFork 0 []]).canIngest 0 :=
  ⟨rfl, rfl, rfl, rfl⟩

/-- No other operation moves it. -/
theorem frozen_group_stays :
    frozen.isUnrecoverable 0 ∧ ∀ before, before <+: ([.beginPending 0 3 4 () 1 .groupEvolution,
        .confirmPublish 1, .rollbackPublish 1, .setStable 1 2,
        .markUnrecoverable 0] : List (Operation Nat Unit Unit)) →
      (frozen.run before).isUnrecoverable 0 :=
  ⟨rfl, (unrecoverable_stays_iff (show frozen.isUnrecoverable 0 from rfl) _).mpr (by decide)⟩

end Frozen

end EpochManager

end Darkmatter
