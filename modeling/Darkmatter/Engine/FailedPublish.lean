/-
**A publication that failed.**

Giving up a publication takes back the state of the group and the obligation, but not the epoch that
was recorded when the commit was staged.

* `EpochManager.rollback_begin_iff` — when `rollbackPublish` undoes `beginPending`;
* `PublishHistory` — the epochs from which publications were confirmed;
* `session_unaffected` — **an epoch from which no publication was confirmed leaves the way of a
  commit alone**, in sessions that give up publications from recorded epochs only;
* `failed_publish_forks` — a session in which a failed publication sends the group into recovery.
-/

import Darkmatter.Engine.Runs

namespace Darkmatter

open Std Lib Function List

/-! ### The manager -/

namespace EpochManager

section Inverse

variable {GroupId Handle Message : Type} [DecidableEq GroupId]
  {manager : EpochManager GroupId Handle Message} {groupId : GroupId}
  {preCommitEpoch newEpoch : Nat} {pending : Handle} {pendingRef : Nat} {kind : PendingKind}

theorem recordCommittedFrom_eq_iff (manager : EpochManager GroupId Handle Message)
    (groupId : GroupId) (epoch : Nat) :
    (manager.recordCommittedFrom groupId epoch).committedFrom = manager.committedFrom ↔
      manager.weCommittedFrom groupId epoch := by
  rw [recordCommittedFrom, weCommittedFrom, update_eq_self_iff]
  cases manager.committedFrom groupId with
  | none => simp
  | some => simp [Finset.insert_eq_self]

variable
  (begun : (manager.beginPending groupId preCommitEpoch newEpoch pending pendingRef kind).1 = .ok ())

include begun

theorem rollback_begin :
    ((manager.beginPending groupId preCommitEpoch newEpoch pending pendingRef
        kind).2.rollbackPublish pendingRef).2 =
      { states := update manager.states groupId (some (.stable preCommitEpoch))
        pendingCounter := manager.pendingCounter
        pending := update manager.pending pendingRef none
        committedFrom := (manager.recordCommittedFrom groupId preCommitEpoch).committedFrom } := by
  rcases manager.beginPending_cases groupId preCommitEpoch newEpoch pending pendingRef kind with
    ⟨e, refused⟩ | ⟨_, began⟩
  · rw [refused] at begun
    cases begun
  · rw [began]
    simp [rollbackPublish, settlePublish, setState, CommitLifecycle.rollbackPending, bind,
      Except.bind, pure, Except.pure]

/-- **A publication that is given up leaves the manager as it was** exactly when the group was stable
at the epoch, had committed from it before, and the reference was free. -/
theorem rollback_begin_iff :
    ((manager.beginPending groupId preCommitEpoch newEpoch pending pendingRef
        kind).2.rollbackPublish pendingRef).2 = manager ↔
      manager.states groupId = some (.stable preCommitEpoch) ∧
        manager.weCommittedFrom groupId preCommitEpoch ∧ manager.pending pendingRef = none := by
  rw [rollback_begin begun]
  obtain ⟨_, _, _, _⟩ := manager
  rw [mk.injEq, recordCommittedFrom_eq_iff, update_eq_self_iff, update_eq_self_iff]
  simp only [true_and]
  constructor
  · rintro ⟨state, free, recorded⟩
    exact ⟨state.symm, recorded, free.symm⟩
  · rintro ⟨state, recorded, free⟩
    exact ⟨state.symm, free.symm, recorded⟩

end Inverse

end EpochManager

/-! ### Sessions -/

/-- The epochs from which a publication was confirmed, and the epochs that were recorded when the
last commit was staged. -/
structure PublishHistory where
  confirmed : List Nat
  recorded : List Nat
deriving DecidableEq, Repr

section Histories

variable {Group : Type}

def PublishHistory.record (history : PublishHistory) (step : Engine Group × Move Group) :
    PublishHistory :=
  match step.2 with
  | .stage .. => { history with recorded := step.1.committedFrom }
  | .confirm =>
    { history with
      confirmed :=
        (step.1.pendingCommit.map fun pending => pending.record.sourceEpoch).toList ++
          history.confirmed }
  | _ => history

/-- The history of the moves of a session. -/
def publishHistory (moves : List (Engine Group × Move Group)) : PublishHistory :=
  moves.foldl PublishHistory.record ⟨[], []⟩

variable (net : Ingress Group) (engine : Engine Group)

/-- Every publication that is given up was staged from an epoch that was recorded before. -/
def Engine.GivesUpRecorded (steps : List SessionStep) : Prop :=
  ∀ before state after, engine.moves net steps = before ++ (state, .abandon) :: after →
    ∀ pending, state.pendingCommit = some pending →
      pending.record.sourceEpoch ∈ (publishHistory before).recorded

def Move.givesUp : Move Group → Bool
  | .abandon => true
  | _ => false

/-- The condition as a check. -/
def Engine.givesUpRecorded (steps : List SessionStep) : Bool :=
  let moves := engine.moves net steps
  (range moves.length).all fun count => moves[count]?.all fun step =>
    !step.2.givesUp || step.1.pendingCommit.all fun pending =>
      pending.record.sourceEpoch ∈ (publishHistory (moves.take count)).recorded

variable {net engine} in
theorem givesUpRecorded.sound {steps : List SessionStep}
    (checked : engine.givesUpRecorded net steps) : engine.GivesUpRecorded net steps := by
  intro before state after here pending waits
  rw [Engine.givesUpRecorded, here] at checked
  have last := all_eq_true.mp checked before.length (mem_range.mpr (by simp))
  simp only [getElem?_append_right le_rfl, Nat.sub_self, getElem?_cons_zero,
    take_left, Option.all_some, Move.givesUp, waits, Bool.not_true, Bool.false_or,
    decide_eq_true_eq] at last
  exact last

/-- **No failed publication is in the way of a commit**: unless a publication from its epoch was
confirmed, a commit takes the way it takes for a client that never committed, and no fork is found at
its epoch. -/
structure PublishHistory.Unaffected (history : PublishHistory) (state : Engine Group)
    (move : Move Group) : Prop where
  route : state.pendingCommit = none → ∀ currentEpoch epoch, epoch ∉ history.confirmed →
    state.commitShouldEnterConvergence currentEpoch epoch =
      ({ state with committedFrom := [] } : Engine Group).commitShouldEnterConvergence currentEpoch
        epoch
  fork : ∀ message epoch, move = .detectFork message →
    net.decode message.payload = .ok (some ⟨.commit, epoch⟩) → epoch ∈ history.confirmed
  recovery : ∀ message record, move = .recover message record →
    record.sourceEpoch ∈ history.confirmed

/-- Between moves, a recorded epoch has a publication that was confirmed or is waited for. -/
structure PublishHistory.Covers (history : PublishHistory) (engine : Engine Group) : Prop where
  idle : engine.pendingCommit = none → ∀ epoch ∈ engine.committedFrom, epoch ∈ history.confirmed
  waiting : ∀ pending, engine.pendingCommit = some pending →
    (∀ epoch ∈ engine.committedFrom,
      epoch = pending.record.sourceEpoch ∨ epoch ∈ history.confirmed) ∧
    ∀ epoch ∈ history.recorded, epoch ∈ history.confirmed

variable {net engine} {transport outbox : String → Prop} {history : PublishHistory}

theorem PublishHistory.Covers.shrink {after : Engine Group} (covers : history.Covers engine)
    (pendingCommit : after.pendingCommit = engine.pendingCommit)
    (shrinks : ∀ epoch ∈ after.committedFrom, epoch ∈ engine.committedFrom) :
    history.Covers after where
  idle unpending epoch member := covers.idle (pendingCommit ▸ unpending) epoch (shrinks epoch member)
  waiting pending waits := by
    obtain ⟨recorded, staged⟩ := covers.waiting pending (pendingCommit ▸ waits)
    exact ⟨fun epoch member => recorded epoch (shrinks epoch member), staged⟩

variable {move : Move Group}

/-- **A move keeps the record covered**, unless it gives up a publication from an epoch that was not
recorded before. -/
theorem PublishHistory.Covers.perform (laws : net.Laws) (sound : engine.SoundSession net transport)
    (allowed : move.Allowed net transport outbox engine) (covers : history.Covers engine)
    (recorded : move = .abandon → ∀ pending, engine.pendingCommit = some pending →
      pending.record.sourceEpoch ∈ history.recorded) :
    (history.record (engine, move)).Covers (move.perform net engine) := by
  by_cases spares : move.sparesRegister
  · have same := sound.sameRecoveries laws spares
    have unchanged : history.record (engine, move) = history := by
      cases move <;> first | rfl | cases spares
    rw [unchanged]
    exact covers.shrink same.pendingCommit fun epoch member => same.committedFrom ▸ member
  cases move with
  | applyCommit message priority committer merged recovery =>
    obtain ⟨epoch, _, admits, _⟩ := allowed
    obtain ⟨pendingCommit, _, _, _, merges⟩ :=
      applyStagedCommit_register admits priority committer merged recovery
    refine covers.shrink pendingCommit fun epoch member => ?_
    rw [Move.perform, merges.committedFrom] at member
    exact (mem_filter.mp member).1
  | recover =>
    obtain ⟨_, _, _, _, recovered⟩ := allowed.recovered
    rw [recovered]
    exact covers.shrink rfl fun _ member => member
  | stage =>
    obtain ⟨_, _, _, _, stable, _⟩ := stageCommit_cases allowed.staged
    have unpending : engine.pendingCommit = none := sound.unpending (by rw [stable]; rfl)
    obtain ⟨committedFrom, _, pending, waits, _, source, _⟩ := stageCommit_register allowed.staged
    refine ⟨fun free => ?_, fun other waits' => ⟨fun epoch member => ?_, covers.idle unpending⟩⟩
    · rw [waits] at free
      cases free
    · rw [waits] at waits'
      cases waits'
      rw [committedFrom] at member
      rcases mem_cons.mp member with rfl | old
      · exact Or.inl source.symm
      · exact Or.inr (covers.idle unpending epoch old)
  | confirm =>
    obtain ⟨unpending, pending, waits, merges⟩ := confirmPublished_register allowed.confirmed
    refine ⟨fun _ epoch member => ?_, fun pending waits => by rw [unpending] at waits; cases waits⟩
    rw [merges.committedFrom] at member
    rcases (covers.waiting pending waits).1 epoch (mem_filter.mp member).1 with rfl | known
    · exact mem_append_left _ (by simp [waits])
    · exact mem_append_right _ known
  | abandon =>
    obtain ⟨unpending, committedFrom, _⟩ := abandonPublish_register net engine
    rw [Move.perform]
    refine ⟨fun _ epoch member => ?_, fun pending waits => by rw [unpending] at waits; cases waits⟩
    rw [committedFrom] at member
    obtain ⟨pending, waits⟩ := Option.isSome_iff_exists.mp allowed
    obtain ⟨known, staged⟩ := covers.waiting pending waits
    rcases known epoch member with rfl | confirmed
    · exact staged _ (recorded rfl pending waits)
    · exact confirmed
  | restart => exact ⟨fun _ epoch member => (not_mem_nil member).elim, by rintro pending ⟨⟩⟩
  | _ => exact absurd rfl spares

theorem PublishHistory.Covers.unaffected (sound : engine.SoundSession net transport)
    (covers : history.Covers engine) (allowed : move.Allowed net transport outbox engine) :
    history.Unaffected net engine move where
  route unpending currentEpoch epoch unconfirmed := by
    have unrecorded : epoch ∉ engine.committedFrom :=
      fun member => unconfirmed (covers.idle unpending epoch member)
    simp [Engine.commitShouldEnterConvergence, unrecorded]
  fork message epoch isFork decoded := by
    subst isFork
    obtain ⟨_, admits, member, _⟩ := allowed
    rw [admits.decoded] at decoded
    cases decoded
    exact covers.idle (sound.unpending admits.ready) epoch member
  recovery message record isRecovery := by
    subst isRecovery
    obtain ⟨admits, _, member, _⟩ := allowed
    exact covers.idle (sound.unpending admits.ready) record.sourceEpoch member

/-- **Sessions that give up publications from recorded epochs only.** -/
theorem session_unaffected {steps : List SessionStep} (laws : net.Laws)
    (sound : engine.SoundSession net transport)
    (named : ∀ step ∈ steps, step.Names transport outbox) (fresh : engine.committedFrom = [])
    (unpending : engine.pendingCommit = none) (recorded : engine.GivesUpRecorded net steps)
    {before after : List (Engine Group × Move Group)} {state : Engine Group}
    (here : engine.moves net steps = before ++ (state, move) :: after) :
    (publishHistory before).Unaffected net state move := by
  obtain ⟨sounds, _⟩ := session_sound sound laws named
  have follows := session_follows net engine steps
  rw [here] at follows sounds
  have covers : (publishHistory before).Covers state := by
    refine follows.until.invariant PublishHistory.record PublishHistory.Covers ?_ ?_
    · refine ⟨fun _ epoch member => ?_, fun pending waits => ?_⟩
      · rw [fresh] at member
        cases member
      · rw [unpending] at waits
        cases waits
    · rintro earlier ⟨between, other⟩ rest split covers
      have within : engine.moves net steps =
          earlier ++ (between, other) :: (rest ++ (state, move) :: after) := by
        rw [here, split]
        simp
      obtain ⟨isSound, allowed⟩ := sounds (between, other) (by simp [split])
      refine covers.perform laws isSound allowed ?_
      rintro rfl
      exact recorded earlier between _ within
  obtain ⟨isSound, allowed⟩ := sounds (state, move) (by simp)
  exact covers.unaffected isSound allowed

end Histories

/-- **A failed publication and its consequence.** Giving up a publication restores the manager exactly
when the group was stable at the epoch of the commit, had committed from it before, and the reference
was free. In sessions whose failed publications are all of this kind, a failed publication never sends
a later commit to fork recovery, and never makes the group recover. -/
theorem failed_publish_inverse {GroupId Handle Message : Type} [DecidableEq GroupId]
    (manager : EpochManager GroupId Handle Message) (groupId : GroupId)
    (preCommitEpoch newEpoch : Nat) (pending : Handle) (pendingRef : Nat) (kind : PendingKind) :
    ((manager.beginPending groupId preCommitEpoch newEpoch pending pendingRef kind).1 = .ok () →
      (((manager.beginPending groupId preCommitEpoch newEpoch pending pendingRef
          kind).2.rollbackPublish pendingRef).2 = manager ↔
        manager.states groupId = some (.stable preCommitEpoch) ∧
          manager.weCommittedFrom groupId preCommitEpoch ∧ manager.pending pendingRef = none)) ∧
    ∀ {Group : Type} (net : Ingress Group) (engine : Engine Group)
      (transport outbox : String → Prop) (steps : List SessionStep),
      net.Laws → engine.SoundSession net transport →
      (∀ step ∈ steps, step.Names transport outbox) → engine.committedFrom = [] →
      engine.pendingCommit = none → engine.GivesUpRecorded net steps →
        ∀ before state move after, engine.moves net steps = before ++ (state, move) :: after →
          (publishHistory before).Unaffected net state move := by
  refine ⟨EpochManager.rollback_begin_iff, ?_⟩
  intro Group net engine transport outbox steps laws sound named fresh unpending recorded before
    state move after here
  exact session_unaffected laws sound named fresh unpending recorded here

/-! ### A commit that was never published -/

/-- Two commits of other clients from the first epoch; the group is on the first one when the second
one arrives. -/
def competingSteps : List SessionStep :=
  [ingestSymbolic "first" [0, 1], .advance 1000, ingestSymbolic "second" [0, 2]]

/-- The client staged a commit from the first epoch and its publication failed. The group then takes
the commit of another client, and a third commit from the first epoch sends it into recovery. Without
the failed publication the group stays stable. -/
theorem failed_publish_forks :
    ((symbolicEngine [9]).session (symbolicIngress [9])
        (stageSymbolicCommit "own" 9 [] :: .publishFailed 0 :: competingSteps)).epochState =
          .recovering 1 ∧
      ((symbolicEngine [9]).session (symbolicIngress [9]) competingSteps).epochState = .stable 1 ∧
      ∃ manager : EpochManager String Unit Unit,
        (manager.beginPending "group" 0 1 () 1 .groupEvolution).1 = .ok () ∧
          ((manager.beginPending "group" 0 1 () 1 .groupEvolution).2.rollbackPublish 1).1 =
            .ok ("group", 0) ∧
          ((manager.beginPending "group" 0 1 () 1 .groupEvolution).2.rollbackPublish 1).2 ≠
            manager := by
  refine ⟨by decide +kernel, by decide +kernel, EpochManager.new.setStable "group" 0, rfl, rfl, ?_⟩
  intro same
  have recorded := congrArg (fun manager => manager.weCommittedFrom "group" 0) same
  revert recorded
  decide

/-- The client commits twice. A commit from the first epoch beats its first one, and the publication of
another commit of the client fails, from an epoch it had committed from before. -/
def givenUpSteps : List SessionStep :=
  [stageSymbolicCommit "first" 9 [], .confirmPublished 0, stageSymbolicCommit "second" 8 [9],
    .confirmPublished 0, ingestSymbolic "winner" [0, 2], stageSymbolicCommit "third" 7 [2],
    .publishFailed 0, ingestSymbolic "next" [0, 3, 2], .advance 1000]

theorem recorded_publish_given_up :
    (∃ manager : EpochManager String Unit Unit,
      ((manager.beginPending "group" 0 1 () 1 .groupEvolution).2.rollbackPublish 1).2 = manager) ∧
    ((symbolicEngine [7, 8, 9]).moves (symbolicIngress [7, 8, 9]) givenUpSteps).any
      (fun step => step.2.givesUp && step.1.pendingCommit.isSome) ∧
    ∀ before state move after,
      (symbolicEngine [7, 8, 9]).moves (symbolicIngress [7, 8, 9]) givenUpSteps =
          before ++ (state, move) :: after →
        (publishHistory before).Unaffected (symbolicIngress [7, 8, 9]) state move := by
  refine ⟨?_, by decide +kernel, ?_⟩
  · refine ⟨(EpochManager.new.setStable "group" 0).recordCommittedFrom "group" 0,
      ((failed_publish_inverse _ "group" 0 1 () 1 .groupEvolution).1 rfl).mpr ⟨rfl, ?_, rfl⟩⟩
    decide
  · exact (failed_publish_inverse (EpochManager.new : EpochManager String Unit Unit) "group" 0 1
      () 1 .groupEvolution).2 (symbolicIngress [7, 8, 9]) (symbolicEngine [7, 8, 9]) (fun _ => True)
      (fun _ => True) givenUpSteps (symbolicIngress_laws [7, 8, 9])
      (symbolicEngine_soundSession [7, 8, 9] _) (fun step _ => step.names_any) rfl rfl
      (givesUpRecorded.sound (by decide +kernel))

end Darkmatter
