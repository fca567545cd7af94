/-
**The log of a group's state changes over convergence passes.**

A pass reports the difference between the group before and after it as state changes. When it accepted
a single commit, the changes name this commit as their origin. It also reports the commits that it
rolled back, and the application withdraws the changes of these commits.

* `GroupView` — what a pass compares, `Engine.passEvents` — what it reports;
* `Engine.stateEvents` — the reports of a run;
* `Engine.Undoes` — no change of a commit that a pass rolls back holds before and after the pass;
* `state_log_coherent` — **the changes that are left tell the members and admins** of the group.
-/

import Darkmatter.Engine.Anchors
import Darkmatter.Engine.StateChanges
import Darkmatter.Lib.Ledger

namespace Darkmatter

open Lib GroupStateChange List

/-! ### Reports -/

/-- What a pass compares of a group. -/
structure GroupView where
  members : List Bytes
  admins : List Bytes
  name : String
  avatar : List (Option Bytes)
  messageRetention : Option Nat
deriving DecidableEq, Repr

inductive StateEvent
  | groupStateChanged (epoch : Nat) (actor : Option Bytes) (change : GroupStateChange)
      (originCommitId : Option String)
  | commitRolledBack (invalidatedCommitId : String)
deriving DecidableEq, Repr

/-- The commit of a pass that accepted one commit. -/
def singleAcceptedCommitId (result : CanonicalizationResult) : Option String :=
  match result.acceptedCommits with
  | [only] => some only
  | _ => none

def singleAcceptedCommitActor (observations : List OpenMlsReplayObservation)
    (originCommitId : Option String) : Option Bytes :=
  originCommitId.bind fun commitId => observations.findSome? fun observation =>
    match observation with
    | .commitStaged messageId _ _ _ committer _ =>
      if messageId = commitId then some committer else none
    | _ => none

/-- **The changes of a pass.** Only a change of the retention is attributed. -/
def emitConvergenceEvents (before after : GroupView) (selectedTip : Nat)
    (originCommitId : Option String) (originCommitActor : Option Bytes) : List StateEvent :=
  let changed (actor : Option Bytes) (change : GroupStateChange) : StateEvent :=
    .groupStateChanged selectedTip actor change originCommitId
  (adminChanges before.admins after.admins).map (changed none) ++
    (profileChanges before.name after.name before.avatar after.avatar).map (changed none) ++
    (messageRetentionChanges before.messageRetention after.messageRetention).map
      (changed originCommitActor) ++
    (memberChanges before.members after.members).map (changed none)

def emitRolledBackCommits (result : CanonicalizationResult) : List StateEvent :=
  result.rolledBackCommits.map .commitRolledBack

/-- The reports of a pass whose decision was applied. -/
def appliedEvents (before after : GroupView) (result : CanonicalizationResult)
    (observations : List OpenMlsReplayObservation) : List StateEvent :=
  (match result.selectedTip with
    | none => []
    | some selectedTip => emitConvergenceEvents before after selectedTip
        (singleAcceptedCommitId result)
        (singleAcceptedCommitActor observations (singleAcceptedCommitId result))) ++
    emitRolledBackCommits result

section Logging

variable {Group : Type} (mls : OpenMls Group) (view : Group → GroupView) (engine : Engine Group)

/-- The reports of a pass, from its outcome. A pass that waits, is blocked or fails reports
nothing. -/
def Engine.reports (observations : List OpenMlsReplayObservation) (after : Engine Group) :
    Except OpenMlsProjectionError CanonicalizationResult → List StateEvent
  | .error _ => []
  | .ok result =>
    if engine.epochState.isUnrecoverable ∨ result.convergenceStatus = .syncing ∨
        result.convergenceStatus = .resolving ∨ result.convergenceStatus = .blocked ∨
        CanonicalizationError.missingRetainedAnchor ∈ result.errors then
      []
    else
      appliedEvents (view engine.storage.live.mls) (view after.storage.live.mls) result observations

/-- **The reports of a pass.** -/
def Engine.passEvents (nowMs : Nat) : List StateEvent :=
  engine.reports view (engine.passObservations mls nowMs)
    (convergeStoredOpenmlsMessages mls engine nowMs).2
    (convergeStoredOpenmlsMessages mls engine nowMs).1

def Engine.stepEvents : EngineStep → List StateEvent
  | .converge nowMs => engine.passEvents mls view nowMs
  | _ => []

/-- The reports of a run. -/
def Engine.stateEvents (engine : Engine Group) : List EngineStep → List StateEvent
  | [] => []
  | step :: rest => engine.stepEvents mls view step ++ (engine.step mls step).stateEvents rest

end Logging

/-! ### The ledger of a log -/

inductive Role
  | member
  | admin
deriving DecidableEq, Repr

/-- The sets of members and admins. -/
def GroupView.holds (view : GroupView) (key : Role × Bytes) : Bool :=
  match key.1 with
  | .member => key.2 ∈ view.members
  | .admin => key.2 ∈ view.admins

/-- What a change says about the members and admins. -/
def GroupStateChange.entry? : GroupStateChange → Option ((Role × Bytes) × Bool)
  | .memberAdded member => some ((.member, member), true)
  | .memberRemoved member => some ((.member, member), false)
  | .memberLeft member => some ((.member, member), false)
  | .adminAdded member => some ((.admin, member), true)
  | .adminRemoved member => some ((.admin, member), false)
  | _ => none

def StateEvent.entry? : StateEvent → Option (LedgerEntry (Role × Bytes) String)
  | .groupStateChanged _ _ change origin =>
    change.entry?.map fun entry => .change entry.1 entry.2 origin
  | .commitRolledBack commitId => some (.withdrawn commitId)

/-- **The ledger of a log.** -/
def ledger (events : List StateEvent) : List (LedgerEntry (Role × Bytes) String) :=
  events.filterMap StateEvent.entry?

theorem ledger_append (first second : List StateEvent) :
    ledger (first ++ second) = ledger first ++ ledger second := filterMap_append

/-- The members and admins that two views differ in. -/
def viewChanges (before after : GroupView) : List ((Role × Bytes) × Bool) :=
  (adminChanges before.admins after.admins ++ memberChanges before.members after.members).filterMap
    entry?

theorem mem_viewChanges {before after : GroupView} (key : Role × Bytes) (value : Bool) :
    (key, value) ∈ viewChanges before after ↔
      before.holds key ≠ after.holds key ∧ value = after.holds key := by
  obtain ⟨role, id⟩ := key
  have listed : ((role, id), value) ∈ viewChanges before after ↔
      role = .admin ∧ (id ∈ after.admins ∧ id ∉ before.admins ∧ value = true ∨
        id ∈ before.admins ∧ id ∉ after.admins ∧ value = false) ∨
      role = .member ∧ (id ∈ after.members ∧ id ∉ before.members ∧ value = true ∨
        id ∈ before.members ∧ id ∉ after.members ∧ value = false) := by
    simp only [viewChanges, adminChanges, memberChanges, filterMap_append, filterMap_map,
      mem_append, mem_filterMap, mem_filter, decide_eq_true_eq, mem_dedup,
      Function.comp_apply, entry?, Option.some.injEq, Prod.mk.injEq]
    constructor
    · rintro ((⟨_, ⟨here, there⟩, ⟨rfl, rfl⟩, rfl⟩ | ⟨_, ⟨here, there⟩, ⟨rfl, rfl⟩, rfl⟩) |
        ⟨_, ⟨here, there⟩, ⟨rfl, rfl⟩, rfl⟩ | ⟨_, ⟨here, there⟩, ⟨rfl, rfl⟩, rfl⟩)
      · exact .inl ⟨rfl, .inl ⟨here, there, rfl⟩⟩
      · exact .inl ⟨rfl, .inr ⟨here, there, rfl⟩⟩
      · exact .inr ⟨rfl, .inl ⟨here, there, rfl⟩⟩
      · exact .inr ⟨rfl, .inr ⟨here, there, rfl⟩⟩
    · rintro (⟨rfl, ⟨here, there, rfl⟩ | ⟨here, there, rfl⟩⟩ |
        ⟨rfl, ⟨here, there, rfl⟩ | ⟨here, there, rfl⟩⟩)
      · exact .inl (.inl ⟨id, ⟨here, there⟩, ⟨rfl, rfl⟩, rfl⟩)
      · exact .inl (.inr ⟨id, ⟨here, there⟩, ⟨rfl, rfl⟩, rfl⟩)
      · exact .inr (.inl ⟨id, ⟨here, there⟩, ⟨rfl, rfl⟩, rfl⟩)
      · exact .inr (.inr ⟨id, ⟨here, there⟩, ⟨rfl, rfl⟩, rfl⟩)
  rw [listed]
  cases role with
  | admin =>
    by_cases old : id ∈ before.admins <;> by_cases new : id ∈ after.admins <;>
      simp [GroupView.holds, old, new]
  | member =>
    by_cases old : id ∈ before.members <;> by_cases new : id ∈ after.members <;>
      simp [GroupView.holds, old, new]

theorem ledger_changes (changes : List GroupStateChange) (tip : Nat) (actor : Option Bytes)
    (origin : Option String) :
    ledger (changes.map fun change => .groupStateChanged tip actor change origin) =
      (changes.filterMap entry?).map fun entry =>
        .change entry.1 entry.2 origin := by
  rw [ledger, filterMap_map, map_filterMap]
  rfl

theorem viewChanges_self (view : GroupView) : viewChanges view view = [] := by
  refine eq_nil_iff_forall_not_mem.mpr fun entry listed => ?_
  exact ((mem_viewChanges entry.1 entry.2).mp listed).1 rfl

/-- The reports of a pass are a step of the ledger. -/
theorem ledger_appliedEvents {before after : GroupView} {result : CanonicalizationResult}
    {observations : List OpenMlsReplayObservation}
    (unmoved : result.selectedTip = none → after = before) :
    ledger (appliedEvents before after result observations) =
      stepEntries (viewChanges before after) (singleAcceptedCommitId result)
        result.rolledBackCommits := by
  have profile : (profileChanges before.name after.name before.avatar after.avatar).filterMap
      entry? = [] := by
    rw [profileChanges]
    split_ifs <;> rfl
  have retention : (messageRetentionChanges before.messageRetention
      after.messageRetention).filterMap entry? = [] := by
    rw [messageRetentionChanges]
    split_ifs <;> rfl
  have rolledBack : ledger (emitRolledBackCommits result) =
      result.rolledBackCommits.map .withdrawn := by
    rw [ledger, emitRolledBackCommits, filterMap_map]
    exact congrFun filterMap_eq_map' _
  rw [appliedEvents, ledger_append, rolledBack, stepEntries]
  congr 1
  cases selected : result.selectedTip with
  | none =>
    rw [unmoved selected, viewChanges_self]
    rfl
  | some =>
    simp only [emitConvergenceEvents, ledger_append, ledger_changes, profile, retention,
      map_nil, append_nil]
    rw [viewChanges, filterMap_append, map_append]

/-! ### Coherence -/

section Coherence

variable {Group : Type} {mls : OpenMls Group} {view : Group → GroupView} {engine : Engine Group}

theorem stateEvents_concat (engine : Engine Group) (steps : List EngineStep) (step : EngineStep) :
    engine.stateEvents mls view (steps ++ [step]) =
      engine.stateEvents mls view steps ++ (engine.run mls steps).stepEvents mls view step := by
  induction steps generalizing engine with
  | nil => exact append_nil _
  | cons first rest ih =>
    rw [cons_append, Engine.stateEvents, Engine.stateEvents, ih, append_assoc]
    rfl

/-- **What a pass reports**: nothing, and the group is as it was, or the entries of one step of the
ledger, with the difference between the groups before and after it. -/
theorem passEvents_cases (view : Group → GroupView) (laws : mls.EpochLaws)
    (sound : engine.Sound mls) (nowMs : Nat) :
    (engine.passEvents mls view nowMs = [] ∧
      (convergeStoredOpenmlsMessages mls engine nowMs).2.storage.live.mls =
        engine.storage.live.mls) ∨
    ∃ result, (convergeStoredOpenmlsMessages mls engine nowMs).1 = .ok result ∧
      ledger (engine.passEvents mls view nowMs) =
        stepEntries (viewChanges (view engine.storage.live.mls)
          (view (convergeStoredOpenmlsMessages mls engine nowMs).2.storage.live.mls))
          (singleAcceptedCommitId result) result.rolledBackCommits := by
  by_cases stopped : engine.epochState.isUnrecoverable
  · have halted : convergeStoredOpenmlsMessages mls engine nowMs =
        (.ok (unrecoverableResult engine.epochState.epoch), engine) := by
      rw [convergeStoredOpenmlsMessages, if_pos stopped]
    rw [Engine.passEvents, halted]
    exact .inl ⟨if_pos (.inl stopped), rfl⟩
  have effect := sound.storage.converge_cases laws nowMs
  rw [Engine.passEvents]
  generalize (convergeStoredOpenmlsMessages mls engine nowMs).1 = reported at effect
  generalize (convergeStoredOpenmlsMessages mls engine nowMs).2 = after at effect
  generalize engine.passObservations mls nowMs = observed at effect
  -- a pass that does not move the group reports nothing but rollbacks
  have unmoved : ∀ result, after.storage.live.mls = engine.storage.live.mls →
      engine.reports view observed after (.ok result) = [] ∨
        ledger (engine.reports view observed after (.ok result)) =
          stepEntries (viewChanges (view engine.storage.live.mls) (view after.storage.live.mls))
            (singleAcceptedCommitId result) result.rolledBackCommits := by
    intro result same
    rw [Engine.reports]
    split_ifs
    · exact .inl rfl
    · exact .inr (ledger_appliedEvents fun _ => by rw [same])
  cases effect with
  | halted halted => exact absurd halted stopped
  | refused => exact .inl ⟨rfl, rfl⟩
  | waiting decided busy => exact .inl ⟨if_pos (.inr (.inl busy)), rfl⟩
  | @lost result decided historical missing =>
    exact (unmoved result rfl).imp (fun nothing => ⟨nothing, rfl⟩) fun step => ⟨result, rfl, step⟩
  | failed decision quiet same =>
    refine .inl ⟨rfl, ?_⟩
    obtain rfl | rfl := same
    · rfl
    · rfl
  | @idle result group decision quiet none =>
    exact (unmoved result rfl).imp (fun nothing => ⟨nothing, rfl⟩) fun step => ⟨result, rfl, step⟩
  | @moved result group tip start path before after output decision quiet selected ended accepted
      reached proposals applications begins replayed delivers =>
    refine .inr ⟨result, rfl, ?_⟩
    rw [Engine.reports, if_neg]
    · refine ledger_appliedEvents fun none => ?_
      rw [selected] at none
      cases none
    · rw [quiet]
      simp [stopped, decision.outcome.unblocked]

variable (mls view engine) in
/-- **No change of a commit that a pass rolls back holds before and after the pass**, and the commit
that a pass accepts is not among those it rolls back. -/
def Engine.Undoes (steps : List EngineStep) : Prop :=
  EveryStep (fun done step => ∀ nowMs result, step = .converge nowMs →
    (convergeStoredOpenmlsMessages mls (engine.run mls done) nowMs).1 = .ok result →
    (∀ commit ∈ singleAcceptedCommitId result, commit ∉ result.rolledBackCommits) ∧
    ∀ key value commit, .change key value (some commit) ∈ ledger (engine.stateEvents mls view done) →
      commit ∈ result.rolledBackCommits →
      (view (engine.run mls done).storage.live.mls).holds key = value →
      (view (engine.run mls (done ++ [step])).storage.live.mls).holds key ≠ value) steps

theorem Engine.Undoes.arrival {done : List EngineStep} {message : TransportMessage} {nowMs : Nat}
    (undoes : engine.Undoes mls view done) : engine.Undoes mls view (done ++ [.buffer message nowMs]) :=
  everyStep_append_iff.mpr ⟨undoes, fun _ _ isPass => by cases isPass⟩

/-- A pass with what it accepts and rolls back. -/
theorem Engine.Undoes.pass {done : List EngineStep} {nowMs : Nat}
    (undoes : engine.Undoes mls view done) (accepted : Option String) (rolledBack : List String)
    (reported : (convergeStoredOpenmlsMessages mls (engine.run mls done) nowMs).1.toOption.map
      (fun result => (singleAcceptedCommitId result, result.rolledBackCommits)) =
        some (accepted, rolledBack))
    (stays : ∀ commit ∈ accepted, commit ∉ rolledBack)
    (undone : ∀ key value commit,
      .change key value (some commit) ∈ ledger (engine.stateEvents mls view done) →
      commit ∈ rolledBack → (view (engine.run mls done).storage.live.mls).holds key = value →
      (view (engine.run mls (done ++ [.converge nowMs])).storage.live.mls).holds key ≠ value) :
    engine.Undoes mls view (done ++ [.converge nowMs]) := by
  refine everyStep_append_iff.mpr ⟨undoes, fun _ result isPass ended => ?_⟩
  cases isPass
  rw [ended] at reported
  obtain ⟨rfl, rfl⟩ := Prod.mk.inj (Option.some.inj reported)
  exact ⟨stays, undone⟩

/-- A step of a run of passes: a message arrives, or a pass runs. -/
def EngineStep.isPassing : EngineStep → Bool
  | .buffer _ _ => true
  | .converge _ => true
  | .publish _ _ _ _ => false

/-- **The changes that are left tell the members and admins**: after a join, in every run of arriving
messages and convergence passes whose rollbacks undo what they withdraw, the state changes without
those whose commit was rolled back later lead from the members and admins at the join to those of the
group. -/
theorem state_log_coherent (laws : mls.PublishLaws) (view : Group → GroupView) {epoch : Nat}
    (joined : FreshlyJoined mls engine epoch) (steps : List EngineStep)
    (passing : ∀ step ∈ steps, step.isPassing) (undoes : engine.Undoes mls view steps) :
    settle (view engine.storage.live.mls).holds
        (standing (ledger (engine.stateEvents mls view steps))) =
      (view (engine.run mls steps).storage.live.mls).holds := by
  induction steps using reverseRecOn with
  | nil => rfl
  | append_singleton steps step ih =>
    obtain ⟨earlier, last⟩ := everyStep_append_iff.mp undoes
    have coherent := ih (fun step listed => passing step (mem_append_left _ listed)) earlier
    have sound := (run_sound laws joined.sound steps).1
    rw [stateEvents_concat, ledger_append]
    rw [run_append] at last ⊢
    cases step with
    | buffer message nowMs =>
      have same : ((engine.run mls steps).step mls (.buffer message nowMs)).storage.live.mls =
          (engine.run mls steps).storage.live.mls := by
        rw [Engine.step]
        cases buffered : bufferOpenmlsConvergenceMessage mls (engine.run mls steps) message nowMs with
        | error e => rfl
        | ok next =>
          obtain rfl | ⟨_, _, _, _, rfl⟩ := buffer_cases buffered
          · rfl
          · rfl
      rw [same, ← coherent]
      exact congrArg (fun entries => settle _ (standing entries)) (append_nil _)
    | converge nowMs =>
      obtain ⟨nothing, same⟩ | ⟨result, reported, entries⟩ :=
        passEvents_cases view laws.toEpochLaws sound nowMs
      · have unmoved : ((engine.run mls steps).step mls (.converge nowMs)).storage.live.mls =
            (engine.run mls steps).storage.live.mls := same
        rw [Engine.stepEvents, nothing, unmoved, ← coherent]
        exact congrArg (fun entries => settle _ (standing entries)) (append_nil _)
      · obtain ⟨stays, undone⟩ := last nowMs result rfl reported
        rw [Engine.stepEvents, entries]
        exact settle_extend coherent mem_viewChanges stays undone
    | publish =>
      cases passing _ (mem_append_right _ (mem_singleton.mpr rfl))

end Coherence

/-! ### Two branches with the same change -/

/-- Every commit adds the member `9` to the founder `1`. -/
def sampleView (group : SymbolicGroup) : GroupView where
  members := if group = [] then [[1]] else [[1], [9]]
  admins := [[1]]
  name := "group"
  avatar := []
  messageRetention := none

/-- **The losing and the winning branch add the same member.** The commit 2 adds the member and is
applied; then the commit 1 of the same epoch takes its place and adds the member too. The second pass
reports no change but rolls the commit 2 back, and the log without its change has lost the member. -/
theorem same_change_forgotten :
    let steps := [bufferSymbolicCommit 2 [], .converge 1000, bufferSymbolicCommit 1 [],
      .converge 5000]
    (symbolicEngine []).stateEvents (symbolicMls []) sampleView steps =
      [.groupStateChanged 1 none (.memberAdded [9]) (some "0002"), .commitRolledBack "0002"] ∧
    settle (sampleView (symbolicEngine []).storage.live.mls).holds
      (standing (ledger ((symbolicEngine []).stateEvents (symbolicMls []) sampleView steps)))
        (.member, [9]) = false ∧
    (sampleView ((symbolicEngine []).run (symbolicMls []) steps).storage.live.mls).holds
      (.member, [9]) = true ∧
    ∀ step ∈ steps, step.isPassing := by
  decide +kernel

/-- Every commit adds a member of its own to the founder `0`. -/
def rosterView (group : SymbolicGroup) : GroupView where
  members := [0] :: group.map fun name => [name]
  admins := [[0]]
  name := "group"
  avatar := []
  messageRetention := none

/-- The commit 2 is applied, and then the commit 1 of the same epoch takes its place. -/
def replacingSteps : List EngineStep :=
  [bufferSymbolicCommit 2 [], .converge 1000, bufferSymbolicCommit 1 [], .converge 5000]

/-- The log without the commit that was rolled back tells the members. -/
theorem replaced_member_withdrawn :
    (symbolicEngine []).stateEvents (symbolicMls []) rosterView replacingSteps =
      [.groupStateChanged 1 none (.memberAdded [2]) (some "0002"),
        .groupStateChanged 1 none (.memberAdded [1]) (some "0001"),
        .groupStateChanged 1 none (.memberRemoved [2]) (some "0001"), .commitRolledBack "0002"] ∧
    settle (rosterView (symbolicEngine []).storage.live.mls).holds
        (standing (ledger ((symbolicEngine []).stateEvents (symbolicMls []) rosterView
          replacingSteps))) =
      (rosterView ((symbolicEngine []).run (symbolicMls []) replacingSteps).storage.live.mls).holds := by
  refine ⟨by decide +kernel, state_log_coherent (symbolicMls_publishLaws []) rosterView
    (symbolicEngine_freshlyJoined []) replacingSteps (by decide) ?_⟩
  have first : (symbolicEngine []).Undoes (symbolicMls []) rosterView (replacingSteps.take 2) :=
    .pass (.arrival everyStep_nil) (some "0002") [] (by decide +kernel) (by decide)
      fun _ _ _ _ isRolledBack => absurd isRolledBack not_mem_nil
  refine .pass (.arrival first) (some "0001") ["0002"] (by decide +kernel) (by decide) ?_
  intro key value commit logged _ _
  have log : ledger ((symbolicEngine []).stateEvents (symbolicMls []) rosterView
      (replacingSteps.take 3)) = [.change (.member, [2]) true (some "0002")] := by decide +kernel
  change _ ∈ ledger ((symbolicEngine []).stateEvents (symbolicMls []) rosterView
    (replacingSteps.take 3)) at logged
  rw [log] at logged
  cases mem_singleton.mp logged
  decide +kernel

end Darkmatter
