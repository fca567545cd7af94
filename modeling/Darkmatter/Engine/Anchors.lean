/-
**Which anchors a group keeps.**

A group retains an anchor when a path is applied on its current epoch and when a path has been
applied, and prunes what lies too deep below. So it keeps anchors of the epochs its tip has been at
between steps, and of no others: a pass that applies several commits leaves no anchor of the epochs
in between.

* `run_keeps` — the anchors of a run are the ones that a history of bounded depth keeps of the tips
  of the run;
* `anchors_cover` — **runs whose tips rise by single epochs keep every anchor of the rewind horizon**;
* `anchors_found_iff` — **no pass of a run misses an anchor exactly when every pass starts from a tip
  of the run that is still in reach of all of its tips**.
-/

import Darkmatter.Engine.Step
import Darkmatter.Lib.Window

namespace Darkmatter

open Std Lib List Option

section Anchors

variable {Group : Type} (mls : OpenMls Group) (engine : Engine Group)

/-! ### Tips -/

def Engine.visited (steps : List EngineStep) : Set Nat :=
  {tip | ∃ done, done <+: steps ∧ (engine.run mls done).storage.live.epoch = tip}

/-- A group that was just joined: its only anchor is the state it was joined at. -/
structure FreshlyJoined (epoch : Nat) : Prop where
  sound : engine.Sound mls
  tip : engine.storage.live.epoch = epoch
  running : engine.epochState = .stable epoch
  anchor : engine.storage.anchor epoch = some engine.storage.live
  only : ∀ other, other ≠ epoch → engine.storage.anchor other = none

/-- The engine right after the group was joined. -/
def Engine.joined (groupId : String) (policy : CanonicalizationPolicy) (group : Group) :
    Engine Group where
  groupId
  policy
  storage :=
    { live := ⟨group, mls.epoch group, [], []⟩
      snapshots := fun name =>
        if name = .retainedAnchor (mls.epoch group) then some ⟨group, mls.epoch group, [], []⟩
        else none }
  otherRows := []
  epochState := .stable (mls.epoch group)
  committedFrom := []
  pendingCommit := none
  incumbents := []
  snapshotCounter := 0
  lastConvergenceRelevantInputMs := none
  seenMessageIds := .withCapacity _
  sentMessageIds := .withCapacity _
  events := []

/-- The anchors are the tips a history of bounded depth keeps. -/
structure Engine.Keeps (visited : Set Nat) : Prop where
  anchors : ∀ epoch, (engine.storage.anchor epoch).isSome ↔
    epoch ∈ kept visited engine.policy.convergence.maxRewindCommits
  tip : engine.storage.live.epoch ∈ visited
  near : ∀ other ∈ visited,
    other ≤ engine.storage.live.epoch + engine.policy.convergence.maxRewindCommits

variable {mls engine}

theorem joined_freshlyJoined (groupId : String) (policy : CanonicalizationPolicy) (group : Group) :
    FreshlyJoined mls (Engine.joined mls groupId policy group) (mls.epoch group) where
  sound :=
    { storage :=
        { rows := ⟨fun _ member => absurd member not_mem_nil, nodup_nil⟩
          timely := fun _ member => absurd member not_mem_nil
          epoch := rfl
          anchors := by
            intro _ _ anchored
            simp only [GroupStorage.anchor, Engine.joined, SnapshotName.retainedAnchor.injEq]
              at anchored
            split_ifs at anchored with here
            cases anchored
            exact ⟨here.symm, here.symm, prefix_rfl⟩ }
      tip := rfl
      recovery := fun _ member => absurd member not_mem_nil }
  tip := rfl
  running := rfl
  anchor := if_pos rfl
  only := by
    intro _ differs
    simp only [GroupStorage.anchor, Engine.joined, SnapshotName.retainedAnchor.injEq]
    exact if_neg differs

theorem visited_nil : engine.visited mls [] = {engine.storage.live.epoch} := by
  ext tip
  simp only [Engine.visited, prefix_nil, exists_eq_left, Set.mem_ofPred_eq, Set.mem_singleton_iff]
  exact eq_comm

theorem visited_append (steps : List EngineStep) (step : EngineStep) :
    engine.visited mls (steps ++ [step]) =
      insert (engine.run mls (steps ++ [step])).storage.live.epoch (engine.visited mls steps) := by
  ext tip
  simp only [Engine.visited, prefix_concat_iff, Set.mem_ofPred_eq, Set.mem_insert_iff]
  constructor
  · rintro ⟨done, rfl | earlier, rfl⟩
    · exact Or.inl rfl
    · exact Or.inr ⟨done, earlier, rfl⟩
  · rintro (rfl | ⟨done, earlier, rfl⟩)
    · exact ⟨_, Or.inl rfl, rfl⟩
    · exact ⟨done, Or.inr earlier, rfl⟩

/-! ### The anchors of a run -/

variable {epoch : Nat} {after : Engine Group} {nowMs : Nat}
  {reported : Except OpenMlsProjectionError CanonicalizationResult}
  {observed : List OpenMlsReplayObservation}

theorem FreshlyJoined.keeps (fresh : FreshlyJoined mls engine epoch) : engine.Keeps {epoch} where
  anchors := by
    intro other
    by_cases here : other = epoch
    · rw [here, fresh.anchor]
      exact ⟨fun _ => ⟨rfl, fun _ only => only ▸ Nat.le_add_right _ _⟩, fun _ => rfl⟩
    · rw [fresh.only other here]
      exact ⟨nofun, fun member => absurd member.1 here⟩
  tip := fresh.tip
  near := by
    rintro _ rfl
    rw [fresh.tip]
    exact Nat.le_add_right _ _

theorem Engine.Keeps.low {visited : Set Nat} (keeps : engine.Keeps visited) (laws : mls.EpochLaws)
    (sound : engine.Sound mls) (effect : StepEffect mls engine after) :
    ∃ start ∈ kept visited engine.policy.convergence.maxRewindCommits,
      start ≤ after.storage.live.epoch := by
  have tipKept : engine.storage.live.epoch ∈
      kept visited engine.policy.convergence.maxRewindCommits := ⟨keeps.tip, keeps.near⟩
  cases effect.storage with
  | rows group epoch => exact ⟨_, tipKept, epoch.ge⟩
  | retained live => exact ⟨_, tipKept, by rw [live]⟩
  | @moved start group left starts advances epoch =>
    refine ⟨start, ?_, ?_⟩
    · rcases starts with ⟨rfl, _⟩ | ⟨_, _, anchored, _⟩
      · exact tipKept
      · exact (keeps.anchors start).mp (by rw [anchored]; rfl)
    · rw [epoch, ← (sound.storage.start_epoch starts).1]
      exact (advances.epoch_lt laws).le

/-- **A step keeps the anchors of the tips.** -/
theorem Engine.Keeps.step {visited : Set Nat} (keeps : engine.Keeps visited) (laws : mls.EpochLaws)
    (sound : engine.Sound mls) (effect : StepEffect mls engine after) :
    after.Keeps (insert after.storage.live.epoch visited) := by
  -- A tip that was visited before adds nothing.
  have again : ∀ {tip}, tip ∈ visited → insert tip visited = visited := Set.insert_eq_of_mem
  have tipKept : engine.storage.live.epoch ∈
      kept visited engine.policy.convergence.maxRewindCommits := ⟨keeps.tip, keeps.near⟩
  -- What the new tip reaches, the kept one below it reaches as well.
  have near : ∀ other ∈ visited, other ≤
      after.storage.live.epoch + engine.policy.convergence.maxRewindCommits := by
    obtain ⟨_, startKept, _⟩ := keeps.low laws sound effect
    intro other visit
    have reach := startKept.2 other visit
    omega
  obtain ⟨storage, policy, _, _⟩ := effect
  cases storage with
  | rows group epoch grown rows timely anchors =>
    rw [epoch, again keeps.tip]
    refine ⟨fun e => ?_, epoch ▸ keeps.tip, by rw [epoch, policy]; exact keeps.near⟩
    rw [anchors, policy]
    exact keeps.anchors e
  | retained live anchors =>
    rw [live, again keeps.tip]
    refine ⟨fun e => ?_, live ▸ keeps.tip, by rw [live, policy]; exact keeps.near⟩
    rw [anchors, policy, anchor_retain]
    split_ifs with pruned here
    · refine ⟨nofun, fun member => ?_⟩
      have reach := member.2 _ keeps.tip
      omega
    · exact ⟨fun _ => here ▸ tipKept, fun _ => rfl⟩
    · exact keeps.anchors e
  | moved starts advances epoch grown rows timely leftLive anchors =>
    refine ⟨fun e => ?_, Set.mem_insert _ _, ?_⟩
    · rw [policy, mem_kept_insert near, anchors]
      split_ifs with pruned here leaves
      · refine ⟨nofun, fun member => ?_⟩
        omega
      · exact ⟨fun _ => ⟨by omega, Or.inl here⟩, fun _ => rfl⟩
      · exact ⟨fun _ => ⟨by omega, Or.inr (leaves.2 ▸ tipKept)⟩, fun _ => rfl⟩
      · rw [keeps.anchors]
        exact ⟨fun member => ⟨by omega, Or.inr member⟩, fun member => member.2.resolve_left here⟩
    · rw [policy]
      rintro other (rfl | old)
      · exact Nat.le_add_right _ _
      · exact near other old

/-- **The anchors of a run.** -/
theorem run_keeps (laws : mls.PublishLaws) (fresh : FreshlyJoined mls engine epoch)
    (steps : List EngineStep) : (engine.run mls steps).Keeps (engine.visited mls steps) := by
  induction steps using reverseRecOn with
  | nil =>
    rw [visited_nil, fresh.tip]
    exact fresh.keeps
  | append_singleton steps step ih =>
    have sound := (run_sound laws fresh.sound steps).1
    rw [visited_append, run_append]
    exact ih.step laws.toEpochLaws sound (step_effect laws sound step)

variable {joined : Nat}

/-- No tip of a run lies below the epoch the group was joined at. -/
theorem joined_le_visited (laws : mls.PublishLaws)
    (fresh : FreshlyJoined mls engine joined) (steps : List EngineStep) :
    ∀ tip ∈ engine.visited mls steps, joined ≤ tip := by
  induction steps using reverseRecOn with
  | nil =>
    rw [visited_nil, fresh.tip]
    rintro tip rfl
    exact le_rfl
  | append_singleton steps step ih =>
    have sound := (run_sound laws fresh.sound steps).1
    obtain ⟨start, startKept, low⟩ :=
      (run_keeps laws fresh steps).low laws.toEpochLaws sound (step_effect laws sound step)
    rw [visited_append, run_append]
    rintro tip (rfl | old)
    · exact (ih start startKept.1).trans low
    · exact ih tip old

/-! ### Coverage -/

variable (mls engine) in
/-- The tip a step is about to move the group to, if it moves it. -/
def Engine.aim : EngineStep → Option Nat
  | .buffer .. => none
  | .converge nowMs =>
    match engine.decide mls nowMs with
    | .ok result => if result.convergenceStatus = .settled then result.selectedTip else none
    | .error _ => none
  | .publish .. => some (engine.storage.live.epoch + 1)

variable (mls engine) in
/-- A step of a run goes at most one epoch above the tips so far, and falls below one of them only as
long as the epoch the group was joined at is in reach of all of them. -/
def Engine.Rises (joined : Nat) (done : List EngineStep) (step : EngineStep) : Prop :=
  ∀ tip, (engine.run mls done).aim mls step = some tip →
    (∃ reached ∈ engine.visited mls done, tip ≤ reached + 1) ∧
      ((∀ reached ∈ engine.visited mls done, reached ≤ tip) ∨
        ∀ reached ∈ engine.visited mls done,
          reached ≤ joined + engine.policy.convergence.maxRewindCommits)

variable (mls engine) in
/-- A run whose tips rise by single epochs. -/
def Engine.Gradual (joined : Nat) (steps : List EngineStep) : Prop :=
  EveryStep (engine.Rises mls joined) steps

theorem aim_eq_selected {group : Group} {result : CanonicalizationResult}
    (decision : engine.Decided mls nowMs group result) (quiet : result.convergenceStatus = .settled) :
    engine.aim mls (.converge nowMs) = result.selectedTip := by
  rw [Engine.aim, decision.decided]
  simp only [quiet, if_true]

theorem pass_aim (laws : mls.EpochLaws) (sound : engine.Sound mls)
    (effect : PassEffect mls engine nowMs reported observed after) :
    after.storage.live.epoch = engine.storage.live.epoch ∨
      engine.aim mls (.converge nowMs) = some after.storage.live.epoch := by
  have tip := (pass_effect laws sound effect).tip
  cases effect with
  | halted | refused | waiting | lost | idle => exact Or.inl rfl
  | failed decision quiet same =>
    rcases same with rfl | rfl
    · exact Or.inl rfl
    · exact Or.inl rfl
  | moved decision quiet selected =>
    simp only [Engine.applied, selected, map_some, getD_some] at tip
    exact Or.inr ((aim_eq_selected decision quiet).trans (selected.trans (congrArg some tip)))

theorem step_aim (laws : mls.PublishLaws) (sound : engine.Sound mls) (step : EngineStep) :
    (engine.step mls step).storage.live.epoch = engine.storage.live.epoch ∨
      engine.aim mls step = some (engine.step mls step).storage.live.epoch := by
  cases step with
  | buffer message nowMs =>
    obtain ⟨_, _, _, buffered⟩ := @step_buffer _ mls engine message nowMs
    rw [buffered]
    exact Or.inl rfl
  | converge nowMs =>
    exact pass_aim laws.toEpochLaws sound (sound.storage.converge_cases laws.toEpochLaws nowMs)
  | publish message mlsBytes priority committer =>
    rw [Engine.step]
    cases published : (stageCommit mls engine message mlsBytes priority committer).bind
        (confirmPublished mls) with
    | none => exact Or.inl rfl
    | some after =>
      obtain ⟨effect, merged, _⟩ := publish_effect laws sound published
      have after_epoch := (effect.sound sound).storage.epoch
      have next := laws.pendingMerged merged
      rw [Engine.aim, getD_some, after_epoch, next, sound.storage.epoch]
      exact Or.inr rfl

/-- **The tips of a gradual run leave no gap.** -/
theorem Engine.Gradual.visited (laws : mls.PublishLaws) (fresh : FreshlyJoined mls engine joined)
    {steps : List EngineStep} (gradual : engine.Gradual mls joined steps) :
    ∃ top, engine.visited mls steps = Set.Icc joined top ∧
      (top ≤ (engine.run mls steps).storage.live.epoch ∨
        top ≤ joined + engine.policy.convergence.maxRewindCommits) := by
  induction steps using reverseRecOn with
  | nil =>
    refine ⟨joined, ?_, Or.inl fresh.tip.ge⟩
    rw [visited_nil, fresh.tip, Set.Icc_self]
  | append_singleton steps step ih =>
    obtain ⟨earlier, rises⟩ := everyStep_append_iff.mp gradual
    obtain ⟨top, interval, reach⟩ := ih earlier
    have sound := (run_sound laws fresh.sound steps).1
    have keeps := run_keeps laws fresh steps
    have tip := keeps.tip
    obtain ⟨_, startKept, _⟩ := keeps.low laws.toEpochLaws sound (step_effect laws sound step)
    have startTip := startKept.1
    rw [visited_append, run_append]
    rw [interval, Set.mem_Icc] at tip startTip
    rcases step_aim laws sound step with same | aimed
    · refine ⟨top, ?_, same ▸ reach⟩
      rw [same, interval, Set.insert_eq_of_mem (Set.mem_Icc.mpr tip)]
    · obtain ⟨⟨_, visit, _⟩, falls⟩ := rises _ aimed
      rw [interval, Set.mem_Icc] at visit
      refine ⟨_, interval ▸ insert_Icc (by omega) (by omega), ?_⟩
      rcases falls with above | shallow
      · have highest := above top (by rw [interval, Set.mem_Icc]; omega)
        exact Or.inl (by omega)
      · have highest := shallow top (by rw [interval, Set.mem_Icc]; omega)
        omega

/-- **Retained anchors cover the rewind horizon** in every run without rewind, and in every gradual
run. -/
theorem anchors_cover (laws : mls.PublishLaws)
    (fresh : FreshlyJoined mls engine joined) (steps : List EngineStep)
    (gradual : engine.policy.convergence.maxRewindCommits = 0 ∨ engine.Gradual mls joined steps)
    (epoch : Nat) (sinceJoined : joined ≤ epoch)
    (inHorizon : (engine.run mls steps).storage.live.epoch -
      engine.policy.convergence.maxRewindCommits ≤ epoch)
    (upToTip : epoch ≤ (engine.run mls steps).storage.live.epoch) :
    ((engine.run mls steps).storage.anchor epoch).isSome := by
  have keeps := run_keeps laws fresh steps
  have policy := (run_sound laws fresh.sound steps).2
  rw [keeps.anchors, policy]
  have near := keeps.near
  rw [policy] at near
  rcases gradual with shallow | gradual
  · rw [shallow] at near inHorizon ⊢
    exact covers_zero keeps.tip near epoch sinceJoined inHorizon upToTip
  · obtain ⟨top, interval, reach⟩ := gradual.visited laws fresh
    have tip := keeps.tip
    rw [interval] at tip near ⊢
    have highest := near top (Set.mem_Icc.mpr ⟨(Set.mem_Icc.mp tip).1.trans (Set.mem_Icc.mp tip).2,
      le_rfl⟩)
    exact (covers_Icc_iff tip highest).mpr reach epoch sinceJoined inHorizon upToTip

/-! ### Missing anchors -/

variable (mls engine) in
/-- The epoch of the oldest unresolved commit below the tip. -/
def Engine.oldestUnresolved : Option Nat :=
  historicalReplayStartEpoch (engine.storage.storedCommits mls engine.horizon)
    engine.storage.live.epoch

theorem passStart_eq : engine.passStart mls =
    (engine.oldestUnresolved mls).getD engine.storage.live.epoch := rfl

theorem oldestUnresolved_of_lt (historical : engine.passStart mls < engine.storage.live.epoch) :
    engine.oldestUnresolved mls = some (engine.passStart mls) := by
  rw [passStart_eq] at historical ⊢
  cases oldest : engine.oldestUnresolved mls with
  | none => rw [oldest, getD_none] at historical; exact absurd historical (lt_irrefl _)
  | some => rfl

theorem passStart_of_oldest {start : Nat} (oldest : engine.oldestUnresolved mls = some start) :
    engine.passStart mls = start ∧ start < engine.storage.live.epoch := by
  rw [passStart_eq, oldest]
  exact ⟨rfl, historicalReplayStartEpoch_lt oldest⟩

/-- A pass that misses its anchor says so. -/
theorem decide_missing (sound : SoundRows mls engine.storage.live.messages)
    (valid : engine.policy.validate = .ok ()) (nowMs : Nat)
    (historical : engine.passStart mls < engine.storage.live.epoch)
    (missing : engine.storage.anchor (engine.passStart mls) = none) :
    ∃ result, engine.decide mls nowMs = .ok result ∧
      CanonicalizationError.missingRetainedAnchor ∈ result.errors := by
  refine ⟨(missingRetainedAnchorResult engine.canonicalizationState [] engine.policy
    nowMs).appendDroppedMessages (mls.collected engine.horizon
      engine.storage.live.messages).staleCommitDrops, ?_, mem_singleton.mpr rfl⟩
  have start : (historicalReplayStartEpoch
      (mls.collected engine.canonicalizationState.retainedAnchorEpoch
        engine.storage.live.messages).commitMessages engine.storage.live.epoch).getD
          engine.storage.live.epoch = engine.passStart mls := rfl
  rw [Engine.decide, valid, OpenMls.canonicalizeStoredOpenmlsMessages]
  simp only [collect_eq sound.stored, nil_append, start, historical, if_true,
    OpenMls.canonicalizeStoredOpenmlsMessagesFromRetainedAnchor, missing]
  rfl

/-- An unresolved commit that a pass does not accept stays unresolved or is dropped. -/
def CommitsSettle (reported : Except OpenMlsProjectionError CanonicalizationResult)
    (before after : List MessageRecord) : Prop :=
  ∀ record ∈ before, unresolvedCommitState record.state →
    ∃ state, { record with state } ∈ after ∧
      (unresolvedCommitState state ∨ state = .failed ∨ state = .epochInvalidated ∨
        state = .processed ∧ ∃ result, reported = .ok result ∧ record.id ∈ result.acceptedIds)

variable (engine) in
/-- **A pass that misses no anchor**: it says nothing of one, the group goes on, and commits that do
not replay are deferred or dropped. -/
structure Engine.Undisturbed (reported : Except OpenMlsProjectionError CanonicalizationResult)
    (after : Engine Group) : Prop where
  found : ∀ result, reported = .ok result →
    CanonicalizationError.missingRetainedAnchor ∉ result.errors
  running : after.epochState.isUnrecoverable = false
  commits : CommitsSettle reported engine.storage.live.messages after.storage.live.messages

theorem commitsSettle_refl (records : List MessageRecord) :
    CommitsSettle reported records records :=
  fun record member unresolved => ⟨record.state, member, Or.inl unresolved⟩

theorem commitsSettle_settledRows (result : CanonicalizationResult) (records : List MessageRecord) :
    CommitsSettle (.ok result) records (result.settledRows records) := by
  intro record member unresolved
  refine ⟨result.stateByMessageId[record.id]?.getD record.state, mem_map_of_mem member, ?_⟩
  cases known : result.stateByMessageId[record.id]? with
  | none => exact Or.inl unresolved
  | some =>
    rw [getD_some]
    rcases stateByMessageId_cases known with ⟨processed, accepted⟩ | failed | invalidated | rfl
    · exact Or.inr (Or.inr (Or.inr ⟨processed, result, rfl, accepted⟩))
    · exact Or.inr (Or.inl failed)
    · exact Or.inr (Or.inr (Or.inl invalidated))
    · exact Or.inl rfl

theorem undisturbed_of_anchored (laws : mls.EpochLaws) (sound : engine.Sound mls)
    (running : engine.epochState.isUnrecoverable = false)
    (anchored : ∀ start, engine.oldestUnresolved mls = some start →
      (engine.storage.anchor start).isSome)
    (effect : PassEffect mls engine nowMs reported observed after) :
    engine.Undisturbed reported after := by
  have found : engine.passStart mls < engine.storage.live.epoch →
      engine.storage.anchor (engine.passStart mls) ≠ none := by
    intro historical missing
    have here := anchored _ (oldestUnresolved_of_lt historical)
    rw [missing] at here
    cases here
  have decides : ∀ {result}, engine.decide mls nowMs = .ok result →
      ∀ result', (.ok result : Except OpenMlsProjectionError CanonicalizationResult) = .ok result' →
        CanonicalizationError.missingRetainedAnchor ∉ result'.errors := by
    rintro _ decided _ ⟨⟩
    rcases decide_cases laws sound.storage.rows decided with ⟨historical, missing, _⟩ |
      ⟨group, decision⟩
    · exact absurd missing (found historical)
    · exact decision.outcome.unblocked
  cases effect with
  | halted stopped => rw [running] at stopped; cases stopped
  | refused => exact ⟨nofun, running, commitsSettle_refl _⟩
  | waiting decided => exact ⟨decides decided, running, commitsSettle_refl _⟩
  | lost decided historical missing => exact absurd missing (found historical)
  | failed decision quiet kept =>
    rcases kept with rfl | rfl
    · exact ⟨nofun, running, commitsSettle_refl _⟩
    · exact ⟨nofun, running, commitsSettle_refl _⟩
  | idle decision quiet none =>
    refine ⟨decides decision.decided, ?_, commitsSettle_settledRows _ _⟩
    simp only [Engine.applied, none, map_none, getD_none, running]
  | moved decision quiet selected =>
    refine ⟨decides decision.decided, ?_, ?_⟩
    · simp only [Engine.applied, selected, map_some, getD_some]
      rfl
    · show CommitsSettle _ _ (engine.storage.replayed mls _ _ _).messages
      rw [sound.storage.replayed_messages]
      exact commitsSettle_settledRows _ _

theorem anchored_of_undisturbed (sound : engine.Sound mls) (valid : engine.policy.validate = .ok ())
    (undisturbed : engine.Undisturbed (convergeStoredOpenmlsMessages mls engine nowMs).1
      (convergeStoredOpenmlsMessages mls engine nowMs).2) (start : Nat)
    (oldest : engine.oldestUnresolved mls = some start) : (engine.storage.anchor start).isSome := by
  obtain ⟨rfl, historical⟩ := passStart_of_oldest oldest
  by_contra missing
  rw [not_isSome_iff_eq_none] at missing
  have running : ¬ engine.epochState.isUnrecoverable := by
    intro stopped
    refine undisturbed.found (unrecoverableResult engine.epochState.epoch) ?_
      (mem_singleton.mpr rfl)
    rw [convergeStoredOpenmlsMessages, if_pos stopped]
  obtain ⟨result, decided, errors⟩ := decide_missing sound.storage.rows valid nowMs historical missing
  refine undisturbed.found result ?_ errors
  rw [convergeStoredOpenmlsMessages, if_neg running]
  simp only [decided]
  split_ifs <;> rfl

/-- Only a pass stops a group. -/
theorem step_running (laws : mls.PublishLaws) (sound : engine.Sound mls) {step : EngineStep}
    (running : engine.epochState.isUnrecoverable = false)
    (passes : ∀ nowMs, step = .converge nowMs →
      (convergeStoredOpenmlsMessages mls engine nowMs).2.epochState.isUnrecoverable = false) :
    (engine.step mls step).epochState.isUnrecoverable = false := by
  cases step with
  | buffer message nowMs =>
    obtain ⟨_, _, _, buffered⟩ := @step_buffer _ mls engine message nowMs
    rw [buffered]
    exact running
  | converge nowMs => exact passes nowMs rfl
  | publish message mlsBytes priority committer =>
    rw [Engine.step]
    cases published : (stageCommit mls engine message mlsBytes priority committer).bind
        (confirmPublished mls) with
    | none => exact running
    | some after =>
      rw [getD_some, (publish_effect laws sound published).2.2]
      rfl

/-- **No pass of a run misses an anchor** exactly when the oldest unresolved commit below the tip, if
there is one, was always made at a tip of the run that is in reach of all tips of the run. -/
theorem anchors_found_iff (laws : mls.PublishLaws) {joined : Nat}
    (fresh : FreshlyJoined mls engine joined) (valid : engine.policy.validate = .ok ())
    (steps : List EngineStep) :
    (∀ done nowMs, done ++ [.converge nowMs] <+: steps →
      (engine.run mls done).Undisturbed
        (convergeStoredOpenmlsMessages mls (engine.run mls done) nowMs).1
        (convergeStoredOpenmlsMessages mls (engine.run mls done) nowMs).2) ↔
    ∀ done nowMs, done ++ [.converge nowMs] <+: steps →
      ∀ start, (engine.run mls done).oldestUnresolved mls = some start →
        start ∈ engine.visited mls done ∧ ∀ tip ∈ engine.visited mls done,
          tip ≤ start + engine.policy.convergence.maxRewindCommits := by
  have anchors : ∀ done start, ((engine.run mls done).storage.anchor start).isSome ↔
      start ∈ engine.visited mls done ∧ ∀ tip ∈ engine.visited mls done,
        tip ≤ start + engine.policy.convergence.maxRewindCommits := by
    intro done start
    rw [(run_keeps laws fresh done).anchors, (run_sound laws fresh.sound done).2]
    rfl
  constructor
  · intro undisturbed done nowMs earlier start oldest
    obtain ⟨sound, policy⟩ := run_sound laws fresh.sound done
    exact (anchors done start).mp (anchored_of_undisturbed sound (policy ▸ valid)
      (undisturbed done nowMs earlier) start oldest)
  · intro found
    -- Up to any point of the run the group is running, since no pass before it was disturbed.
    have running : ∀ done, done <+: steps →
        (engine.run mls done).epochState.isUnrecoverable = false := by
      intro done
      induction done using reverseRecOn with
      | nil =>
        intro _
        rw [Engine.run, foldl_nil, fresh.running]
        rfl
      | append_singleton done step ih =>
        intro earlier
        have before := ih ((prefix_append _ _).trans earlier)
        obtain ⟨sound, _⟩ := run_sound laws fresh.sound done
        rw [run_append]
        refine step_running laws sound before ?_
        rintro nowMs rfl
        refine (undisturbed_of_anchored laws.toEpochLaws sound before ?_
          (sound.storage.converge_cases laws.toEpochLaws nowMs)).running
        exact fun start oldest => (anchors done start).mpr (found done nowMs earlier start oldest)
    intro done nowMs earlier
    obtain ⟨sound, _⟩ := run_sound laws fresh.sound done
    refine undisturbed_of_anchored laws.toEpochLaws sound
      (running done ((prefix_append _ _).trans earlier)) ?_
      (sound.storage.converge_cases laws.toEpochLaws nowMs)
    exact fun start oldest => (anchors done start).mpr (found done nowMs earlier start oldest)

end Anchors

/-! ### Passes over several commits -/

/-- A commit of another client is buffered. -/
def bufferSymbolicCommit (name : UInt8) (state : SymbolicGroup) : EngineStep :=
  .buffer (symbolicMessage "" (0 :: name :: state)) 0

/-- A symbolic client that just joined. -/
def symbolicEngine (own : List UInt8) : Engine SymbolicGroup :=
  .joined (symbolicMls own) "group" .default []

theorem symbolicEngine_freshlyJoined (own : List UInt8) :
    FreshlyJoined (symbolicMls own) (symbolicEngine own) 0 :=
  joined_freshlyJoined _ _ _

/-- One pass over two commits moves the tip from 0 to 2, and no anchor of epoch 1 is kept. -/
theorem skipped_epoch_not_anchored :
    FreshlyJoined (symbolicMls []) (symbolicEngine []) 0 ∧
      ((symbolicEngine []).run (symbolicMls [])
        [bufferSymbolicCommit 1 [], bufferSymbolicCommit 2 [1],
          .converge 1000]).storage.live.epoch = 2 ∧
      (symbolicEngine []).policy.convergence.maxRewindCommits = 5 ∧
      (((symbolicEngine []).run (symbolicMls [])
        [bufferSymbolicCommit 1 [], bufferSymbolicCommit 2 [1],
          .converge 1000]).storage.anchor 1).isSome = false :=
  ⟨symbolicEngine_freshlyJoined [], by decide +kernel, rfl, by decide +kernel⟩

theorem visited_first_commit :
    (symbolicEngine []).visited (symbolicMls []) [bufferSymbolicCommit 1 []] = {0} := by
  rw [← nil_append [bufferSymbolicCommit 1 []], visited_append, visited_nil]
  exact Set.insert_eq_of_mem rfl

/-- A pass over one commit keeps the anchor below it. -/
theorem anchors_cover_single_commit :
    (((symbolicEngine []).run (symbolicMls [])
      [bufferSymbolicCommit 1 [], .converge 1000]).storage.anchor 0).isSome := by
  refine anchors_cover (symbolicMls_publishLaws []) (symbolicEngine_freshlyJoined [])
    ([bufferSymbolicCommit 1 []] ++ [.converge 1000]) (Or.inr ?_) 0 le_rfl (by decide +kernel)
    (by decide +kernel)
  have buffering : (symbolicEngine []).Gradual (symbolicMls []) 0 ([] ++ [bufferSymbolicCommit 1 []]) :=
    everyStep_append_iff.mpr ⟨everyStep_nil, fun tip aimed => by cases aimed⟩
  refine everyStep_append_iff.mpr ⟨buffering, fun tip aimed => ?_⟩
  have aim : ((symbolicEngine []).run (symbolicMls []) [bufferSymbolicCommit 1 []]).aim
      (symbolicMls []) (.converge 1000) = some 1 := by decide +kernel
  rw [aim] at aimed
  cases aimed
  rw [visited_first_commit]
  exact ⟨⟨0, rfl, le_rfl⟩, Or.inl fun reached visit => (Set.mem_singleton_iff.mp visit).le.trans
    (Nat.zero_le 1)⟩

/-- A commit whose parent never arrives is left unresolved by a pass over two other commits, and the
next pass misses the anchor of its epoch. -/
theorem orphan_stops_group :
    FreshlyJoined (symbolicMls []) (symbolicEngine []) 0 ∧
      (symbolicEngine []).policy.validate = .ok () ∧
      ((symbolicEngine []).run (symbolicMls [])
        [bufferSymbolicCommit 1 [], bufferSymbolicCommit 2 [1], bufferSymbolicCommit 9 [7],
          .converge 1000]).epochState = .stable 2 ∧
      ((convergeStoredOpenmlsMessages (symbolicMls []) ((symbolicEngine []).run (symbolicMls [])
        [bufferSymbolicCommit 1 [], bufferSymbolicCommit 2 [1], bufferSymbolicCommit 9 [7],
          .converge 1000]) 1000).1.toOption.map CanonicalizationResult.errors =
            some [.missingRetainedAnchor]) ∧
      ((symbolicEngine []).run (symbolicMls [])
        [bufferSymbolicCommit 1 [], bufferSymbolicCommit 2 [1], bufferSymbolicCommit 9 [7],
          .converge 1000, .converge 1000]).epochState = .unrecoverable 2 :=
  ⟨symbolicEngine_freshlyJoined [], rfl, by decide +kernel, by decide +kernel, by decide +kernel⟩

/-- The orphan arrives when the group is at the epoch that the orphan was made in. -/
def lateOrphanSteps : List EngineStep :=
  [bufferSymbolicCommit 1 [], .converge 1000, bufferSymbolicCommit 2 [1], bufferSymbolicCommit 9 [7],
    .converge 2000, .converge 3000]

/-- The last pass goes back to the epoch of the orphan and is not disturbed. -/
theorem anchors_found_below_orphan :
    ((symbolicEngine []).run (symbolicMls []) (lateOrphanSteps.take 5)).oldestUnresolved
        (symbolicMls []) = some 1 ∧
      ((symbolicEngine []).run (symbolicMls []) (lateOrphanSteps.take 5)).Undisturbed
        (convergeStoredOpenmlsMessages (symbolicMls [])
          ((symbolicEngine []).run (symbolicMls []) (lateOrphanSteps.take 5)) 3000).1
        (convergeStoredOpenmlsMessages (symbolicMls [])
          ((symbolicEngine []).run (symbolicMls []) (lateOrphanSteps.take 5)) 3000).2 := by
  have last : ((symbolicEngine []).run (symbolicMls []) (lateOrphanSteps.take 5)).oldestUnresolved
      (symbolicMls []) = some 1 := by decide +kernel
  have none : ∀ count < 5, ((symbolicEngine []).run (symbolicMls [])
      (lateOrphanSteps.take count)).oldestUnresolved (symbolicMls []) = none := by decide +kernel
  have tips : ∀ count < 7, ((symbolicEngine []).run (symbolicMls [])
      (lateOrphanSteps.take count)).storage.live.epoch ≤ 2 := by decide +kernel
  refine ⟨last, (anchors_found_iff (symbolicMls_publishLaws []) (symbolicEngine_freshlyJoined []) rfl
    lateOrphanSteps).mpr ?_ (lateOrphanSteps.take 5) 3000 prefix_rfl⟩
  intro done nowMs earlier start oldest
  have length : done.length < 6 := by
    have bound := earlier.length_le
    rw [length_append] at bound
    exact bound
  have taken := prefix_iff_eq_take.mp ((prefix_append done _).trans earlier)
  rcases Nat.lt_or_eq_of_le (Nat.le_of_lt_succ length) with before | isLast
  · rw [taken, none _ before] at oldest
    cases oldest
  · rw [isLast] at taken
    rw [taken, last] at oldest
    cases oldest
    refine ⟨⟨lateOrphanSteps.take 2, ?_, by decide +kernel⟩, ?_⟩
    · rw [taken]
      exact take_prefix_take_left (by decide)
    · rintro tip ⟨earliest, within, rfl⟩
      have whole := within.trans ((prefix_append done _).trans earlier)
      rw [prefix_iff_eq_take.mp whole]
      exact (tips _ (Nat.lt_succ_of_le whole.length_le)).trans (by decide)

end Darkmatter
