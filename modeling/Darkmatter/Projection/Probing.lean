/-
**Probing, call by call.**

A pass decides on the live group: it creates a guard snapshot, replays a path, rolls back and
releases, again and again, and for a pass that starts in the past all of this happens on the group
rolled back to an anchor, under a guard of its own.

* `GuardedStorage` — the storage of a group with every snapshot by name, and the three calls on them;
* `Prober.canonicalizeStoredOpenmlsMessages` — the pass as a sequence of such calls. `leaves` is
  whatever a replay writes over the MLS state before it is rolled back;
* `probing_yields` — **probing computes the decision of the stored messages** and gives the live
  group back. Only a snapshot that was already stored under the name of a guard is lost
  (`stale_guard_lost`).
-/

import Darkmatter.Projection.Stored
import Darkmatter.Lib.Frame

namespace Darkmatter

open Std Lib Function

/-! ### Snapshots by name -/

/-- The names of snapshots: those that stay, and the guards, named after a hash of what they guard. -/
inductive GuardName
  | stored (name : SnapshotName)
  | replay (hash : Bytes)
  | retainedProbe (hash : Bytes)
  | apply (hash : Bytes)
deriving DecidableEq, Repr

def GuardName.isGuard : GuardName → Bool
  | .stored _ => false
  | _ => true

inductive GuardError
  | notFound
  | snapshotMissing
  | backend
deriving DecidableEq, Repr

/-- The storage of one group. -/
structure GuardedStorage (Group : Type) where
  live : GroupSnapshot Group
  snapshots : GuardName → Option (GroupSnapshot Group)

variable {Group : Type} (name : GuardName)

namespace GuardedStorage

def toGroupStorage (storage : GuardedStorage Group) : GroupStorage Group where
  live := storage.live
  snapshots := fun name => storage.snapshots (.stored name)

/-- The record, the messages and the queue of the live group. -/
def readLive : StateM (GuardedStorage Group) (GroupSnapshot Group) := fun storage =>
  (storage.live, storage)

/-- A snapshot of the live group; one of the same name is replaced. -/
def createGroupSnapshot :
    StateM (GuardedStorage Group) (Except GuardError Unit) := fun storage =>
  (.ok (), { storage with snapshots := update storage.snapshots name (some storage.live) })

def rollbackGroupToSnapshot :
    StateM (GuardedStorage Group) (Except GuardError Unit) := fun storage =>
  match storage.snapshots name with
  | none => (.error .snapshotMissing, storage)
  | some live => (.ok (), { storage with live })

def releaseGroupSnapshot :
    StateM (GuardedStorage Group) (Except GuardError Unit) := fun storage =>
  match storage.snapshots name with
  | none => (.error .snapshotMissing, storage)
  | some _ => (.ok (), { storage with snapshots := update storage.snapshots name none })

/-- A guard that goes out of scope: rolled back and released, whatever comes of it. -/
def dropGuard : StateM (GuardedStorage Group) Unit := do
  let _ ← rollbackGroupToSnapshot name
  let _ ← releaseGroupSnapshot name
  return ()

/-- A guard at the end of its work. One that could not be taken back goes out of scope armed. -/
def commitGuard : StateM (GuardedStorage Group) (Except GuardError Unit) := do
  match ← rollbackGroupToSnapshot name with
  | .error e => dropGuard name; return .error e
  | .ok () =>
    match ← releaseGroupSnapshot name with
    | .ok () | .error .snapshotMissing => return .ok ()
    | .error e => dropGuard name; return .error e

end GuardedStorage

/-! ### The pass -/

/-- What probing rests on: OpenMLS, what a replay leaves in the storage of the MLS state, and the
hashes guards are named after. -/
structure Prober (Group : Type) where
  mls : OpenMls Group
  leaves : Group → List TransportMessage → Group
  replayHash : List TransportMessage → Bytes
  probeHash : Nat → Bytes

/-- The observations of a replay of a path, summed up as a candidate. -/
def OpenMls.candidateOfObservations {Group : Type} (mls : OpenMls Group)
    (path : OpenMlsCandidatePath) (observations : List OpenMlsReplayObservation) :
    Except OpenMlsProjectionError OpenMlsMaterializedCandidate :=
  match observations.foldl (mls.observePathCommit path.messages) none with
  | none => .error (.candidatePathDidNotCommit path.branchId)
  | some commits =>
    .ok
      { branchId := path.branchId
        forkEpoch := commits.forkEpoch
        tipEpoch := commits.tipEpoch
        tipPriority := commits.tipPriority
        tipCommitter := commits.tipCommitter
        tipDigest := commits.tipDigest
        commitMessageIds := commits.commitMessageIds
        consumedProposalRefs := (sortBy compare commits.consumedProposalRefs).eraseReps
        observations }

namespace Prober

open GuardedStorage

variable (prober : Prober Group) (messages : List TransportMessage)
  (paths : List OpenMlsCandidatePath) (budget : ReplayBudget)

/-- Messages processed on the live group, and what that leaves. -/
def processOpenmlsMessagesInner :
    StateM (GuardedStorage Group)
      (Except OpenMlsProjectionError (List OpenMlsReplayObservation)) := fun storage =>
  ((prober.mls.processOpenmlsMessagesInner storage.live.mls messages).map
      OpenMlsReplayOutput.observations,
    { storage with live := { storage.live with mls := prober.leaves storage.live.mls messages } })

/-- **A replay under a guard.** -/
def replayOpenmlsMessages :
    StateM (GuardedStorage Group)
      (Except OpenMlsProjectionError (List OpenMlsReplayObservation)) := do
  let snapshot := GuardName.replay (prober.replayHash messages)
  match ← createGroupSnapshot snapshot with
  | .error _ => return .error .snapshot
  | .ok () =>
    let result ← prober.processOpenmlsMessagesInner messages
    match ← commitGuard snapshot with
    | .error _ => return .error .snapshot
    | .ok () => return result

/-- Paths replayed in turn, each at the price of one replay. -/
def materializePaths : List OpenMlsCandidatePath → ReplayBudget →
    StateM (GuardedStorage Group)
      (Except OpenMlsProjectionError (List OpenMlsMaterializedCandidate) × ReplayBudget)
  | [], budget => return (.ok [], budget)
  | path :: rest, budget =>
    if path.messages = [] then
      return (.error (.emptyCandidatePath path.branchId), budget)
    else
      match budget.consume with
      | none => return (.error .replayBudgetExceeded, budget)
      | some budget => do
        match ← prober.replayOpenmlsMessages path.messages with
        | .error e => return (.error e, budget)
        | .ok observations =>
          match prober.mls.candidateOfObservations path observations with
          | .error e => return (.error e, budget)
          | .ok candidate =>
            match ← materializePaths rest budget with
            | (.error e, budget) => return (.error e, budget)
            | (.ok candidates, budget) => return (.ok (candidate :: candidates), budget)

def materializeOpenmlsCandidatePathsBudgeted :
    StateM (GuardedStorage Group)
      (Except OpenMlsProjectionError (List OpenMlsMaterializedCandidate) × ReplayBudget) := do
  match ← prober.materializePaths paths budget with
  | (.error e, budget) => return (.error e, budget)
  | (.ok candidates, budget) =>
    return (.ok (sortBy (compareOn OpenMlsMaterializedCandidate.branchId) candidates), budget)

def probeCandidatePath (digests : List Bytes)
    (pendingProposals : List TransportMessage) (budget : ReplayBudget) :
    StateM (GuardedStorage Group)
      (Except OpenMlsProjectionError CandidatePathProbeResult × ReplayBudget) :=
  let path : OpenMlsCandidatePath := ⟨prober.mls.branchIdForPathDigests digests, messages⟩
  match prober.mls.candidatePathsWithPendingReplayMessages [path] pendingProposals with
  | .error e => return (.error e, budget)
  | .ok replayPaths => do
    match ← prober.materializeOpenmlsCandidatePathsBudgeted replayPaths budget with
    | (.ok candidates, budget) => return (.ok (.materialized candidates.getLast?), budget)
    | (.error (.unauthorizedCommit messageId), budget) =>
      return (.ok (.unauthorizedCommit messageId), budget)
    | (.error (.invalidCommit messageId), budget) =>
      return (.ok (.invalidCommit messageId), budget)
    | (.error .replay, budget) => return (.ok (.materialized none), budget)
    | (.error e, budget) => return (.error e, budget)

/-- One commit tried at the end of a path; the flag says whether the path was extended. -/
def extendPath (pendingProposals : List TransportMessage) (path : CandidatePathProbe) :
    PathSearch × Bool → StoredCommitMessage →
      StateM (GuardedStorage Group) (Except OpenMlsProjectionError (PathSearch × Bool))
  | (search, extended), commit =>
    if commit.sourceEpoch ≠ path.tipEpoch ∨ commit.digest ∈ path.digests then
      return .ok (search, extended)
    else
      let messages := path.messages ++ [commit.message]
      let digests := path.digests ++ [commit.digest]
      if digests ∈ search.seenPaths then
        return .ok (search, extended)
      else do
        let search := { search with seenPaths := digests :: search.seenPaths }
        match ← prober.probeCandidatePath messages digests pendingProposals search.budget with
        | (.error e, _) => return .error e
        | (.ok (.materialized none), budget) => return .ok ({ search with budget }, extended)
        | (.ok (.materialized (some candidate)), budget) =>
          return .ok ({ search with
            budget
            nextFrontier := search.nextFrontier ++
              [⟨messages, digests, candidate.tipEpoch, some candidate⟩] }, true)
        | (.ok (.unauthorizedCommit messageId), budget)
        | (.ok (.invalidCommit messageId), budget) =>
          return .ok ({ search with
            budget
            invalidCommitDrops := search.invalidCommitDrops ++
              [⟨messageId, .commit, .invalidAgainstCandidateState⟩] }, extended)

/-- A path tried with every commit: it is completed when none extends it. -/
def expandPath (pendingProposals : List TransportMessage) (commits : List StoredCommitMessage)
    (search : PathSearch) (path : CandidatePathProbe) :
    StateM (GuardedStorage Group) (Except OpenMlsProjectionError PathSearch) := do
  match ← loop (prober.extendPath pendingProposals path) (search, false) commits with
  | .error e => return .error e
  | .ok (search, extended) =>
    if path.messages ≠ [] ∧ !extended then
      return .ok { search with completed := search.completed ++ [path] }
    else
      return .ok search

/-- Levels of paths, until a level is empty. -/
def searchLevels (pendingProposals : List TransportMessage) (commits : List StoredCommitMessage) :
    Nat → List CandidatePathProbe → PathSearch →
      StateM (GuardedStorage Group) (Except OpenMlsProjectionError PathSearch)
  | 0, _, search => return .ok search
  | _ + 1, [], search => return .ok search
  | levels + 1, path :: frontier, search => do
    match ← loop (prober.expandPath pendingProposals commits) { search with nextFrontier := [] }
        (path :: frontier) with
    | .error e => return .error e
    | .ok search => searchLevels pendingProposals commits levels search.nextFrontier search

def buildStoredOpenmlsCandidatePaths (commits : List StoredCommitMessage)
    (pendingMessages : List TransportMessage) (startingEpoch maxRewindCommits : Nat) :
    StateM (GuardedStorage Group)
      (Except OpenMlsProjectionError StoredOpenMlsCandidatePathResult) :=
  let commits := sortBy compareStoredCommits commits
  match prober.mls.pendingProposalMessages pendingMessages with
  | .error e => return .error e
  | .ok pendingProposals => do
    match ← prober.searchLevels pendingProposals commits (commits.length + 1)
        [⟨[], [], startingEpoch, none⟩] (.start commits.length maxRewindCommits) with
    | .error e => return .error e
    | .ok search =>
      return .ok
        { candidatePaths := search.completed.map fun path =>
            ⟨prober.mls.branchIdForPathDigests path.digests, path.messages⟩
          materialized := search.completed.filterMap CandidatePathProbe.materialized
          invalidCommitDrops := search.invalidCommitDrops }

def canonicalizeOpenmlsBatch (batch : OpenMlsCanonicalizationBatch) :
    StateM (GuardedStorage Group) (Except OpenMlsProjectionError CanonicalizationResult) :=
  match prober.mls.candidatePathsWithPendingReplayMessages batch.candidatePaths
      batch.pendingMessages with
  | .error e => return .error e
  | .ok candidatePaths => do
    match ← prober.materializeOpenmlsCandidatePathsBudgeted candidatePaths .unlimited with
    | (.error e, _) => return .error e
    | (.ok materialized, _) =>
      return prober.mls.canonicalizeOpenmlsBatchWithMaterialized batch materialized

variable (work : StoredOpenMlsCanonicalizationWork)

def canonicalizeStoredOpenmlsMessagesFromCurrent :
    StateM (GuardedStorage Group) (Except OpenMlsProjectionError CanonicalizationResult) := do
  match ← prober.buildStoredOpenmlsCandidatePaths work.commitMessages work.pendingMessages
      work.replayStartEpoch work.policy.convergence.maxRewindCommits with
  | .error e => return .error e
  | .ok pathResult =>
    match prober.mls.pendingMessagesContainApplication work.pendingMessages with
    | .error e => return .error e
    | .ok hasPendingApps =>
      let batch : OpenMlsCanonicalizationBatch :=
        { state := work.state
          candidatePaths := pathResult.candidatePaths
          pendingMessages := work.pendingMessages
          outboundIntents := work.outboundIntents
          policy := work.policy
          nowMs := work.nowMs }
      let canReuseMaterialized :=
        !hasPendingApps && pathResult.materialized.length == pathResult.candidatePaths.length
      let result ←
        if canReuseMaterialized then
          pure (prober.mls.canonicalizeOpenmlsBatchWithMaterialized batch
            (sortBy (compareOn OpenMlsMaterializedCandidate.branchId) pathResult.materialized))
        else
          prober.canonicalizeOpenmlsBatch batch
      match result with
      | .error e => return .error e
      | .ok result => return .ok (result.appendDroppedMessages pathResult.invalidCommitDrops)

/-- The part of a pass from an anchor that leaves the group there. -/
def canonicalizeOnRetainedAnchor :
    StateM (GuardedStorage Group) (Except OpenMlsProjectionError CanonicalizationResult) := do
  match ← rollbackGroupToSnapshot (.stored (.retainedAnchor work.replayStartEpoch)) with
  | .ok () => prober.canonicalizeStoredOpenmlsMessagesFromCurrent work
  | .error .snapshotMissing =>
    return .ok (missingRetainedAnchorResult work.state work.outboundIntents work.policy work.nowMs)
  | .error _ => return .error .snapshot

/-- A pass from the retained anchor of its start epoch, under a guard of the live group. -/
def canonicalizeStoredOpenmlsMessagesFromRetainedAnchor :
    StateM (GuardedStorage Group) (Except OpenMlsProjectionError CanonicalizationResult) := do
  let liveSnapshot := GuardName.retainedProbe (prober.probeHash work.replayStartEpoch)
  match ← createGroupSnapshot liveSnapshot with
  | .error _ => return .error .snapshot
  | .ok () =>
    let result ← prober.canonicalizeOnRetainedAnchor work
    let rollbackResult ← rollbackGroupToSnapshot liveSnapshot
    let releaseResult ← releaseGroupSnapshot liveSnapshot
    match rollbackResult, releaseResult with
    | .ok (), .ok () => return result
    | _, _ => return .error .snapshot

/-- **The decision over the stored messages of a group, call by call.** -/
def canonicalizeStoredOpenmlsMessages (state : CanonicalizationState)
    (outboundIntents : List OutboundIntent) (policy : CanonicalizationPolicy) (nowMs : Nat) :
    StateM (GuardedStorage Group) (Except OpenMlsProjectionError CanonicalizationResult) := do
  let live ← readLive
  let currentEpoch := live.epoch
  match live.messages.foldlM (prober.mls.collectRecord state.retainedAnchorEpoch) {} with
  | .error e => return .error e
  | .ok collected =>
    let replayStartEpoch :=
      (historicalReplayStartEpoch collected.commitMessages currentEpoch).getD currentEpoch
    let work : StoredOpenMlsCanonicalizationWork :=
      { state
        commitMessages := OpenMls.replayedCommits collected.commitMessages currentEpoch
        pendingMessages := collected.pendingMessages
        outboundIntents
        policy
        nowMs
        replayStartEpoch }
    let result ←
      if replayStartEpoch < currentEpoch then
        prober.canonicalizeStoredOpenmlsMessagesFromRetainedAnchor work
      else
        prober.canonicalizeStoredOpenmlsMessagesFromCurrent work
    match result with
    | .error e => return .error e
    | .ok result => return .ok (result.appendDroppedMessages collected.staleCommitDrops)

end Prober

/-! ### What probing leaves -/

section Frame

open GuardedStorage

variable {prober : Prober Group}

/-- The live group is as it was, and so is every snapshot, but for some that had the name of a guard
and are gone. -/
def GuardedStorage.KeptBut (guards : Set GuardName) (storage after : GuardedStorage Group) : Prop :=
  after.live = storage.live ∧ ∀ name, after.snapshots name = storage.snapshots name ∨
    name ∈ guards ∧ after.snapshots name = none

/-- The names of the guards of replays. -/
def Prober.replayGuards (prober : Prober Group) : Set GuardName :=
  Set.range fun messages => .replay (prober.replayHash messages)

/-- The names of the guards of passes: those of replays, and those of passes from an anchor. -/
def Prober.probeGuards (prober : Prober Group) : Set GuardName :=
  prober.replayGuards ∪ Set.range fun epoch => .retainedProbe (prober.probeHash epoch)

theorem keeps_keptBut (live : GroupSnapshot Group) (guards : Set GuardName) :
    Keeps (fun storage => storage.live = live) (KeptBut guards) where
  refl := fun _ => ⟨rfl, fun _ => Or.inl rfl⟩
  trans := by
    rintro a b c ⟨live, named⟩ ⟨live', named'⟩
    refine ⟨live'.trans live, fun name => ?_⟩
    rcases named' name with same | gone
    · rw [same]
      exact named name
    · exact Or.inr gone
  ready := fun isLive kept => kept.1.trans isLive

theorem GuardedStorage.KeptBut.mono {guards guards' : Set GuardName}
    {storage after : GuardedStorage Group}
    (kept : KeptBut guards storage after) (more : guards ⊆ guards') :
    KeptBut guards' storage after :=
  ⟨kept.1, fun name => (kept.2 name).imp_right fun gone => ⟨more gone.1, gone.2⟩⟩

/-- **A replay under a guard** is a function of the live group, and only the guard's own name is
used. -/
theorem replayOpenmlsMessages_eq (storage : GuardedStorage Group) :
    prober.replayOpenmlsMessages messages storage =
      ((prober.mls.processOpenmlsMessagesInner storage.live.mls messages).map
          OpenMlsReplayOutput.observations,
        { storage with
          snapshots :=
            update storage.snapshots (.replay (prober.replayHash messages)) none }) := by
  simp [Prober.replayOpenmlsMessages, createGroupSnapshot, Prober.processOpenmlsMessagesInner,
    commitGuard, rollbackGroupToSnapshot, releaseGroupSnapshot, bind, StateT.bind, pure,
    StateT.pure]

theorem materializeOpenmlsCandidatePath_eq {mls : OpenMls Group} (group : Group)
    (path : OpenMlsCandidatePath) :
    mls.materializeOpenmlsCandidatePath group path =
      match (mls.processOpenmlsMessagesInner group path.messages).map
        OpenMlsReplayOutput.observations with
      | .error e => .error e
      | .ok observations => mls.candidateOfObservations path observations := by
  rw [OpenMls.materializeOpenmlsCandidatePath]
  cases mls.processOpenmlsMessagesInner group path.messages <;> rfl

section Search

variable (prober) (live : GroupSnapshot Group) {α : Type} (messages : List TransportMessage)
  (paths : List OpenMlsCandidatePath) (budget : ReplayBudget)

/-- A computation that probes the live group. -/
abbrev Probes (x : StateM (GuardedStorage Group) α) (value : α) : Prop :=
  Yields (fun storage => storage.live = live) (KeptBut prober.replayGuards) x value

variable {prober live}

theorem Probes.pure (value : α) : Probes prober live (Pure.pure value) value :=
  Yields.pure (keeps_keptBut live _) value

theorem Probes.bind {α β : Type} {x : StateM (GuardedStorage Group) α}
    {next : α → StateM (GuardedStorage Group) β} {value : α} {result : β}
    (first : Probes prober live x value) (rest : Probes prober live (next value) result) :
    Probes prober live (x >>= next) result :=
  Yields.bind (keeps_keptBut live _) first rest

theorem probes_replay :
    Probes prober live (prober.replayOpenmlsMessages messages)
      ((prober.mls.processOpenmlsMessagesInner live.mls messages).map
        OpenMlsReplayOutput.observations) := by
  intro _ isLive
  rw [replayOpenmlsMessages_eq, isLive]
  refine ⟨rfl, isLive.symm ▸ rfl, fun name => ?_⟩
  by_cases named : name = .replay (prober.replayHash messages)
  · rw [named]
    exact Or.inr ⟨⟨messages, rfl⟩, update_self _ _ _⟩
  · exact Or.inl (update_of_ne named _ _)

theorem probes_materializePaths :
    Probes prober live (prober.materializePaths paths budget)
      (prober.mls.materializePaths live.mls paths budget) := by
  induction paths generalizing budget with
  | nil => exact .pure _
  | cons path rest ih =>
    rw [Prober.materializePaths, OpenMls.materializePaths]
    split
    · exact .pure _
    · cases budget.consume with
      | none => exact .pure _
      | some budget =>
        dsimp only
        rw [materializeOpenmlsCandidatePath_eq]
        refine .bind (probes_replay path.messages) ?_
        cases (prober.mls.processOpenmlsMessagesInner live.mls path.messages).map
            OpenMlsReplayOutput.observations with
        | error e => exact .pure _
        | ok observations =>
          dsimp only
          cases prober.mls.candidateOfObservations path observations with
          | error => exact .pure _
          | ok =>
            refine .bind (ih budget) ?_
            rcases prober.mls.materializePaths live.mls rest budget with ⟨_ | _, _⟩ <;>
              exact .pure _

theorem probes_materialize :
    Probes prober live (prober.materializeOpenmlsCandidatePathsBudgeted paths budget)
      (prober.mls.materializeOpenmlsCandidatePathsBudgeted live.mls paths budget) := by
  rw [OpenMls.materializeOpenmlsCandidatePathsBudgeted]
  refine .bind (probes_materializePaths paths budget) ?_
  rcases prober.mls.materializePaths live.mls paths budget with ⟨_ | _, _⟩ <;> exact .pure _

theorem probes_probeCandidatePath (digests : List Bytes)
    (pendingProposals : List TransportMessage) (budget : ReplayBudget) :
    Probes prober live (prober.probeCandidatePath messages digests pendingProposals budget)
      (prober.mls.probeCandidatePath live.mls messages digests pendingProposals budget) := by
  rw [Prober.probeCandidatePath, OpenMls.probeCandidatePath]
  cases prober.mls.candidatePathsWithPendingReplayMessages
      [⟨prober.mls.branchIdForPathDigests digests, messages⟩] pendingProposals with
  | error e => exact .pure _
  | ok replayPaths =>
    dsimp only
    refine .bind (probes_materialize replayPaths budget) ?_
    rcases prober.mls.materializeOpenmlsCandidatePathsBudgeted live.mls replayPaths budget
      with ⟨e | _, _⟩
    · cases e <;> exact .pure _
    · exact .pure _

variable (pendingProposals : List TransportMessage)

theorem probes_extendPath (path : CandidatePathProbe)
    (state : PathSearch × Bool) (commit : StoredCommitMessage) :
    Probes prober live (prober.extendPath pendingProposals path state commit)
      (prober.mls.extendPath live.mls pendingProposals path state commit) := by
  obtain ⟨search, _⟩ := state
  rw [Prober.extendPath, OpenMls.extendPath]
  dsimp only
  split
  · exact .pure _
  · split
    · exact .pure _
    · refine .bind (probes_probeCandidatePath _ _ _ _) ?_
      rcases prober.mls.probeCandidatePath live.mls (path.messages ++ [commit.message])
        (path.digests ++ [commit.digest]) pendingProposals search.budget
        with ⟨_ | (_ | _) | _ | _, _⟩ <;> exact .pure _

variable (commits : List StoredCommitMessage)

theorem probes_expandPath (search : PathSearch) (path : CandidatePathProbe) :
    Probes prober live (prober.expandPath pendingProposals commits search path)
      (prober.mls.expandPath live.mls pendingProposals commits search path) := by
  rw [OpenMls.expandPath]
  refine .bind (Yields.loop (keeps_keptBut live _) (probes_extendPath pendingProposals path) _ _) ?_
  cases commits.foldlM (prober.mls.extendPath live.mls pendingProposals path) (search, false) with
  | error => exact .pure _
  | ok =>
    dsimp only
    split <;> exact .pure _

theorem probes_searchLevels (levels : Nat) (frontier : List CandidatePathProbe)
    (search : PathSearch) :
    Probes prober live (prober.searchLevels pendingProposals commits levels frontier search)
      (prober.mls.searchLevels live.mls pendingProposals commits levels frontier search) := by
  induction levels generalizing frontier search with
  | zero => exact .pure _
  | succ levels ih =>
    cases frontier with
    | nil => exact .pure _
    | cons path rest =>
      rw [Prober.searchLevels, OpenMls.searchLevels]
      refine .bind (Yields.loop (keeps_keptBut live _)
        (probes_expandPath pendingProposals commits) _ _) ?_
      cases (path :: rest).foldlM (prober.mls.expandPath live.mls pendingProposals commits)
          { search with nextFrontier := [] } with
      | error e => exact .pure _
      | ok next => exact ih _ _

theorem probes_build
    (pendingMessages : List TransportMessage) (startingEpoch maxRewindCommits : Nat) :
    Probes prober live
      (prober.buildStoredOpenmlsCandidatePaths commits pendingMessages startingEpoch
        maxRewindCommits)
      (prober.mls.buildStoredOpenmlsCandidatePaths live.mls commits pendingMessages startingEpoch
        maxRewindCommits) := by
  rw [Prober.buildStoredOpenmlsCandidatePaths, OpenMls.buildStoredOpenmlsCandidatePaths]
  dsimp only
  cases prober.mls.pendingProposalMessages pendingMessages with
  | error => exact .pure _
  | ok pendingProposals =>
    dsimp only [PathSearch.start]
    refine .bind (probes_searchLevels _ _ _ _ _) ?_
    cases prober.mls.searchLevels live.mls pendingProposals (sortBy compareStoredCommits commits)
        ((sortBy compareStoredCommits commits).length + 1) [⟨[], [], startingEpoch, none⟩]
        ⟨.forPass (sortBy compareStoredCommits commits).length maxRewindCommits, [], [], [], [[]]⟩ <;>
      exact .pure _

theorem probes_batch (batch : OpenMlsCanonicalizationBatch) :
    Probes prober live (prober.canonicalizeOpenmlsBatch batch)
      (prober.mls.canonicalizeOpenmlsBatch live.mls batch) := by
  rw [Prober.canonicalizeOpenmlsBatch, OpenMls.canonicalizeOpenmlsBatch]
  cases prober.mls.candidatePathsWithPendingReplayMessages batch.candidatePaths
      batch.pendingMessages with
  | error e => exact .pure _
  | ok candidatePaths =>
    refine .bind (probes_materialize candidatePaths .unlimited) ?_
    dsimp only
    rcases prober.mls.materializeOpenmlsCandidatePathsBudgeted live.mls candidatePaths .unlimited
      with ⟨_ | _, _⟩ <;> exact .pure _

/-- **A pass from the live group** is the pass over its MLS state. -/
theorem probes_fromCurrent (work : StoredOpenMlsCanonicalizationWork) :
    Probes prober live (prober.canonicalizeStoredOpenmlsMessagesFromCurrent work)
      (prober.mls.canonicalizeStoredOpenmlsMessagesFromCurrent live.mls work) := by
  rw [OpenMls.canonicalizeStoredOpenmlsMessagesFromCurrent]
  refine .bind (probes_build _ _ _ _) ?_
  cases prober.mls.buildStoredOpenmlsCandidatePaths live.mls work.commitMessages
      work.pendingMessages work.replayStartEpoch work.policy.convergence.maxRewindCommits with
  | error e => exact .pure _
  | ok pathResult =>
    dsimp only
    cases prober.mls.pendingMessagesContainApplication work.pendingMessages with
    | error => exact .pure _
    | ok =>
      dsimp only
      split
      · refine .bind (.pure _) ?_
        cases prober.mls.canonicalizeOpenmlsBatchWithMaterialized _ _ <;> exact .pure _
      · refine .bind (probes_batch _) ?_
        cases prober.mls.canonicalizeOpenmlsBatch live.mls _ <;> exact .pure _

end Search

theorem onRetainedAnchor_yields (work : StoredOpenMlsCanonicalizationWork)
    (storage : GuardedStorage Group) :
    (prober.canonicalizeOnRetainedAnchor work storage).1 =
        prober.mls.canonicalizeStoredOpenmlsMessagesFromRetainedAnchor storage.toGroupStorage
          work ∧
      ∀ name, (prober.canonicalizeOnRetainedAnchor work storage).2.snapshots name =
          storage.snapshots name ∨
        name ∈ prober.replayGuards ∧
          (prober.canonicalizeOnRetainedAnchor work storage).2.snapshots name = none := by
  simp only [Prober.canonicalizeOnRetainedAnchor, rollbackGroupToSnapshot, bind, StateT.bind, pure,
    OpenMls.canonicalizeStoredOpenmlsMessagesFromRetainedAnchor, GroupStorage.anchor,
    toGroupStorage]
  cases storage.snapshots (.stored (.retainedAnchor work.replayStartEpoch)) with
  | none => exact ⟨rfl, fun name => Or.inl rfl⟩
  | some anchor =>
    obtain ⟨returns, _, named⟩ := @probes_fromCurrent _ prober anchor work
      { storage with live := anchor } rfl
    exact ⟨returns, named⟩

variable (prober) {α : Type} (view : GroupStorage Group)

theorem keeps_view :
    Keeps (fun storage => storage.toGroupStorage = view) (KeptBut prober.probeGuards) where
  refl := (keeps_keptBut view.live _).refl
  trans := (keeps_keptBut view.live _).trans
  ready := by
    rintro storage _ isView ⟨live, named⟩
    rw [← isView, toGroupStorage, toGroupStorage, live]
    refine congrArg (GroupStorage.mk storage.live) (funext fun name => ?_)
    rcases named (.stored name) with same | ⟨⟨_, guard⟩ | ⟨_, guard⟩, _⟩
    · exact same
    · cases guard
    · cases guard

/-- A computation that probes a storage: it leaves everything but guards. -/
abbrev ProbesStorage (x : StateM (GuardedStorage Group) α) (value : α) : Prop :=
  Yields (fun storage => storage.toGroupStorage = view) (KeptBut prober.probeGuards) x value

variable {prober}

/-- **A pass from an anchor** is the pass over the anchor's MLS state, and gives the live group
back. -/
theorem probes_fromRetainedAnchor (work : StoredOpenMlsCanonicalizationWork) :
    ProbesStorage prober view (prober.canonicalizeStoredOpenmlsMessagesFromRetainedAnchor work)
      (prober.mls.canonicalizeStoredOpenmlsMessagesFromRetainedAnchor view work) := by
  rintro storage rfl
  obtain ⟨guard, isGuard⟩ : ∃ guard,
    guard = GuardName.retainedProbe (prober.probeHash work.replayStartEpoch) := ⟨_, rfl⟩
  obtain ⟨created, isCreated⟩ : ∃ created : GuardedStorage Group, created =
    ⟨storage.live, update storage.snapshots guard (some storage.live)⟩ := ⟨_, rfl⟩
  obtain ⟨returns, named⟩ := @onRetainedAnchor_yields _ prober work created
  rcases probed : prober.canonicalizeOnRetainedAnchor work created with ⟨result, after⟩
  rw [probed] at returns named
  -- The guard is no guard of a replay, so it is still there.
  have guarded : after.snapshots guard = some storage.live := by
    rcases named guard with same | ⟨⟨_, replay⟩, _⟩
    · rw [same, isCreated]
      exact update_self _ _ _
    · rw [isGuard] at replay
      cases replay
  have ran : prober.canonicalizeStoredOpenmlsMessagesFromRetainedAnchor work storage =
      (result, ⟨storage.live, update after.snapshots guard none⟩) := by
    simp only [Prober.canonicalizeStoredOpenmlsMessagesFromRetainedAnchor, createGroupSnapshot,
      bind, StateT.bind, ← isGuard, ← isCreated, probed, rollbackGroupToSnapshot, guarded,
      releaseGroupSnapshot]
    rfl
  have stored : created.toGroupStorage = storage.toGroupStorage := by
    rw [toGroupStorage, toGroupStorage, isCreated]
    refine congrArg (GroupStorage.mk storage.live) (funext fun name => ?_)
    exact update_of_ne (by rw [isGuard]; simp) _ _
  rw [ran]
  refine ⟨returns.trans (by rw [stored]), rfl, fun name => ?_⟩
  by_cases same : name = guard
  · rw [same]
    exact Or.inr ⟨Or.inr ⟨work.replayStartEpoch, isGuard.symm⟩, update_self _ _ _⟩
  · have before : created.snapshots name = storage.snapshots name := by
      rw [isCreated]
      exact update_of_ne same _ _
    show update after.snapshots guard none name = _ ∨
      _ ∧ update after.snapshots guard none name = none
    rw [update_of_ne same, ← before]
    exact (named name).imp_right fun gone => ⟨Or.inl gone.1, gone.2⟩

/-- **Probing computes the decision over the stored messages** and leaves the live group and every
snapshot, but for those that had the name of a guard. -/
theorem probing_yields (view : GroupStorage Group) (state : CanonicalizationState)
    (outboundIntents : List OutboundIntent) (policy : CanonicalizationPolicy) (nowMs : Nat) :
    ProbesStorage prober view
      (prober.canonicalizeStoredOpenmlsMessages state outboundIntents policy nowMs)
      (prober.mls.canonicalizeStoredOpenmlsMessages view state outboundIntents policy nowMs) := by
  have keeps := keeps_view prober view
  have reads : ProbesStorage prober view readLive view.live := by
    rintro storage rfl
    exact ⟨rfl, keeps.refl storage⟩
  have current : ∀ work, ProbesStorage prober view
      (prober.canonicalizeStoredOpenmlsMessagesFromCurrent work)
      (prober.mls.canonicalizeStoredOpenmlsMessagesFromCurrent view.live.mls work) := by
    rintro work storage rfl
    obtain ⟨returns, kept⟩ := @probes_fromCurrent _ prober storage.live work storage rfl
    exact ⟨returns, GuardedStorage.KeptBut.mono kept Set.subset_union_left⟩
  rw [OpenMls.canonicalizeStoredOpenmlsMessages]
  refine .bind keeps reads ?_
  dsimp only
  cases view.live.messages.foldlM (prober.mls.collectRecord state.retainedAnchorEpoch) {} with
  | error => exact .pure keeps _
  | ok =>
    dsimp only
    split
    · refine .bind keeps (probes_fromRetainedAnchor view _) ?_
      cases prober.mls.canonicalizeStoredOpenmlsMessagesFromRetainedAnchor view _ <;>
        exact .pure keeps _
    · refine .bind keeps (current _) ?_
      cases prober.mls.canonicalizeStoredOpenmlsMessagesFromCurrent view.live.mls _ <;>
        exact .pure keeps _

/-- **Probing leaves the storage as it was.** Whatever comes of it, the live group is as before, and
so is every snapshot but for some that had the name of a guard of a pass and are gone. When no snapshot
has such a name, nothing at all has changed. -/
theorem probing_leaves_storage (prober : Prober Group) (state : CanonicalizationState)
    (outboundIntents : List OutboundIntent) (policy : CanonicalizationPolicy) (nowMs : Nat)
    (storage : GuardedStorage Group) :
    let after :=
      (prober.canonicalizeStoredOpenmlsMessages state outboundIntents policy nowMs storage).2
    after.live = storage.live ∧
      (∀ name, after.snapshots name = storage.snapshots name ∨
        name ∈ prober.probeGuards ∧ after.snapshots name = none) ∧
      ((∀ name ∈ prober.probeGuards, storage.snapshots name = none) → after = storage) := by
  intro after
  obtain ⟨_, live, named⟩ := @probing_yields _ prober _ state outboundIntents policy nowMs storage rfl
  refine ⟨live, named, fun unguarded => ?_⟩
  have snapshots : after.snapshots = storage.snapshots := by
    funext name
    rcases named name with same | ⟨isGuard, gone⟩
    · exact same
    · exact gone.trans (unguarded name isGuard).symm
  show GuardedStorage.mk after.live after.snapshots = storage
  rw [live, snapshots]

end Frame

/-! ### A guard left behind -/

/-- A prober for examples: a guard is named after the bytes it guards. -/
def symbolicProber : Prober SymbolicGroup where
  mls := symbolicMls []
  leaves := fun group _ => group
  replayHash := fun messages => messages.flatMap TransportMessage.payload
  probeHash := fun _ => []

/-- A group with a stored commit, and the guard of its replay left behind by a crash. -/
def staleGuardStorage : GuardedStorage SymbolicGroup :=
  let live : GroupSnapshot SymbolicGroup :=
    { mls := []
      epoch := 0
      messages := [⟨"commit", "group", 0, .created, .openmlsWire (symbolicMessage "commit" [0, 7])⟩]
      queue := [] }
  ⟨live, fun name => if name = .replay [0, 7] then some live else none⟩

/-- **A guard left behind is lost**: the next probe of the same path replaces and releases it. -/
theorem stale_guard_lost :
    (staleGuardStorage.snapshots (.replay [0, 7])).isSome = true ∧
      ((symbolicProber.canonicalizeStoredOpenmlsMessages ⟨0, 0, 0, ∅⟩ [] .default 0
        staleGuardStorage).2.snapshots (.replay [0, 7])).isSome = false := by
  decide +kernel

end Darkmatter
