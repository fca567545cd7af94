/-
**Candidate paths from stored commits.**

`buildStoredOpenmlsCandidatePaths` extends the empty path by stored commits, level by level, replays
every extension from the start state, and keeps the paths that cannot be extended.

* `build_eq` — as long as the replays stay within the budget, the paths found are the leaves of the
  tree of replayable paths (`searchLeaves`), and otherwise the pass fails closed.
-/

import Darkmatter.Projection.Replay
import Darkmatter.Lib.Search

namespace Darkmatter

open Std Lib OpenMls List

/-! ### The search -/

structure StoredCommitMessage where
  message : TransportMessage
  sourceEpoch : Nat
  digest : Bytes
  state : MessageState
deriving DecidableEq, Repr

/-- A path under construction. -/
structure CandidatePathProbe where
  messages : List TransportMessage
  digests : List Bytes
  tipEpoch : Nat
  materialized : Option OpenMlsMaterializedCandidate
deriving DecidableEq, Repr

structure StoredOpenMlsCandidatePathResult where
  candidatePaths : List OpenMlsCandidatePath
  materialized : List OpenMlsMaterializedCandidate
  invalidCommitDrops : List DroppedMessage
deriving DecidableEq, Repr

inductive CandidatePathProbeResult
  | materialized (candidate : Option OpenMlsMaterializedCandidate)
  | unauthorizedCommit (messageId : String)
  | invalidCommit (messageId : String)
deriving DecidableEq, Repr

/-- The state of the search: the budget, the next level, the paths that ended, the commits that
turned out invalid and the paths already tried. -/
structure PathSearch where
  budget : ReplayBudget
  nextFrontier : List CandidatePathProbe
  completed : List CandidatePathProbe
  invalidCommitDrops : List DroppedMessage
  seenPaths : List (List Bytes)
deriving DecidableEq, Repr

instance instLawfulBEqPathDigests : LawfulBEq (List Bytes) := inferInstance

/-- The order in which commits are tried. -/
def compareStoredCommits (a b : StoredCommitMessage) : Ordering :=
  (compare a.sourceEpoch b.sourceEpoch).then <|
  (compare a.digest b.digest).then <|
  compare a.message.payload b.message.payload

variable {Group : Type}

namespace OpenMls

variable (mls : OpenMls Group)

def branchIdForPathDigests (digests : List Bytes) : String :=
  "path:" ++ hexEncode (mls.pathHash digests)

def probeCandidatePath (group : Group) (messages : List TransportMessage) (digests : List Bytes)
    (pendingProposals : List TransportMessage) (budget : ReplayBudget) :
    Except OpenMlsProjectionError CandidatePathProbeResult × ReplayBudget :=
  let path : OpenMlsCandidatePath := ⟨mls.branchIdForPathDigests digests, messages⟩
  match mls.candidatePathsWithPendingReplayMessages [path] pendingProposals with
  | .error e => (.error e, budget)
  | .ok replayPaths =>
    match mls.materializeOpenmlsCandidatePathsBudgeted group replayPaths budget with
    | (.ok candidates, budget) => (.ok (.materialized candidates.getLast?), budget)
    | (.error (.unauthorizedCommit messageId), budget) =>
      (.ok (.unauthorizedCommit messageId), budget)
    | (.error (.invalidCommit messageId), budget) => (.ok (.invalidCommit messageId), budget)
    | (.error .replay, budget) => (.ok (.materialized none), budget)
    | (.error e, budget) => (.error e, budget)

/-- One commit tried at the end of a path; the flag says whether the path was extended. -/
def extendPath (group : Group) (pendingProposals : List TransportMessage)
    (path : CandidatePathProbe) :
    PathSearch × Bool → StoredCommitMessage → Except OpenMlsProjectionError (PathSearch × Bool)
  | (search, extended), commit =>
    if commit.sourceEpoch ≠ path.tipEpoch ∨ commit.digest ∈ path.digests then
      .ok (search, extended)
    else
      let messages := path.messages ++ [commit.message]
      let digests := path.digests ++ [commit.digest]
      if digests ∈ search.seenPaths then
        .ok (search, extended)
      else
        let search := { search with seenPaths := digests :: search.seenPaths }
        match mls.probeCandidatePath group messages digests pendingProposals search.budget with
        | (.error e, _) => .error e
        | (.ok (.materialized none), budget) => .ok ({ search with budget }, extended)
        | (.ok (.materialized (some candidate)), budget) =>
          .ok ({ search with
            budget
            nextFrontier := search.nextFrontier ++
              [⟨messages, digests, candidate.tipEpoch, some candidate⟩] }, true)
        | (.ok (.unauthorizedCommit messageId), budget) =>
          .ok ({ search with
            budget
            invalidCommitDrops := search.invalidCommitDrops ++
              [⟨messageId, .commit, .invalidAgainstCandidateState⟩] }, extended)
        | (.ok (.invalidCommit messageId), budget) =>
          .ok ({ search with
            budget
            invalidCommitDrops := search.invalidCommitDrops ++
              [⟨messageId, .commit, .invalidAgainstCandidateState⟩] }, extended)

/-- A path tried with every commit: it is completed when none extends it. -/
def expandPath (group : Group) (pendingProposals : List TransportMessage)
    (commits : List StoredCommitMessage) (search : PathSearch) (path : CandidatePathProbe) :
    Except OpenMlsProjectionError PathSearch :=
  match commits.foldlM (mls.extendPath group pendingProposals path) (search, false) with
  | .error e => .error e
  | .ok (search, extended) =>
    if path.messages ≠ [] ∧ !extended then
      .ok { search with completed := search.completed ++ [path] }
    else
      .ok search

/-- Levels of paths, until a level is empty. -/
def searchLevels (group : Group) (pendingProposals : List TransportMessage)
    (commits : List StoredCommitMessage) :
    Nat → List CandidatePathProbe → PathSearch → Except OpenMlsProjectionError PathSearch
  | 0, _, search => .ok search
  | _ + 1, [], search => .ok search
  | levels + 1, path :: frontier, search =>
    match (path :: frontier).foldlM (mls.expandPath group pendingProposals commits)
        { search with nextFrontier := [] } with
    | .error e => .error e
    | .ok search => searchLevels group pendingProposals commits levels search.nextFrontier search

/-- **The candidate paths of a set of stored commits.** -/
def buildStoredOpenmlsCandidatePaths (group : Group) (commits : List StoredCommitMessage)
    (pendingMessages : List TransportMessage) (startingEpoch maxRewindCommits : Nat) :
    Except OpenMlsProjectionError StoredOpenMlsCandidatePathResult :=
  let commits := sortBy compareStoredCommits commits
  match mls.pendingProposalMessages pendingMessages with
  | .error e => .error e
  | .ok pendingProposals =>
    let start : PathSearch :=
      { budget := .forPass commits.length maxRewindCommits
        nextFrontier := []
        completed := []
        invalidCommitDrops := []
        seenPaths := [[]] }
    match mls.searchLevels group pendingProposals commits (commits.length + 1)
        [⟨[], [], startingEpoch, none⟩] start with
    | .error e => .error e
    | .ok search =>
      .ok
        { candidatePaths := search.completed.map fun path =>
            ⟨mls.branchIdForPathDigests path.digests, path.messages⟩
          materialized := search.completed.filterMap CandidatePathProbe.materialized
          invalidCommitDrops := search.invalidCommitDrops }

end OpenMls

/-! ### Replays of well-formed messages -/

section Replays

variable {mls : OpenMls Group}

/-- The errors that only say that a path does not replay. -/
def OpenMlsProjectionError.isReplayFailure : OpenMlsProjectionError → Bool
  | .replay | .unauthorizedCommit _ | .invalidCommit _ => true
  | _ => false

def OpenMls.IsProtocol (mls : OpenMls Group) (message : TransportMessage) : Prop :=
  ∃ protocol, mls.decode message.payload = .ok (some protocol)

def OpenMls.IsCommit (mls : OpenMls Group) (message : TransportMessage) : Prop :=
  ∃ epoch, mls.decode message.payload = .ok (some ⟨.commit, epoch⟩)

variable {group : Group} {message : TransportMessage} {e : OpenMlsProjectionError}
  {messages : List TransportMessage}

/-- Only a commit breaks a rule for commits; the other messages fail to replay. -/
theorem processOpenmlsMessage_error (protocol : mls.IsProtocol message)
    (failed : mls.processOpenmlsMessage group message = .error e) :
    e = .replay ∨
      mls.IsCommit message ∧ (e = .unauthorizedCommit message.id ∨ e = .invalidCommit message.id) := by
  obtain ⟨⟨contentType, epoch⟩, decoded⟩ := protocol
  rw [processOpenmlsMessage, decoded] at failed
  cases contentType with
  | commit =>
    have isCommit : mls.IsCommit message := ⟨epoch, decoded⟩
    cases outcome : mls.processCommit group message.payload <;>
      simp only [outcome] at failed <;> cases failed <;> simp [isCommit]
  | proposal =>
    cases outcome : mls.processProposal group message.payload <;>
      simp only [outcome] at failed <;> cases failed
    exact .inl rfl
  | application =>
    cases outcome : mls.processApplication group message.payload <;>
      simp only [outcome] at failed <;> cases failed
    exact .inl rfl

theorem processOpenmlsMessagesInner_error (protocol : ∀ message ∈ messages, mls.IsProtocol message)
    (failed : mls.processOpenmlsMessagesInner group messages = .error e) :
    e = .replay ∨ ∃ message ∈ messages, mls.IsCommit message ∧
      (e = .unauthorizedCommit message.id ∨ e = .invalidCommit message.id) := by
  induction messages generalizing group with
  | nil => cases failed
  | cons message rest ih =>
    rcases processOpenmlsMessagesInner_cons_error.mp failed with
      here | ⟨observation, next, _, later⟩
    · exact (processOpenmlsMessage_error (protocol message mem_cons_self) here).imp_right
        fun broken => ⟨message, mem_cons_self, broken⟩
    · refine (ih (fun other member => protocol other (mem_cons_of_mem _ member)) later).imp_right
        ?_
      rintro ⟨found, member, broken⟩
      exact ⟨found, mem_cons_of_mem _ member, broken⟩

def OpenMlsReplayObservation.isCommit : OpenMlsReplayObservation → Bool
  | .commitStaged .. => true
  | _ => false

theorem processOpenmlsMessagesInner_commit {output : OpenMlsReplayOutput Group}
    (member : message ∈ messages) (commit : mls.IsCommit message)
    (replayed : mls.processOpenmlsMessagesInner group messages = .ok output) :
    ∃ observation ∈ output.observations, observation.isCommit := by
  induction messages generalizing group output with
  | nil => exact absurd member not_mem_nil
  | cons head rest ih =>
    obtain ⟨observation, _, _, first, replays, rfl⟩ :=
      processOpenmlsMessagesInner_cons_ok.mp replayed
    rcases mem_cons.mp member with rfl | member
    · refine ⟨observation, mem_cons_self, ?_⟩
      obtain ⟨_, decoded⟩ := commit
      rw [processOpenmlsMessage, decoded] at first
      cases outcome : mls.processCommit group message.payload <;>
        simp only [outcome] at first <;> cases first
      rfl
    · obtain ⟨found, here, isCommit⟩ := ih member replays
      exact ⟨found, mem_cons_of_mem _ here, isCommit⟩

theorem foldl_observePathCommit_isSome {messages : List TransportMessage}
    (observations : List OpenMlsReplayObservation) (commits : Option PathCommits)
    (observed : commits.isSome ∨ ∃ observation ∈ observations, observation.isCommit) :
    (observations.foldl (mls.observePathCommit messages) commits).isSome := by
  induction observations generalizing commits with
  | nil =>
    rcases observed with here | ⟨_, member, _⟩
    · exact here
    · exact absurd member not_mem_nil
  | cons observation rest ih =>
    refine ih _ ?_
    cases observation with
    | commitStaged => exact Or.inl rfl
    | proposalStored | applicationProcessed | ignored =>
      rcases observed with here | ⟨found, member, isCommit⟩
      · exact Or.inl here
      · rcases mem_cons.mp member with rfl | member
        · cases isCommit
        · exact Or.inr ⟨found, member, isCommit⟩

/-- A path of protocol messages with a commit either replays or fails to replay. -/
theorem materialize_error {group : Group} {path : OpenMlsCandidatePath} {e : OpenMlsProjectionError}
    {message : TransportMessage} (protocol : ∀ message ∈ path.messages, mls.IsProtocol message)
    (member : message ∈ path.messages) (commit : mls.IsCommit message)
    (failed : mls.materializeOpenmlsCandidatePath group path = .error e) :
    e.isReplayFailure := by
  rw [materializeOpenmlsCandidatePath] at failed
  cases replayed : mls.processOpenmlsMessagesInner group path.messages with
  | error =>
    simp only [replayed] at failed
    cases failed
    obtain rfl | ⟨_, _, _, rfl | rfl⟩ := processOpenmlsMessagesInner_error protocol replayed <;> rfl
  | ok output =>
    simp only [replayed] at failed
    have observed := @foldl_observePathCommit_isSome _ mls path.messages output.observations none
      (Or.inr (processOpenmlsMessagesInner_commit member commit replayed))
    cases folded : output.observations.foldl (mls.observePathCommit path.messages) none with
    | none => rw [folded] at observed; cases observed
    | some => simp only [folded] at failed; cases failed

end Replays

/-! ### The tree of replayable paths -/

section Tree

variable (mls : OpenMls Group) (group : Group) (proposals : List TransportMessage)
  (commits : List StoredCommitMessage)

/-- The commits of a list with a digest that was not met before. -/
def firstByDigest (seen : List Bytes) : List StoredCommitMessage → List StoredCommitMessage
  | [] => []
  | commit :: rest =>
    if commit.digest ∈ seen then
      firstByDigest seen rest
    else
      commit :: firstByDigest (commit.digest :: seen) rest

/-- A commit that may follow a path: made at its tip and not yet on it. -/
def CandidatePathProbe.fits (path : CandidatePathProbe) (commit : StoredCommitMessage) : Bool :=
  commit.sourceEpoch = path.tipEpoch ∧ commit.digest ∉ path.digests

/-- The commits whose extension of a path is replayed. -/
def CandidatePathProbe.tried (path : CandidatePathProbe) : List StoredCommitMessage :=
  firstByDigest [] (commits.filter path.fits)

/-- The replay of a path extended by a commit. -/
def OpenMls.replayExtension (path : CandidatePathProbe) (commit : StoredCommitMessage) :
    Except OpenMlsProjectionError OpenMlsMaterializedCandidate :=
  mls.materializeOpenmlsCandidatePath group
    ⟨mls.branchIdForPathDigests (path.digests ++ [commit.digest]),
      proposals ++ (path.messages ++ [commit.message])⟩

/-- The path extended by a commit, if it replays. -/
def OpenMls.childPath (path : CandidatePathProbe) (commit : StoredCommitMessage) :
    Option CandidatePathProbe :=
  match mls.replayExtension group proposals path commit with
  | .ok candidate =>
    some ⟨path.messages ++ [commit.message], path.digests ++ [commit.digest], candidate.tipEpoch,
      some candidate⟩
  | .error _ => none

/-- A commit that is dropped because the extension of a path by it breaks a rule. -/
def OpenMls.Blames (path : CandidatePathProbe) (commit : StoredCommitMessage)
    (dropped : DroppedMessage) : Prop :=
  mls.replayExtension group proposals path commit = .error (.unauthorizedCommit dropped.messageId) ∨
    mls.replayExtension group proposals path commit = .error (.invalidCommit dropped.messageId)

/-- The replayable extensions of a path. -/
def OpenMls.childPaths (path : CandidatePathProbe) : List CandidatePathProbe :=
  (path.tried commits).filterMap (mls.childPath group proposals path)

/-- A path the search keeps: it has commits and no replayable extension. -/
def OpenMls.ended (path : CandidatePathProbe) : Bool :=
  path.messages ≠ [] ∧ mls.childPaths group proposals commits path = []

/-- Stored commits and pending proposals as the stored records give them: the commits decode to
commits of their epoch, the proposals to proposals, and no two messages share an id. -/
structure StoredMessages : Prop where
  commit : ∀ commit ∈ commits,
    mls.decode commit.message.payload = .ok (some ⟨.commit, commit.sourceEpoch⟩)
  proposal : ∀ message ∈ proposals, ∃ epoch, mls.decode message.payload = .ok (some ⟨.proposal, epoch⟩)
  ids : (proposals.map TransportMessage.id ++ commits.map fun commit => commit.message.id).Nodup

open StoredCommitMessage (digest)

/-- A path made of stored commits with distinct digests. -/
def IsPath (path : CandidatePathProbe) (chain : List StoredCommitMessage) : Prop :=
  chain ⊆ commits ∧ path.messages = chain.map StoredCommitMessage.message ∧
    path.digests = chain.map digest ∧ path.digests.Nodup

variable {mls group proposals commits}
  {messages : List TransportMessage} {path : CandidatePathProbe}
  {commit : StoredCommitMessage} {seen : List Bytes} {list chain : List StoredCommitMessage}
  {startingEpoch : Nat}

theorem keepFirstById_eq (seen : List String) (fresh : ∀ message ∈ messages, message.id ∉ seen)
    (distinct : (messages.map TransportMessage.id).Nodup) :
    keepFirstById seen messages = messages := by
  induction messages generalizing seen with
  | nil => rfl
  | cons message rest ih =>
    rw [map_cons, nodup_cons] at distinct
    rw [keepFirstById, if_neg (fresh message mem_cons_self), ih _ ?_ distinct.2]
    intro other member again
    rcases mem_cons.mp again with same | old
    · exact distinct.1 (same ▸ mem_map_of_mem member)
    · exact fresh other (mem_cons_of_mem _ member) old

theorem messagesOfKind_proposals (kind : OpenMlsContentKind)
    (allProposals : ∀ message ∈ proposals,
      ∃ epoch, mls.decode message.payload = .ok (some ⟨.proposal, epoch⟩)) :
    mls.messagesOfKind kind proposals = .ok (if kind = .proposal then proposals else []) := by
  induction proposals with
  | nil => simp [messagesOfKind]
  | cons message rest ih =>
    obtain ⟨_, decoded⟩ := allProposals message mem_cons_self
    rw [messagesOfKind, ih fun other member =>
      allProposals other (mem_cons_of_mem _ member)]
    simp only [projectMlsMessage, decoded, kindFromContentType]
    by_cases isProposal : kind = .proposal
    · simp [isProposal]
    · simp [isProposal, Ne.symm isProposal]

theorem extendPath_skip {search : PathSearch} (extended : Bool)
    (skip : ¬ path.fits commit ∨ path.digests ++ [commit.digest] ∈ search.seenPaths) :
    mls.extendPath group proposals path (search, extended) commit = .ok (search, extended) := by
  rw [OpenMls.extendPath]
  split
  · rfl
  · rename_i fits
    rcases skip with other | again
    · refine absurd ?_ other
      simp only [CandidatePathProbe.fits, decide_eq_true_eq]
      tauto
    · rw [if_pos again]

theorem mem_firstByDigest (member : commit ∈ firstByDigest seen list) :
    commit ∈ list ∧ commit.digest ∉ seen := by
  induction list generalizing seen with
  | nil => exact absurd member not_mem_nil
  | cons head rest ih =>
    rw [firstByDigest] at member
    split at member
    · exact ⟨mem_cons_of_mem _ (ih member).1, (ih member).2⟩
    · rename_i fresh
      rcases mem_cons.mp member with rfl | later
      · exact ⟨mem_cons_self, fresh⟩
      · exact ⟨mem_cons_of_mem _ (ih later).1,
          fun old => (ih later).2 (mem_cons_of_mem _ old)⟩

theorem firstByDigest_nodup (seen : List Bytes) (list : List StoredCommitMessage) :
    ((firstByDigest seen list).map digest).Nodup := by
  induction list generalizing seen with
  | nil => exact nodup_nil
  | cons head rest ih =>
    rw [firstByDigest]
    split
    · exact ih seen
    · refine nodup_cons.mpr ⟨fun again => ?_, ih _⟩
      obtain ⟨_, later, same⟩ := mem_map.mp again
      exact (mem_firstByDigest later).2 (same ▸ mem_cons_self)

theorem exists_mem_firstByDigest (member : commit ∈ list) (fresh : commit.digest ∉ seen) :
    ∃ first ∈ firstByDigest seen list, first.digest = commit.digest := by
  induction list generalizing seen with
  | nil => exact absurd member not_mem_nil
  | cons head rest ih =>
    rw [firstByDigest]
    rcases mem_cons.mp member with rfl | later
    · rw [if_neg fresh]
      exact ⟨commit, mem_cons_self, rfl⟩
    · split
      · exact ih later fresh
      · by_cases same : commit.digest = head.digest
        · exact ⟨head, mem_cons_self, same.symm⟩
        · have still : commit.digest ∉ head.digest :: seen := by
            rw [mem_cons]
            tauto
          obtain ⟨first, here, digest⟩ := ih later still
          exact ⟨first, mem_cons_of_mem _ here, digest⟩

theorem mem_tried (member : commit ∈ path.tried commits) : commit ∈ commits ∧ path.fits commit :=
  mem_filter.mp (mem_firstByDigest member).1

theorem mem_childPaths {child : CandidatePathProbe} :
    child ∈ mls.childPaths group proposals commits path ↔
      ∃ commit ∈ path.tried commits, mls.childPath group proposals path commit = some child :=
  mem_filterMap

theorem childPath_eq_some {child : CandidatePathProbe} :
    mls.childPath group proposals path commit = some child ↔
      ∃ candidate, mls.replayExtension group proposals path commit = .ok candidate ∧
        child = ⟨path.messages ++ [commit.message], path.digests ++ [commit.digest],
          candidate.tipEpoch, some candidate⟩ := by
  rw [childPath]
  cases mls.replayExtension group proposals path commit with
  | ok => simp [eq_comm]
  | error => simp

theorem IsPath.extend (isPath : IsPath commits path chain) (member : commit ∈ commits)
    (fits : path.fits commit) :
    (chain ++ [commit]) ⊆ commits ∧
      path.messages ++ [commit.message] = (chain ++ [commit]).map StoredCommitMessage.message ∧
      path.digests ++ [commit.digest] = (chain ++ [commit]).map digest ∧
      (path.digests ++ [commit.digest]).Nodup := by
  obtain ⟨known, messages, digests, distinct⟩ := isPath
  simp only [CandidatePathProbe.fits, decide_eq_true_eq] at fits
  refine ⟨?_, by rw [messages, map_append]; rfl, by rw [digests, map_append]; rfl, ?_⟩
  · intro _ here
    rcases mem_append.mp here with old | new
    · exact known old
    · exact mem_singleton.mp new ▸ member
  · rw [nodup_append]
    refine ⟨distinct, nodup_singleton _, fun a old b new same => fits.2 ?_⟩
    rw [← mem_singleton.mp new, ← same]
    exact old

theorem IsPath.child {child : CandidatePathProbe} (isPath : IsPath commits path chain)
    (member : child ∈ mls.childPaths group proposals commits path) :
    ∃ commit ∈ path.tried commits, IsPath commits child (chain ++ [commit]) ∧
      child.digests = path.digests ++ [commit.digest] := by
  obtain ⟨commit, here, extended⟩ := mem_childPaths.mp member
  obtain ⟨_, _, rfl⟩ := childPath_eq_some.mp extended
  exact ⟨commit, here, isPath.extend (mem_tried here).1 (mem_tried here).2, rfl⟩

theorem childPaths_isPath {child : CandidatePathProbe} (isPath : ∃ chain, IsPath commits path chain)
    (member : child ∈ mls.childPaths group proposals commits path) :
    ∃ chain, IsPath commits child chain := by
  obtain ⟨_, isPath⟩ := isPath
  obtain ⟨_, _, isPath', _⟩ := isPath.child member
  exact ⟨_, isPath'⟩

open CandidatePathProbe (digests)

theorem childPaths_digests_nodup (path : CandidatePathProbe) :
    ((mls.childPaths group proposals commits path).map digests).Nodup := by
  have distinct := firstByDigest_nodup [] (commits.filter path.fits)
  rw [childPaths, CandidatePathProbe.tried]
  generalize firstByDigest [] (commits.filter path.fits) = list at distinct
  induction list with
  | nil => exact nodup_nil
  | cons commit rest ih =>
    rw [map_cons, nodup_cons] at distinct
    rw [filterMap_cons]
    cases extended : mls.childPath group proposals path commit with
    | none => exact ih distinct.2
    | some =>
      refine nodup_cons.mpr ⟨fun again => distinct.1 ?_, ih distinct.2⟩
      obtain ⟨_, later, same⟩ := mem_map.mp again
      obtain ⟨commit', member, extended'⟩ := mem_filterMap.mp later
      obtain ⟨_, _, rfl⟩ := childPath_eq_some.mp extended
      obtain ⟨_, _, rfl⟩ := childPath_eq_some.mp extended'
      have digest : commit'.digest = commit.digest :=
        (cons.inj (append_cancel_left same)).1
      exact digest ▸ mem_map_of_mem member

theorem flatMap_childPaths_nodup {frontier : List CandidatePathProbe}
    (distinct : (frontier.map digests).Nodup) :
    ((frontier.flatMap (mls.childPaths group proposals commits)).map
      digests).Nodup := by
  induction frontier with
  | nil => exact nodup_nil
  | cons path rest ih =>
    rw [map_cons, nodup_cons] at distinct
    rw [flatMap_cons, map_append, nodup_append]
    refine ⟨childPaths_digests_nodup path, ih distinct.2, ?_⟩
    intro _ here _ there same
    obtain ⟨_, isChild, rfl⟩ := mem_map.mp here
    obtain ⟨_, isChild', rfl⟩ := mem_map.mp there
    obtain ⟨other, member, isChild'⟩ := mem_flatMap.mp isChild'
    obtain ⟨_, _, extended⟩ := mem_childPaths.mp isChild
    obtain ⟨_, _, rfl⟩ := childPath_eq_some.mp extended
    obtain ⟨_, _, extended'⟩ := mem_childPaths.mp isChild'
    obtain ⟨_, _, rfl⟩ := childPath_eq_some.mp extended'
    have here : path.digests = other.digests := (append_inj' same rfl).1
    exact distinct.1 (here ▸ mem_map_of_mem member)

/-- **What a part of the search adds**: replays, paths of the next level, paths that ended, tried
paths and dropped commits. -/
structure PathSearch.Adds (search after : PathSearch) (cost : Nat)
    (children ended : List CandidatePathProbe) (tried : List Bytes → Prop)
    (blamed : DroppedMessage → Prop) : Prop where
  budget : after.budget.remaining + cost = search.budget.remaining
  nextFrontier : after.nextFrontier = search.nextFrontier ++ children
  completed : after.completed = search.completed ++ ended
  seenPaths : ∀ path ∈ after.seenPaths, path ∈ search.seenPaths ∨ tried path
  drops : ∀ dropped ∈ after.invalidCommitDrops, dropped ∈ search.invalidCommitDrops ∨ blamed dropped

namespace PathSearch.Adds

variable {search next after : PathSearch} {cost cost' total : Nat}
  {children children' ended ended' allChildren allEnded : List CandidatePathProbe}
  {tried tried' allTried : List Bytes → Prop} {blamed blamed' allBlamed : DroppedMessage → Prop}

theorem refl (search : PathSearch) (tried : List Bytes → Prop) (blamed : DroppedMessage → Prop) :
    search.Adds search 0 [] [] tried blamed :=
  ⟨rfl, (append_nil _).symm, (append_nil _).symm, fun _ => .inl, fun _ => .inl⟩

theorem trans (first : search.Adds next cost children ended tried blamed)
    (second : next.Adds after cost' children' ended' tried' blamed')
    (sum : cost + cost' = total) (childrenOf : children ++ children' = allChildren)
    (endedOf : ended ++ ended' = allEnded) (triedOf : ∀ path, tried path ∨ tried' path → allTried path)
    (blamedOf : ∀ dropped, blamed dropped ∨ blamed' dropped → allBlamed dropped) :
    search.Adds after total allChildren allEnded allTried allBlamed where
  budget := by rw [← first.budget, ← second.budget, ← sum, Nat.add_assoc, Nat.add_comm cost]
  nextFrontier := by rw [second.nextFrontier, first.nextFrontier, append_assoc, childrenOf]
  completed := by rw [second.completed, first.completed, append_assoc, endedOf]
  seenPaths := fun path member => by
    rcases second.seenPaths path member with old | new
    · exact (first.seenPaths path old).imp_right fun here => triedOf path (.inl here)
    · exact .inr (triedOf path (.inr new))
  drops := fun dropped member => by
    rcases second.drops dropped member with old | new
    · exact (first.drops dropped old).imp_right fun here => blamedOf dropped (.inl here)
    · exact .inr (blamedOf dropped (.inr new))

end PathSearch.Adds

namespace StoredMessages

variable (stored : StoredMessages mls proposals commits)

include stored

variable {chain : List StoredCommitMessage} {path : CandidatePathProbe} {depth : Nat}
  {frontier : List CandidatePathProbe} {search : PathSearch}

theorem path_ids (known : chain ⊆ commits) (distinct : (chain.map digest).Nodup) :
    ((proposals ++ chain.map StoredCommitMessage.message).map TransportMessage.id).Nodup := by
  obtain ⟨first, _, apart⟩ := nodup_append.mp stored.ids
  rw [map_append, map_map, nodup_append]
  refine ⟨first, ?_, ?_⟩
  · refine (nodup_map_iff_inj_on (List.Nodup.of_map _ distinct)).mpr ?_
    exact fun a here b there =>
      inj_on_of_nodup_map (nodup_append.mp stored.ids).2.1 (known here) (known there)
  · intro id proposal _ commit
    obtain ⟨c, member, rfl⟩ := mem_map.mp commit
    exact apart id proposal _ (mem_map.mpr ⟨c, known member, rfl⟩)

theorem isProtocol_path (known : chain ⊆ commits) :
    ∀ message ∈ proposals ++ chain.map StoredCommitMessage.message, mls.IsProtocol message := by
  intro message member
  rcases mem_append.mp member with proposal | commit
  · obtain ⟨_, decoded⟩ := stored.proposal message proposal
    exact ⟨_, decoded⟩
  · obtain ⟨c, here, rfl⟩ := mem_map.mp commit
    exact ⟨_, stored.commit c (known here)⟩

variable {path : CandidatePathProbe}

theorem replayExtension_error {chain : List StoredCommitMessage}
    (isPath : IsPath commits path chain) {commit : StoredCommitMessage} (member : commit ∈ commits)
    (fits : path.fits commit) {e : OpenMlsProjectionError}
    (failed : mls.replayExtension group proposals path commit = .error e) :
    e.isReplayFailure := by
  obtain ⟨known, messages, _, _⟩ := isPath.extend member fits
  refine @materialize_error _ _ _ _ _ commit.message ?_ ?_
    ⟨_, stored.commit commit member⟩ failed
  · intro message here
    simp only [messages] at here
    exact stored.isProtocol_path known message here
  · simp

/-- **A probe of a fitting commit** costs one replay and is the replay of the extension. -/
theorem probeCandidatePath_eq (isPath : IsPath commits path chain) {commit : StoredCommitMessage}
    (member : commit ∈ commits) (fits : path.fits commit) (budget : ReplayBudget) :
    mls.probeCandidatePath group (path.messages ++ [commit.message])
        (path.digests ++ [commit.digest]) proposals budget =
      if budget.remaining = 0 then
        (.error .replayBudgetExceeded, budget)
      else
        (match mls.replayExtension group proposals path commit with
          | .ok candidate => .ok (.materialized (some candidate))
          | .error (.unauthorizedCommit messageId) => .ok (.unauthorizedCommit messageId)
          | .error (.invalidCommit messageId) => .ok (.invalidCommit messageId)
          | .error .replay => .ok (.materialized none)
          | .error e => .error e, ⟨budget.remaining - 1⟩) := by
  obtain ⟨known, messages, digests, distinct⟩ := isPath.extend member fits
  have ids := stored.path_ids known (digests ▸ distinct)
  have nonempty : proposals ++ (path.messages ++ [commit.message]) ≠ [] := by simp
  rw [OpenMls.probeCandidatePath, candidatePathsWithPendingReplayMessages,
    messagesOfKind_proposals _ stored.proposal, messagesOfKind_proposals _ stored.proposal]
  simp only [reduceCtorEq, if_true, if_false, map_cons, map_nil, append_nil,
    materializeOpenmlsCandidatePathsBudgeted, materializePaths]
  rw [messages] at nonempty ⊢
  rw [keepFirstById_eq [] (fun _ _ => not_mem_nil) ids, if_neg nonempty]
  by_cases empty : budget.remaining = 0
  · simp only [ReplayBudget.consume, empty, if_true]
  · simp only [ReplayBudget.consume, empty, if_false, replayExtension, messages]
    cases replayed : mls.materializeOpenmlsCandidatePath group
        ⟨mls.branchIdForPathDigests (path.digests ++ [commit.digest]),
          proposals ++ (chain ++ [commit]).map StoredCommitMessage.message⟩ with
    | ok candidate => rfl
    | error e => cases e <;> rfl

/-- One step of the search with a fitting commit whose path was not tried. -/
theorem extendPath_fits {chain : List StoredCommitMessage}
    (isPath : IsPath commits path chain) {commit : StoredCommitMessage} (member : commit ∈ commits)
    (fits : path.fits commit) {search : PathSearch} (extended : Bool)
    (fresh : path.digests ++ [commit.digest] ∉ search.seenPaths) :
    (search.budget.remaining = 0 ∧
        mls.extendPath group proposals path (search, extended) commit =
          .error .replayBudgetExceeded) ∨
      ∃ next, mls.extendPath group proposals path (search, extended) commit =
          .ok (next, extended || (mls.childPath group proposals path commit).isSome) ∧
        next.seenPaths = (path.digests ++ [commit.digest]) :: search.seenPaths ∧
        search.Adds next 1 (mls.childPath group proposals path commit).toList []
          (· = path.digests ++ [commit.digest]) (mls.Blames group proposals path commit) := by
  have failure := fun e => @replayExtension_error _ mls group proposals commits stored path chain
    isPath commit member fits e
  have skip : ¬ (commit.sourceEpoch ≠ path.tipEpoch ∨ commit.digest ∈ path.digests) := by
    simp only [CandidatePathProbe.fits, decide_eq_true_eq] at fits
    rintro (other | again)
    · exact other fits.1
    · exact fits.2 again
  rw [OpenMls.extendPath, if_neg skip, if_neg fresh]
  simp only [stored.probeCandidatePath_eq isPath member fits, childPath]
  by_cases empty : search.budget.remaining = 0
  · exact Or.inl ⟨empty, by rw [if_pos empty]⟩
  · have paid : search.budget.remaining - 1 + 1 = search.budget.remaining := by omega
    refine Or.inr ?_
    rw [if_neg empty]
    have stays := (append_nil search.completed).symm
    have tries : ∀ tried ∈ (path.digests ++ [commit.digest]) :: search.seenPaths,
        tried ∈ search.seenPaths ∨ tried = path.digests ++ [commit.digest] :=
      fun tried listed => (mem_cons.mp listed).symm
    have blames : ∀ rejected : DroppedMessage, mls.Blames group proposals path commit rejected →
        ∀ dropped ∈ search.invalidCommitDrops ++ [rejected], dropped ∈ search.invalidCommitDrops ∨
          mls.Blames group proposals path commit dropped := by
      intro _ blamed _ listed
      rcases mem_append.mp listed with old | new
      · exact .inl old
      · exact .inr (mem_singleton.mp new ▸ blamed)
    cases replayed : mls.replayExtension group proposals path commit with
    | ok =>
      simp only [Option.isSome_some, Bool.or_true]
      exact ⟨_, rfl, rfl, paid, rfl, stays, tries, fun _ => .inl⟩
    | error e =>
      have replayFailure := failure e replayed
      have noChild := (append_nil search.nextFrontier).symm
      simp only [Option.isSome_none, Bool.or_false, Option.toList_none]
      cases e with
      | replay => exact ⟨_, rfl, rfl, paid, noChild, stays, tries, fun _ => .inl⟩
      | unauthorizedCommit =>
        exact ⟨_, rfl, rfl, paid, noChild, stays, tries, blames _ (.inl replayed)⟩
      | invalidCommit =>
        exact ⟨_, rfl, rfl, paid, noChild, stays, tries, blames _ (.inr replayed)⟩
      | _ => cases replayFailure

/-- **A path tried with a list of commits.** `done` are the digests already tried at its end. -/
theorem foldlM_extendPath {chain : List StoredCommitMessage}
    (isPath : IsPath commits path chain) (rest : List StoredCommitMessage) (known : rest ⊆ commits)
    (search : PathSearch) (extended : Bool) (done : List Bytes)
    (seen : ∀ digest, path.digests ++ [digest] ∈ search.seenPaths ↔ digest ∈ done) :
    (∃ after, rest.foldlM (mls.extendPath group proposals path) (search, extended) =
          .ok (after, extended || !((firstByDigest done (rest.filter path.fits)).filterMap
            (mls.childPath group proposals path)).isEmpty) ∧
        search.Adds after (firstByDigest done (rest.filter path.fits)).length
          ((firstByDigest done (rest.filter path.fits)).filterMap
            (mls.childPath group proposals path)) []
          (fun tried => ∃ digest, tried = path.digests ++ [digest])
          (fun dropped => ∃ commit ∈ firstByDigest done (rest.filter path.fits),
            mls.Blames group proposals path commit dropped)) ∨
      search.budget.remaining < (firstByDigest done (rest.filter path.fits)).length ∧
        rest.foldlM (mls.extendPath group proposals path) (search, extended) =
          .error .replayBudgetExceeded := by
  induction rest generalizing search extended done with
  | nil => exact Or.inl ⟨search, by simp [firstByDigest, pure, Except.pure], .refl _ _ _⟩
  | cons commit rest ih =>
    have member : commit ∈ commits := known mem_cons_self
    have later : rest ⊆ commits := fun other here => known (mem_cons_of_mem _ here)
    rw [foldlM_cons]
    by_cases fits : path.fits commit
    · rw [filter_cons_of_pos fits]
      by_cases again : commit.digest ∈ done
      · rw [extendPath_skip extended (Or.inr ((seen commit.digest).mpr again)), firstByDigest,
          if_pos again]
        exact ih later search extended done seen
      · have fresh : path.digests ++ [commit.digest] ∉ search.seenPaths :=
          fun old => again ((seen commit.digest).mp old)
        rw [firstByDigest, if_neg again]
        rcases @extendPath_fits _ mls group proposals commits stored path chain isPath commit member
          fits search extended fresh with ⟨empty, stepped⟩ | ⟨next, stepped, new, adds⟩
        · refine Or.inr ⟨by simp [empty], ?_⟩
          rw [stepped]
          rfl
        · have seen' : ∀ digest, path.digests ++ [digest] ∈ next.seenPaths ↔
              digest ∈ commit.digest :: done := by
            intro _
            rw [new, mem_cons, mem_cons, seen, append_cancel_left_eq, cons.injEq]
            tauto
          rw [stepped, length_cons, filterMap_cons]
          rcases ih later next _ _ seen' with ⟨after, ran, more⟩ | ⟨_, ran⟩
          · refine Or.inl ⟨after, ran.trans ?_, adds.trans more (Nat.add_comm _ _) ?_ rfl ?_ ?_⟩
            · cases mls.childPath group proposals path commit <;> simp
            · cases mls.childPath group proposals path commit <;> simp
            · rintro _ (here | here)
              · exact ⟨_, here⟩
              · exact here
            · rintro _ (blames | ⟨other, here, blames⟩)
              · exact ⟨commit, mem_cons_self, blames⟩
              · exact ⟨other, mem_cons_of_mem _ here, blames⟩
          · exact Or.inr ⟨by have := adds.budget; omega, ran⟩
    · rw [extendPath_skip extended (Or.inl fits), filter_cons_of_neg fits]
      exact ih later search extended done seen

/-- **A path expanded.** -/
theorem expandPath_eq (isPath : IsPath commits path chain) (search : PathSearch)
    (fresh : ∀ digest, path.digests ++ [digest] ∉ search.seenPaths) :
    (∃ after, mls.expandPath group proposals commits search path = .ok after ∧
        search.Adds after (path.tried commits).length (mls.childPaths group proposals commits path)
          (if mls.ended group proposals commits path then [path] else [])
          (fun tried => ∃ digest, tried = path.digests ++ [digest])
          (fun dropped => ∃ commit ∈ path.tried commits,
            mls.Blames group proposals path commit dropped)) ∨
      search.budget.remaining < (path.tried commits).length ∧
        mls.expandPath group proposals commits search path = .error .replayBudgetExceeded := by
  have untried : ∀ digest, path.digests ++ [digest] ∈ search.seenPaths ↔ digest ∈ [] := by
    simpa using fresh
  rcases @foldlM_extendPath _ mls group proposals commits stored path chain isPath commits
    (List.Subset.refl _) search false [] untried with
    ⟨after, ran, cost, front, completed, tried, drops⟩ | ⟨cost, ran⟩
  · refine Or.inl ?_
    rw [OpenMls.expandPath, ran]
    rw [append_nil] at completed
    by_cases ends : mls.ended group proposals commits path
    · have parts := ends
      simp only [OpenMls.ended, decide_eq_true_eq] at parts
      have none : (firstByDigest [] (commits.filter path.fits)).filterMap
        (mls.childPath group proposals path) = [] := parts.2
      refine ⟨{ after with completed := after.completed ++ [path] }, ?_, cost, front, ?_, tried,
        drops⟩
      · simp only [none, parts.1, isEmpty_nil, Bool.not_true, Bool.or_false, Bool.not_false,
          ne_eq, not_false_eq_true, and_self, if_true]
      · simp only [completed, ends, if_true]
    · have parts := ends
      simp only [OpenMls.ended, decide_eq_true_eq] at parts
      refine ⟨after, ?_, cost, front, by simp [completed, ends], tried, drops⟩
      show (if path.messages ≠ [] ∧ _ then _ else _) = _
      rw [if_neg]
      rintro ⟨nonempty, extended⟩
      refine parts ⟨nonempty, ?_⟩
      simpa [childPaths, CandidatePathProbe.tried] using extended
  · refine Or.inr ⟨cost, ?_⟩
    rw [OpenMls.expandPath, ran]

/-- **A level expanded.** -/
theorem foldlM_expandPath (frontier : List CandidatePathProbe)
    (paths : ∀ path ∈ frontier, ∃ chain, IsPath commits path chain)
    (distinct : (frontier.map digests).Nodup) (search : PathSearch)
    (fresh : ∀ path ∈ frontier, ∀ digest, path.digests ++ [digest] ∉ search.seenPaths) :
    (∃ after, frontier.foldlM (mls.expandPath group proposals commits) search = .ok after ∧
        search.Adds after (frontier.map fun path => (path.tried commits).length).sum
          (frontier.flatMap (mls.childPaths group proposals commits))
          (frontier.filter (mls.ended group proposals commits))
          (fun tried => ∃ path ∈ frontier, ∃ digest, tried = path.digests ++ [digest])
          (fun dropped => ∃ path ∈ frontier, ∃ commit ∈ path.tried commits,
            mls.Blames group proposals path commit dropped)) ∨
      search.budget.remaining < (frontier.map fun path => (path.tried commits).length).sum ∧
        frontier.foldlM (mls.expandPath group proposals commits) search =
          .error .replayBudgetExceeded := by
  induction frontier generalizing search with
  | nil => exact Or.inl ⟨search, rfl, .refl _ _ _⟩
  | cons path rest ih =>
    obtain ⟨_, isPath⟩ := paths path mem_cons_self
    rw [map_cons, nodup_cons] at distinct
    rw [foldlM_cons, map_cons, sum_cons, flatMap_cons]
    rcases stored.expandPath_eq isPath search (fresh path mem_cons_self) with
      ⟨next, ran, adds⟩ | ⟨cost, ran⟩
    · have fresh' : ∀ other ∈ rest, ∀ digest, other.digests ++ [digest] ∉ next.seenPaths := by
        intro other member digest again
        rcases adds.seenPaths _ again with old | ⟨_, same⟩
        · exact fresh other (mem_cons_of_mem _ member) digest old
        · have here : other.digests = path.digests := (append_inj' same rfl).1
          exact distinct.1 (here ▸ mem_map_of_mem member)
      rw [ran]
      rcases ih (fun other member => paths other (mem_cons_of_mem _ member)) distinct.2 next
        fresh' with ⟨after, ran', more⟩ | ⟨cost', ran'⟩
      · refine Or.inl ⟨after, ran', adds.trans more rfl rfl ?_ ?_ ?_⟩
        · rw [filter_cons]
          split <;> simp
        · rintro _ (here | ⟨other, member, here⟩)
          · exact ⟨path, mem_cons_self, here⟩
          · exact ⟨other, mem_cons_of_mem _ member, here⟩
        · rintro _ (here | ⟨other, member, here⟩)
          · exact ⟨path, mem_cons_self, here⟩
          · exact ⟨other, mem_cons_of_mem _ member, here⟩
      · exact Or.inr ⟨by have := adds.budget; omega, ran'⟩
    · refine Or.inr ⟨by omega, ?_⟩
      rw [ran]
      rfl

omit stored in
variable (commits) in
/-- What holds between two levels: the paths of a level are different, equally long and made of
stored commits, and no longer path was tried. -/
structure IsLevel (depth : Nat) (frontier : List CandidatePathProbe) (search : PathSearch) :
    Prop where
  paths : ∀ path ∈ frontier, ∃ chain, IsPath commits path chain
  distinct : (frontier.map digests).Nodup
  deep : ∀ path ∈ frontier, path.digests.length = depth
  shallow : ∀ tried ∈ search.seenPaths, tried.length ≤ depth

omit stored in
theorem IsLevel.fresh (level : IsLevel commits depth frontier search) :
    ∀ path ∈ frontier, ∀ digest, path.digests ++ [digest] ∉ search.seenPaths := by
  intro path member _ again
  have bound := level.shallow _ again
  rw [length_append, level.deep path member, length_singleton] at bound
  omega

omit stored in
theorem IsLevel.next {next : PathSearch} (level : IsLevel commits depth frontier search)
    (front : next.nextFrontier = frontier.flatMap (mls.childPaths group proposals commits))
    (tried : ∀ tried ∈ next.seenPaths, tried ∈ search.seenPaths ∨
      ∃ path ∈ frontier, ∃ digest, tried = path.digests ++ [digest]) :
    IsLevel commits (depth + 1) next.nextFrontier next where
  paths := by
    intro _ member
    rw [front] at member
    obtain ⟨parent, here, isChild⟩ := mem_flatMap.mp member
    exact childPaths_isPath (level.paths parent here) isChild
  distinct := by
    rw [front]
    exact flatMap_childPaths_nodup level.distinct
  deep := by
    intro _ member
    rw [front] at member
    obtain ⟨parent, here, isChild⟩ := mem_flatMap.mp member
    obtain ⟨_, isPath⟩ := level.paths parent here
    obtain ⟨_, _, _, digests⟩ := isPath.child isChild
    rw [digests, length_append, level.deep parent here, length_singleton]
  shallow := by
    intro old member
    rcases tried old member with older | ⟨parent, here, _, rfl⟩
    · exact Nat.le_succ_of_le (level.shallow old older)
    · rw [length_append, level.deep parent here, length_singleton]

/-- **The levels of the search.** -/
theorem searchLevels_eq (levels depth : Nat) (frontier : List CandidatePathProbe)
    (search : PathSearch) (level : IsLevel commits depth frontier search) :
    (∃ after, mls.searchLevels group proposals commits levels frontier search = .ok after ∧
        after.completed = search.completed ++
          (searchLeaves (mls.childPaths group proposals commits) levels frontier).filter
            (fun path => path.messages ≠ []) ∧
        searchCost (fun path => (path.tried commits).length)
          (mls.childPaths group proposals commits) levels frontier ≤ search.budget.remaining ∧
        ∀ dropped ∈ after.invalidCommitDrops, dropped ∈ search.invalidCommitDrops ∨
          ∃ start ∈ frontier, ∃ path, Below (mls.childPaths group proposals commits) start path ∧
            ∃ commit ∈ path.tried commits, mls.Blames group proposals path commit dropped) ∨
      search.budget.remaining < searchCost (fun path => (path.tried commits).length)
          (mls.childPaths group proposals commits) levels frontier ∧
        mls.searchLevels group proposals commits levels frontier search =
          .error .replayBudgetExceeded := by
  induction levels generalizing depth frontier search with
  | zero =>
    exact Or.inl ⟨search, rfl, by simp [searchLeaves], by simp [searchCost], fun _ old => Or.inl old⟩
  | succ levels ih =>
    cases frontier with
    | nil => exact Or.inl ⟨search, rfl, by simp, by simp, fun _ old => Or.inl old⟩
    | cons path rest =>
      rw [OpenMls.searchLevels, searchLeaves, searchCost]
      rcases @foldlM_expandPath _ mls group proposals commits stored (path :: rest) level.paths
        level.distinct { search with nextFrontier := [] } level.fresh with
        ⟨next, ran, cost, front, completed, tried, drops⟩ | ⟨cost, ran⟩
      · dsimp only at cost completed
        rw [nil_append] at front
        rw [ran]
        have ended : (path :: rest).filter (mls.ended group proposals commits) =
            ((path :: rest).filter fun node =>
              (mls.childPaths group proposals commits node).isEmpty).filter
                fun node => node.messages ≠ [] := by
          rw [filter_filter]
          refine filter_congr fun node _ => ?_
          rw [Bool.eq_iff_iff]
          simp [OpenMls.ended]
        rcases ih (depth + 1) next.nextFrontier next (level.next front tried) with
          ⟨after, ran', completed', cost', drops'⟩ | ⟨cost', ran'⟩
        · refine Or.inl ⟨after, ran', ?_, ?_, fun dropped member => ?_⟩
          · rw [completed', completed, ended, front, filter_append, append_assoc]
          · rw [front] at cost'
            omega
          · rcases drops' dropped member with old | ⟨_, isChild, below⟩
            · refine (drops dropped old).imp_right ?_
              rintro ⟨start, here, blamed⟩
              exact ⟨start, here, start, below_refl start, blamed⟩
            · rw [front] at isChild
              obtain ⟨start, here, isChild⟩ := mem_flatMap.mp isChild
              obtain ⟨path', below, blamed⟩ := below
              exact Or.inr ⟨start, here, path', below_child isChild below, blamed⟩
        · rw [front] at cost'
          exact Or.inr ⟨by omega, ran'⟩
      · rw [ran]
        exact Or.inr ⟨Nat.lt_add_right _ cost, rfl⟩

end StoredMessages

/-! ### The result of the search -/

def rootPath (startingEpoch : Nat) : CandidatePathProbe := ⟨[], [], startingEpoch, none⟩

theorem isPath_root (startingEpoch : Nat) : IsPath commits (rootPath startingEpoch) [] :=
  ⟨nil_subset _, rfl, rfl, nodup_nil⟩

theorem IsPath.length_le (isPath : IsPath commits path chain) :
    path.digests.length ≤ commits.length := by
  obtain ⟨known, _, digests, distinct⟩ := isPath
  have subset : path.digests ⊆ commits.map digest := by
    rw [digests]
    exact map_subset _ known
  have bound := (subperm_of_subset distinct subset).length_le
  rwa [length_map] at bound

def PathSearch.start (commitCount maxRewindCommits : Nat) : PathSearch where
  budget := .forPass commitCount maxRewindCommits
  nextFrontier := []
  completed := []
  invalidCommitDrops := []
  seenPaths := [[]]

theorem isLevel_root (startingEpoch commitCount maxRewindCommits : Nat) :
    StoredMessages.IsLevel commits 0 [rootPath startingEpoch]
      (.start commitCount maxRewindCommits) where
  paths := fun path member => ⟨[], mem_singleton.mp member ▸ isPath_root startingEpoch⟩
  distinct := nodup_singleton _
  deep := fun path member => by rw [mem_singleton.mp member]; rfl
  shallow := fun tried member => by rw [mem_singleton.mp member]; rfl

variable (mls group proposals commits) in
/-- The paths the search keeps, in the order it meets them. -/
def OpenMls.endedPaths (startingEpoch : Nat) : List CandidatePathProbe :=
  (searchLeaves (mls.childPaths group proposals commits) (commits.length + 1)
    [rootPath startingEpoch]).filter fun path => path.messages ≠ []

variable (mls group proposals commits) in
/-- The number of replays the search asks for: every replayable path is tried with every commit
that fits it. -/
def OpenMls.replayCost (startingEpoch : Nat) : Nat :=
  searchCost (fun path => (path.tried commits).length) (mls.childPaths group proposals commits)
    (commits.length + 1) [rootPath startingEpoch]

/-- The kept paths are the childless replayable paths. -/
theorem mem_endedPaths :
    path ∈ mls.endedPaths group proposals commits startingEpoch ↔
      Below (mls.childPaths group proposals commits) (rootPath startingEpoch) path ∧
        mls.childPaths group proposals commits path = [] ∧ path.messages ≠ [] := by
  have leaves := @mem_searchLeaves _ (mls.childPaths group proposals commits)
    (fun path => ∃ chain, IsPath commits path chain)
    (fun path => commits.length - path.digests.length) ?_ ?_ (commits.length + 1)
    [rootPath startingEpoch] ?_ ?_ path
  · rw [endedPaths, mem_filter, leaves, decide_eq_true_eq, and_assoc]
    simp only [mem_singleton, exists_eq_left]
  · exact fun parent isPath child => childPaths_isPath isPath
  · rintro _ ⟨_, isPath⟩ _ member
    obtain ⟨_, _, isPath', digests⟩ := isPath.child member
    have bound := isPath'.length_le
    rw [digests, length_append, length_singleton] at bound ⊢
    omega
  · intro _ member
    rw [mem_singleton.mp member]
    exact ⟨[], isPath_root startingEpoch⟩
  · intro _ _
    omega

theorem isPath_of_below
    (below : Below (mls.childPaths group proposals commits) (rootPath startingEpoch) path) :
    ∃ chain, IsPath commits path chain :=
  below_invariant (fun _ isPath _ => childPaths_isPath isPath) ⟨[], isPath_root startingEpoch⟩ below

/-- A path that ends is a chain of stored commits with different digests. -/
theorem endedPaths_isPath (ended : path ∈ mls.endedPaths group proposals commits startingEpoch) :
    ∃ chain, IsPath commits path chain :=
  isPath_of_below (mem_endedPaths.mp ended).1

theorem StoredMessages.perm {commits' : List StoredCommitMessage} (same : commits.Perm commits')
    (stored : StoredMessages mls proposals commits) : StoredMessages mls proposals commits' where
  commit := fun commit member => stored.commit commit (same.mem_iff.mpr member)
  proposal := stored.proposal
  ids := (List.Perm.append_left _ (same.map _)).nodup_iff.mp stored.ids

/-- **The search in closed form**: within the budget it finds the childless replayable paths, and
beyond the budget it fails. -/
theorem build_eq (stored : StoredMessages mls proposals commits)
    {pendingMessages : List TransportMessage}
    (pending : mls.pendingProposalMessages pendingMessages = .ok proposals)
    (startingEpoch maxRewindCommits : Nat) :
    (mls.replayCost group proposals (sortBy compareStoredCommits commits) startingEpoch ≤
          (ReplayBudget.forPass commits.length maxRewindCommits).remaining ∧
        ∃ drops : List DroppedMessage, (∀ dropped ∈ drops, ∃ path,
            Below (mls.childPaths group proposals (sortBy compareStoredCommits commits))
              (rootPath startingEpoch) path ∧
            ∃ commit ∈ path.tried (sortBy compareStoredCommits commits),
              mls.Blames group proposals path commit dropped) ∧
          mls.buildStoredOpenmlsCandidatePaths group commits pendingMessages startingEpoch
            maxRewindCommits =
          .ok
            { candidatePaths :=
                (mls.endedPaths group proposals (sortBy compareStoredCommits commits)
                  startingEpoch).map fun path =>
                    ⟨mls.branchIdForPathDigests path.digests, path.messages⟩
              materialized :=
                (mls.endedPaths group proposals (sortBy compareStoredCommits commits)
                  startingEpoch).filterMap CandidatePathProbe.materialized
              invalidCommitDrops := drops }) ∨
      (ReplayBudget.forPass commits.length maxRewindCommits).remaining <
          mls.replayCost group proposals (sortBy compareStoredCommits commits) startingEpoch ∧
        mls.buildStoredOpenmlsCandidatePaths group commits pendingMessages startingEpoch
            maxRewindCommits = .error .replayBudgetExceeded := by
  have sorted : StoredMessages mls proposals (sortBy compareStoredCommits commits) :=
    stored.perm (sortBy_perm commits).symm
  have length : (sortBy compareStoredCommits commits).length = commits.length :=
    (sortBy_perm commits).length_eq
  simp only [OpenMls.buildStoredOpenmlsCandidatePaths, pending]
  rcases @StoredMessages.searchLevels_eq _ mls group proposals _ sorted
    ((sortBy compareStoredCommits commits).length + 1) 0 [rootPath startingEpoch]
    (PathSearch.start (sortBy compareStoredCommits commits).length maxRewindCommits)
    (isLevel_root startingEpoch _ _) with
    ⟨after, ran, completed, cost, blamed⟩ | ⟨cost, ran⟩
  · refine Or.inl ⟨length ▸ cost, after.invalidCommitDrops, fun dropped member => ?_, ?_⟩
    · rcases blamed dropped member with old | ⟨_, isRoot, found⟩
      · cases old
      · rw [mem_singleton.mp isRoot] at found
        exact found
    rw [rootPath, PathSearch.start] at ran
    rw [ran]
    simp only [completed, PathSearch.start, nil_append, endedPaths]
  · refine Or.inr ⟨length ▸ cost, ?_⟩
    rw [rootPath, PathSearch.start] at ran
    rw [ran]

/-! ### The commits a search drops -/

/-- **What a search drops is a stored commit.** -/
theorem blamed_stored (stored : StoredMessages mls proposals commits)
    (isPath : IsPath commits path chain) (tried : commit ∈ path.tried commits)
    {dropped : DroppedMessage} (blames : mls.Blames group proposals path commit dropped) :
    ∃ stored ∈ commits, stored.message.id = dropped.messageId := by
  obtain ⟨member, fits⟩ := mem_tried tried
  obtain ⟨known, messages, _, _⟩ := isPath.extend member fits
  have commitsOnly : ∀ message ∈ path.messages ++ [commit.message],
      ∃ stored ∈ commits, stored.message = message := by
    intro message here
    rw [messages] at here
    obtain ⟨other, inChain, same⟩ := mem_map.mp here
    exact ⟨other, known inChain, same⟩
  have protocol : ∀ message ∈ proposals ++ (path.messages ++ [commit.message]),
      mls.IsProtocol message := by
    intro message here
    rcases mem_append.mp here with isProposal | isCommit
    · obtain ⟨_, decoded⟩ := stored.proposal message isProposal
      exact ⟨_, decoded⟩
    · obtain ⟨other, inCommits, rfl⟩ := commitsOnly message isCommit
      exact ⟨_, stored.commit other inCommits⟩
  have blamed : ∃ e, (e = .unauthorizedCommit dropped.messageId ∨
      e = .invalidCommit dropped.messageId) ∧
      mls.processOpenmlsMessagesInner group (proposals ++ (path.messages ++ [commit.message])) =
        .error e := by
    rw [OpenMls.Blames, replayExtension, materializeOpenmlsCandidatePath] at blames
    cases ran : mls.processOpenmlsMessagesInner group
        (proposals ++ (path.messages ++ [commit.message])) with
    | error e =>
      simp only [ran, Except.error.injEq] at blames
      exact ⟨e, blames, rfl⟩
    | ok output =>
      simp only [ran] at blames
      split at blames <;> rcases blames with impossible | impossible <;> cases impossible
  obtain ⟨e, rule, failed⟩ := blamed
  obtain rfl | ⟨message, here, ⟨_, decoded⟩, broken⟩ :=
    processOpenmlsMessagesInner_error protocol failed
  · obtain impossible | impossible := rule <;> cases impossible
  have same : message.id = dropped.messageId := by
    obtain rfl | rfl := rule <;> simpa [eq_comm] using broken
  rcases mem_append.mp here with isProposal | isCommit
  · obtain ⟨other, proposed⟩ := stored.proposal message isProposal
    rw [proposed] at decoded
    cases decoded
  · obtain ⟨other, inCommits, rfl⟩ := commitsOnly message isCommit
    exact ⟨other, inCommits, same⟩

end Tree

end Darkmatter
