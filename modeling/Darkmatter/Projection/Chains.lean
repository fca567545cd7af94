/-
**The candidate paths of a pass against the chains of commits that apply.**

* `Chain` — what a path should be: each commit applies on the state its predecessor left, after the
  proposals of that state's own epoch were received.
* `paths_eq_maximal_chains_iff` — **when the paths found are the maximal chains**: exactly when the
  replays stay within the budget and either every pending proposal can be processed on the start
  state or no commit applies there. A single proposal of another epoch empties the search
  (`later_proposal_hides_commit`).
-/

import Darkmatter.Projection.Paths
import Darkmatter.Projection.Branching

namespace Darkmatter

open Std Lib OpenMls List

/-! ### Chains -/

variable {Group : Type}

section Chains

variable (mls : OpenMls Group) (proposals : List TransportMessage)
  (commits : List StoredCommitMessage) (start : Group)

/-- A proposal received at an epoch: it is passed over if it belongs to another epoch or cannot be
processed. -/
def OpenMls.receiveProposal (epoch : Nat) (group : Group) (message : TransportMessage) : Group :=
  match mls.decode message.payload with
  | .ok (some ⟨.proposal, sourceEpoch⟩) =>
    if sourceEpoch = epoch then
      match mls.processProposal group message.payload with
      | .stored _ next | .externalJoin next => next
      | .failed => group
    else
      group
  | _ => group

/-- A state with the proposals of its own epoch received. -/
def OpenMls.receiveProposals (group : Group) : Group :=
  proposals.foldl (mls.receiveProposal (mls.epoch group)) group

/-- A commit that applies on a state once the proposals of its epoch are received, and the state it
leaves. -/
def OpenMls.Applies (group : Group) (commit : StoredCommitMessage) (merged : Group) : Prop :=
  commit.sourceEpoch = mls.epoch group ∧ ∃ priority committer refs,
    mls.processCommit (mls.receiveProposals proposals group) commit.message.payload =
      .staged priority committer refs merged

/-- **A chain of stored commits from the start state**, and the state it leaves. -/
inductive Chain : List StoredCommitMessage → Group → Prop
  | nil : Chain [] start
  | snoc {chain : List StoredCommitMessage} {group merged : Group} {commit : StoredCommitMessage} :
    Chain chain group → commit ∈ commits → commit.digest ∉ chain.map StoredCommitMessage.digest →
      mls.Applies proposals group commit merged → Chain (chain ++ [commit]) merged

/-- A chain that no stored commit extends. -/
def MaximalChain (chain : List StoredCommitMessage) : Prop :=
  ∃ group, Chain mls proposals commits start chain group ∧
    ∀ commit ∈ commits, commit.digest ∉ chain.map StoredCommitMessage.digest →
      ∀ merged, ¬ mls.Applies proposals group commit merged

variable {mls proposals commits start} {chain : List StoredCommitMessage} {group : Group}

section Chains

variable (isChain : Chain mls proposals commits start chain group)

include isChain

theorem Chain.subset : chain ⊆ commits := by
  induction isChain with
  | nil => exact nil_subset _
  | snoc _ member _ _ ih => exact append_subset.mpr ⟨ih, by simpa using member⟩

theorem Chain.nodup : (chain.map StoredCommitMessage.digest).Nodup := by
  induction isChain with
  | nil => exact nodup_nil
  | snoc _ _ fresh _ ih =>
    rw [map_append, nodup_append]
    refine ⟨ih, nodup_singleton _, fun digest old digest' new same => fresh ?_⟩
    rw [map_singleton, mem_singleton] at new
    rw [← new, ← same]
    exact old

theorem Chain.length_le : chain.length ≤ commits.length := by
  have subperm := subperm_of_subset isChain.nodup
    (map_subset StoredCommitMessage.digest isChain.subset)
  simpa using subperm.length_le

theorem Chain.exists_maximal :
    ∃ rest, MaximalChain mls proposals commits start (chain ++ rest) := by
  -- The room left for more commits shrinks with every extension.
  induction room : commits.length - chain.length generalizing chain group with
  | zero =>
    refine ⟨[], group, by rwa [append_nil], fun commit member fresh merged applies => ?_⟩
    rw [append_nil] at fresh
    have longer := (Chain.snoc isChain member fresh applies).length_le
    rw [length_append, length_singleton] at longer
    omega
  | succ left ih =>
    by_cases extended : ∃ commit ∈ commits, commit.digest ∉ chain.map StoredCommitMessage.digest ∧
        ∃ merged, mls.Applies proposals group commit merged
    · obtain ⟨commit, member, fresh, merged, applies⟩ := extended
      have less : commits.length - (chain ++ [commit]).length = left := by
        rw [length_append, length_singleton]
        omega
      obtain ⟨rest, maximal⟩ := ih (isChain.snoc member fresh applies) less
      exact ⟨commit :: rest, by rwa [append_assoc] at maximal⟩
    · refine ⟨[], group, by rwa [append_nil], fun commit member fresh merged applies => ?_⟩
      rw [append_nil] at fresh
      exact extended ⟨commit, member, fresh, merged, applies⟩

theorem Chain.first_applies (nonempty : chain ≠ []) :
    ∃ commit ∈ commits, ∃ merged, mls.Applies proposals start commit merged := by
  induction isChain with
  | nil => exact absurd rfl nonempty
  | @snoc chain group merged commit before member _ applies ih =>
    cases before with
    | nil => exact ⟨commit, member, merged, applies⟩
    | snoc => exact ih (by simp)

end Chains

end Chains

/-! ### Receiving proposals -/

section Receiving

variable {mls : OpenMls Group} {proposals : List TransportMessage}

theorem epoch_receiveProposal (laws : mls.EpochLaws) (epoch : Nat) (group : Group)
    (message : TransportMessage) :
    mls.epoch (mls.receiveProposal epoch group message) = mls.epoch group := by
  rw [receiveProposal]
  split
  · split
    · split
      · exact laws.proposalStored ‹_›
      · exact laws.proposalJoin ‹_›
      · rfl
    · rfl
  · rfl

theorem epoch_foldl_receiveProposal (laws : mls.EpochLaws) (epoch : Nat) (group : Group) :
    mls.epoch (proposals.foldl (mls.receiveProposal epoch) group) = mls.epoch group := by
  induction proposals generalizing group with
  | nil => rfl
  | cons message rest ih => rw [foldl_cons, ih, epoch_receiveProposal laws]

theorem foldl_receiveProposal_other {epoch : Nat}
    (other : ∀ message ∈ proposals, mls.decode message.payload ≠ .ok (some ⟨.proposal, epoch⟩))
    (group : Group) : proposals.foldl (mls.receiveProposal epoch) group = group := by
  induction proposals generalizing group with
  | nil => rfl
  | cons message rest ih =>
    rw [foldl_cons, ih fun message member => other message (mem_cons_of_mem _ member)]
    rw [receiveProposal]
    split
    · rename_i sourceEpoch decoded
      have differs : sourceEpoch ≠ epoch := fun same =>
        other message mem_cons_self (same ▸ decoded)
      rw [if_neg differs]
    · rfl

/-- **Proposals that all replay are the proposals received**: they are all of the state's epoch. -/
theorem replayed_proposals (laws : mls.EpochLaws)
    (wrongEpoch : ∀ (group : Group) (bytes : Bytes) (epoch : Nat),
      mls.decode bytes = .ok (some ⟨.proposal, epoch⟩) → epoch ≠ mls.epoch group →
        mls.processProposal group bytes = .failed)
    (allProposals : ∀ message ∈ proposals,
      ∃ epoch, mls.decode message.payload = .ok (some ⟨.proposal, epoch⟩))
    {group : Group} {output : OpenMlsReplayOutput Group}
    (replayed : mls.processOpenmlsMessagesInner group proposals = .ok output) :
    output.group = mls.receiveProposals proposals group ∧
      ∀ message ∈ proposals, mls.decode message.payload = .ok (some ⟨.proposal, mls.epoch group⟩) := by
  rw [receiveProposals]
  induction proposals generalizing group output with
  | nil =>
    cases replayed
    exact ⟨rfl, fun _ member => absurd member not_mem_nil⟩
  | cons message rest ih =>
    obtain ⟨_, next, later, here, after, rfl⟩ :=
      processOpenmlsMessagesInner_cons_ok.mp replayed
    obtain ⟨epoch, decoded⟩ := allProposals message mem_cons_self
    have own : epoch = mls.epoch group := by
      by_contra differs
      rw [processOpenmlsMessage, decoded] at here
      simp only [wrongEpoch group message.payload epoch decoded differs] at here
      cases here
    subst own
    have received : mls.receiveProposal (mls.epoch group) group message = next ∧
        mls.epoch next = mls.epoch group := by
      rw [processOpenmlsMessage, decoded] at here
      rw [receiveProposal, decoded]
      cases outcome : mls.processProposal group message.payload with
      | stored =>
        simp only [outcome] at here
        cases here
        exact ⟨by simp, laws.proposalStored outcome⟩
      | externalJoin =>
        simp only [outcome] at here
        cases here
        exact ⟨by simp, laws.proposalJoin outcome⟩
      | failed => simp only [outcome] at here; cases here
    obtain ⟨rest', epochs⟩ :=
      ih (fun other member => allProposals other (mem_cons_of_mem _ member)) after
    rw [received.2] at rest' epochs
    refine ⟨by rw [foldl_cons, received.1, rest'], fun other member => ?_⟩
    rcases mem_cons.mp member with rfl | later
    · exact decoded
    · exact epochs other later

end Receiving

/-! ### Paths and chains -/

section Paths

variable {mls : OpenMls Group} {start : Group} {proposals : List TransportMessage}
  {commits : List StoredCommitMessage}

variable (mls start proposals) in
/-- A path whose replay leaves a state with the proposals of its epoch received. -/
def Reaches (path : CandidatePathProbe) (group : Group) : Prop :=
  path.tipEpoch = mls.epoch group ∧ mls.epoch start ≤ mls.epoch group ∧
    ∃ output, mls.processOpenmlsMessagesInner start (proposals ++ path.messages) = .ok output ∧
      output.group = mls.receiveProposals proposals group

variable {path : CandidatePathProbe} {group merged : Group} {commit : StoredCommitMessage}

/-- A commit that applies on the state a path reaches extends the path. -/
theorem Reaches.extend (laws : mls.EpochLaws) (own : ∀ message ∈ proposals,
      mls.decode message.payload = .ok (some ⟨.proposal, mls.epoch start⟩))
    (stored : StoredMessages mls proposals commits)
    (reaches : Reaches mls start proposals path group) (member : commit ∈ commits)
    (applies : mls.Applies proposals group commit merged) :
    ∃ child, mls.childPath start proposals path commit = some child ∧
      Reaches mls start proposals child merged := by
  obtain ⟨_, _, output, replayed, left⟩ := reaches
  obtain ⟨_, priority, committer, refs, staged⟩ := applies
  have decoded := stored.commit commit member
  rw [← left] at staged
  have whole := (commit_replayed_iff decoded).mpr
    ⟨output, priority, committer, refs, merged, replayed, staged, rfl⟩
  rw [append_assoc] at whole
  obtain ⟨candidate, materialized, tip⟩ : ∃ candidate, mls.materializeOpenmlsCandidatePath start
      ⟨mls.branchIdForPathDigests (path.digests ++ [commit.digest]),
        proposals ++ (path.messages ++ [commit.message])⟩ = .ok candidate ∧
      candidate.tipEpoch = mls.epoch output.group + 1 := by
    rw [materializeOpenmlsCandidatePath]
    simp only [whole, foldl_append, foldl_cons, foldl_nil, observePathCommit]
    exact ⟨_, rfl, rfl⟩
  have next : mls.epoch merged = mls.epoch group + 1 := by
    rw [laws.commit staged, left, OpenMls.receiveProposals, epoch_foldl_receiveProposal laws]
  refine ⟨_, childPath_eq_some.mpr ⟨candidate, materialized, rfl⟩, ?_, by omega, ?_⟩
  · rw [tip, ← laws.commit staged]
  · refine ⟨_, whole, ?_⟩
    rw [receiveProposals, foldl_receiveProposal_other]
    intro message here same
    rw [own message here] at same
    simp only [Except.ok.injEq, Option.some.injEq, ProtocolMessage.mk.injEq, true_and] at same
    omega

/-- Every extension of a path by a commit of its tip is a commit that applies there. -/
theorem Reaches.applies (stored : StoredMessages mls proposals commits) {child : CandidatePathProbe}
    (reaches : Reaches mls start proposals path group) (tried : commit ∈ path.tried commits)
    (extended : mls.childPath start proposals path commit = some child) :
    ∃ merged, mls.Applies proposals group commit merged := by
  obtain ⟨tip, _, _, replayed, left⟩ := reaches
  obtain ⟨member, fits⟩ := mem_tried tried
  obtain ⟨_, materialized, _⟩ := childPath_eq_some.mp extended
  obtain ⟨_, replayed'⟩ := materialize_replays materialized
  rw [← append_assoc] at replayed'
  obtain ⟨_, priority, committer, refs, merged, front, staged, _⟩ :=
    (commit_replayed_iff (stored.commit commit member)).mp replayed'
  rw [replayed] at front
  cases front
  simp only [CandidatePathProbe.fits, decide_eq_true_eq] at fits
  exact ⟨merged, fits.1.trans tip, priority, committer, refs, left ▸ staged⟩

section AllReceived

variable (laws : mls.EpochLaws) (stored : StoredMessages mls proposals commits)
  (own : ∀ message ∈ proposals,
    mls.decode message.payload = .ok (some ⟨.proposal, mls.epoch start⟩))
  (collisionFree : ∀ commit ∈ commits, ∀ other ∈ commits, commit.digest = other.digest →
    commit.message.payload = other.message.payload)
  (root : Reaches mls start proposals (rootPath (mls.epoch start)) start)

section Child

include laws stored own collisionFree

/-- A commit that applies where a path ends gives the path a child with the commit's digest. -/
theorem exists_child {path : CandidatePathProbe} {chain : List StoredCommitMessage}
    {group merged : Group} (isPath : IsPath commits path chain)
    (reaches : Reaches mls start proposals path group) {commit : StoredCommitMessage}
    (member : commit ∈ commits) (fresh : commit.digest ∉ path.digests)
    (applies : mls.Applies proposals group commit merged) :
    ∃ child ∈ mls.childPaths start proposals commits path, ∃ chain',
      IsPath commits child chain' ∧ child.digests = path.digests ++ [commit.digest] ∧
      Reaches mls start proposals child merged := by
  have fits : path.fits commit := by
    simp only [CandidatePathProbe.fits, decide_eq_true_eq]
    exact ⟨applies.1.trans reaches.1.symm, fresh⟩
  obtain ⟨first, tried, digest⟩ := exists_mem_firstByDigest
    (mem_filter.mpr ⟨member, fits⟩) not_mem_nil
  have known := (mem_tried tried).1
  have same := collisionFree first known commit member digest
  have decoded := stored.commit commit member
  rw [← same, stored.commit first known] at decoded
  simp only [Except.ok.injEq, Option.some.injEq, ProtocolMessage.mk.injEq, true_and] at decoded
  have applies' : mls.Applies proposals group first merged :=
    ⟨decoded.trans applies.1, same ▸ applies.2⟩
  obtain ⟨_, extended, reaches'⟩ := reaches.extend laws own stored known applies'
  have isChild := mem_childPaths.mpr ⟨first, tried, extended⟩
  obtain ⟨_, _, rfl⟩ := childPath_eq_some.mp extended
  exact ⟨_, isChild, _, isPath.extend known (mem_tried tried).2, by rw [digest], reaches'⟩

end Child

include laws stored own root

theorem chain_of_below {path : CandidatePathProbe}
    (below : Below (mls.childPaths start proposals commits) (rootPath (mls.epoch start)) path) :
    ∃ chain group, Chain mls proposals commits start chain group ∧ IsPath commits path chain ∧
      Reaches mls start proposals path group := by
  induction below with
  | refl => exact ⟨[], start, .nil, isPath_root _, root⟩
  | @tail path child _ isChild ih =>
    obtain ⟨chain, _, isChain, isPath, reaches⟩ := ih
    obtain ⟨commit, tried, extended⟩ := mem_childPaths.mp isChild
    obtain ⟨member, fits⟩ := mem_tried tried
    obtain ⟨merged, applies⟩ := reaches.applies stored tried extended
    obtain ⟨_, extended', reaches'⟩ := reaches.extend laws own stored member applies
    rw [extended] at extended'
    cases extended'
    obtain ⟨_, _, rfl⟩ := childPath_eq_some.mp extended
    simp only [CandidatePathProbe.fits, decide_eq_true_eq] at fits
    have fresh : commit.digest ∉ chain.map StoredCommitMessage.digest := isPath.2.2.1 ▸ fits.2
    exact ⟨chain ++ [commit], merged, isChain.snoc member fresh applies,
      isPath.extend member (mem_tried tried).2, reaches'⟩

include collisionFree

/-- Every chain is a replayable path, up to commits that share their bytes. -/
theorem below_of_chain {chain : List StoredCommitMessage} {group : Group}
    (isChain : Chain mls proposals commits start chain group) :
    ∃ path, Below (mls.childPaths start proposals commits) (rootPath (mls.epoch start)) path ∧
      path.digests = chain.map StoredCommitMessage.digest ∧
      (∃ chain', IsPath commits path chain') ∧ Reaches mls start proposals path group := by
  induction isChain with
  | nil => exact ⟨_, .refl, rfl, ⟨[], isPath_root _⟩, root⟩
  | @snoc chain group merged commit _ member fresh applies ih =>
    obtain ⟨_, below, digests, ⟨_, isPath⟩, reaches⟩ := ih
    obtain ⟨child, isChild, chain'', isPath', digests', reaches'⟩ :=
      exists_child laws stored own collisionFree isPath reaches member (digests ▸ fresh) applies
    refine ⟨child, below.tail isChild, ?_, ⟨chain'', isPath'⟩, reaches'⟩
    rw [digests', digests, map_append, map_singleton]

/-- **With every proposal processed, the paths that end are the maximal chains.** -/
theorem endedPaths_iff_maximal (digests : List Bytes) :
    (∃ path ∈ mls.endedPaths start proposals commits (mls.epoch start), path.digests = digests) ↔
      ∃ chain, MaximalChain mls proposals commits start chain ∧ chain ≠ [] ∧
        chain.map StoredCommitMessage.digest = digests := by
  constructor
  · rintro ⟨path, ended, rfl⟩
    obtain ⟨below, childless, nonempty⟩ := mem_endedPaths.mp ended
    obtain ⟨chain, group, isChain, isPath, reaches⟩ := chain_of_below laws stored own root below
    refine ⟨chain, ⟨group, isChain, fun commit member fresh merged applies => ?_⟩, ?_,
      isPath.2.2.1.symm⟩
    · rw [← isPath.2.2.1] at fresh
      obtain ⟨child, isChild, _⟩ :=
        exists_child laws stored own collisionFree isPath reaches member fresh applies
      rw [childless] at isChild
      exact absurd isChild not_mem_nil
    · rintro rfl
      exact nonempty isPath.2.1
  · rintro ⟨_, ⟨_, isChain, maximal⟩, nonempty, rfl⟩
    obtain ⟨path, below, digests, ⟨_, isPath⟩, reaches⟩ :=
      below_of_chain laws stored own collisionFree root isChain
    refine ⟨path, mem_endedPaths.mpr ⟨below, ?_, fun empty => nonempty ?_⟩, digests⟩
    · refine eq_nil_iff_forall_not_mem.mpr fun child isChild => ?_
      obtain ⟨commit, tried, extended⟩ := mem_childPaths.mp isChild
      obtain ⟨member, fits⟩ := mem_tried tried
      obtain ⟨merged, applies⟩ := reaches.applies stored tried extended
      simp only [CandidatePathProbe.fits, decide_eq_true_eq] at fits
      exact maximal commit member (digests ▸ fits.2) merged applies
    · have length := congrArg length digests
      rw [isPath.2.2.1, length_map, length_map] at length
      rw [isPath.2.1, map_eq_nil_iff] at empty
      rw [empty] at length
      exact length_eq_zero_iff.mp length.symm

end AllReceived

/-- **With a proposal that cannot be processed on the start state, no path is found.** -/
theorem endedPaths_eq_nil
    (refused : ∀ output, mls.processOpenmlsMessagesInner start proposals ≠ .ok output) (epoch : Nat) :
    mls.endedPaths start proposals commits epoch = [] := by
  have childless : ∀ path, mls.childPaths start proposals commits path = [] := by
    refine fun path => eq_nil_iff_forall_not_mem.mpr fun child isChild => ?_
    obtain ⟨_, _, extended⟩ := mem_childPaths.mp isChild
    obtain ⟨_, materialized, _⟩ := childPath_eq_some.mp extended
    obtain ⟨_, replayed⟩ := materialize_replays materialized
    obtain ⟨before, _, front, _⟩ := processOpenmlsMessagesInner_append_ok.mp replayed
    exact refused before front
  refine eq_nil_iff_forall_not_mem.mpr fun path ended => ?_
  obtain ⟨below, _, nonempty⟩ := mem_endedPaths.mp ended
  rcases below_cases below with rfl | ⟨_, isChild, _⟩
  · exact nonempty rfl
  · rw [childless] at isChild
    exact absurd isChild not_mem_nil

theorem MaximalChain.congr {commits' : List StoredCommitMessage}
    (same : ∀ commit, commit ∈ commits ↔ commit ∈ commits') {chain : List StoredCommitMessage}
    (maximal : MaximalChain mls proposals commits start chain) :
    MaximalChain mls proposals commits' start chain := by
  obtain ⟨group, isChain, last⟩ := maximal
  refine ⟨group, ?_, fun commit member => last commit ((same commit).mpr member)⟩
  clear last
  induction isChain with
  | nil => exact .nil
  | snoc _ member fresh applies ih => exact ih.snoc ((same _).mp member) fresh applies

def OpenMls.pathDigests (mls : OpenMls Group) (path : OpenMlsCandidatePath) : List Bytes :=
  path.messages.map fun message => mls.sha256 message.payload

theorem endedPaths_digests
    (digest : ∀ commit ∈ commits, commit.digest = mls.sha256 commit.message.payload) {epoch : Nat}
    (ended : path ∈ mls.endedPaths start proposals commits epoch) :
    mls.pathDigests ⟨mls.branchIdForPathDigests path.digests, path.messages⟩ = path.digests := by
  obtain ⟨_, known, messages, digests, _⟩ := endedPaths_isPath ended
  rw [pathDigests, digests, messages, map_map]
  exact map_congr_left fun commit member => (digest commit (known member)).symm

/-- **The candidate paths of stored commits are the maximal chains of commits that apply** exactly
when the search stays within its replay budget and either all pending proposals can be processed,
one after another, on the start state, or no stored commit applies on the start state. -/
theorem paths_eq_maximal_chains_iff (laws : mls.EpochLaws)
    (wrongEpoch : ∀ (group : Group) (bytes : Bytes) (epoch : Nat),
      mls.decode bytes = .ok (some ⟨.proposal, epoch⟩) → epoch ≠ mls.epoch group →
        mls.processProposal group bytes = .failed)
    (stored : StoredMessages mls proposals commits)
    (digest : ∀ commit ∈ commits, commit.digest = mls.sha256 commit.message.payload)
    (apart : ∀ commit ∈ commits, ∀ other ∈ commits, commit.digest = other.digest →
      commit.message.payload = other.message.payload)
    {pendingMessages : List TransportMessage}
    (pending : mls.pendingProposalMessages pendingMessages = .ok proposals)
    (maxRewindCommits : Nat) :
    (∃ result, mls.buildStoredOpenmlsCandidatePaths start commits pendingMessages (mls.epoch start)
          maxRewindCommits = .ok result ∧
        ∀ digests, (∃ path ∈ result.candidatePaths, mls.pathDigests path = digests) ↔
          ∃ chain, MaximalChain mls proposals commits start chain ∧ chain ≠ [] ∧
            chain.map StoredCommitMessage.digest = digests) ↔
      mls.replayCost start proposals (sortBy compareStoredCommits commits) (mls.epoch start) ≤
          (ReplayBudget.forPass commits.length maxRewindCommits).remaining ∧
        ((∃ output, mls.processOpenmlsMessagesInner start proposals = .ok output) ∨
          ∀ commit ∈ commits, ∀ merged, ¬ mls.Applies proposals start commit merged) := by
  have same : ∀ commit, commit ∈ sortBy compareStoredCommits commits ↔ commit ∈ commits :=
    fun commit => mem_sortBy
  have sorted : StoredMessages mls proposals (sortBy compareStoredCommits commits) :=
    stored.perm (sortBy_perm commits).symm
  have known : ∀ commit ∈ sortBy compareStoredCommits commits,
      commit.digest = mls.sha256 commit.message.payload :=
    fun commit member => digest commit ((same commit).mp member)
  rcases @build_eq _ mls start proposals commits stored _ pending (mls.epoch start)
    maxRewindCommits with ⟨within, drops, _, built⟩ | ⟨beyond, built⟩
  · simp only [built, within, true_and, Except.ok.injEq, exists_eq_left', mem_map,
      exists_exists_and_eq_and]
    have paths : ∀ digests,
        (∃ path ∈ mls.endedPaths start proposals (sortBy compareStoredCommits commits)
          (mls.epoch start), mls.pathDigests
            ⟨mls.branchIdForPathDigests path.digests, path.messages⟩ = digests) ↔
        ∃ path ∈ mls.endedPaths start proposals (sortBy compareStoredCommits commits)
          (mls.epoch start), path.digests = digests := by
      intro digests
      constructor <;> rintro ⟨path, ended, rfl⟩
      · exact ⟨path, ended, (endedPaths_digests known ended).symm⟩
      · exact ⟨path, ended, endedPaths_digests known ended⟩
    simp only [paths]
    by_cases replayed : ∃ output, mls.processOpenmlsMessagesInner start proposals = .ok output
    · refine iff_of_true (fun digests => ?_) (Or.inl replayed)
      obtain ⟨output, replayed⟩ := replayed
      obtain ⟨left, own⟩ := replayed_proposals laws wrongEpoch stored.proposal replayed
      rw [endedPaths_iff_maximal laws sorted own ?_ ⟨rfl, le_rfl, output, ?_, left⟩]
      · exact exists_congr fun chain => and_congr_left fun _ =>
          ⟨.congr same, .congr fun commit => (same commit).symm⟩
      · exact fun commit member other member' =>
          apart commit ((same commit).mp member) other ((same other).mp member')
      · rw [rootPath, append_nil]
        exact replayed
    · rw [endedPaths_eq_nil (fun output here => replayed ⟨output, here⟩)]
      simp only [replayed, false_or, not_mem_nil, false_and, exists_false, false_iff]
      constructor
      · intro none commit member merged applies
        obtain ⟨rest, maximal⟩ :=
          (Chain.snoc Chain.nil member not_mem_nil applies).exists_maximal
        exact none _ ⟨_, maximal, by simp, rfl⟩
      · rintro none digests ⟨chain, ⟨group, isChain, _⟩, nonempty, _⟩
        obtain ⟨commit, member, merged, applies⟩ := isChain.first_applies nonempty
        exact none commit member merged applies
  · refine iff_of_false ?_ fun holds => Nat.not_le.mpr beyond holds.1
    rintro ⟨result, ok, _⟩
    rw [built] at ok
    cases ok

end Paths

/-! ### A proposal of a later epoch -/

def symbolicStoredCommit (id : String) (payload : Bytes) : StoredCommitMessage where
  message := symbolicMessage id payload
  sourceEpoch := payload.length - 2
  digest := payload
  state := .created

/-- A commit that applies on the start state. -/
def firstCommit : StoredCommitMessage := symbolicStoredCommit "commit" [0, 7]

/-- A proposal made on the state the commit leads to. -/
def laterProposal : TransportMessage := symbolicMessage "proposal" [1, 8, 7]

/-- **A proposal of a later epoch hides a commit that applies**: the commit is a maximal chain of its
own, and the search finds no path. -/
theorem later_proposal_hides_commit :
    MaximalChain (symbolicMls []) [laterProposal] [firstCommit] [] [firstCommit] ∧
      (symbolicMls []).buildStoredOpenmlsCandidatePaths [] [firstCommit] [laterProposal] 0 5 =
        .ok { candidatePaths := [], materialized := [], invalidCommitDrops := [] } := by
  refine ⟨⟨[7], ?_, ?_⟩, by decide⟩
  · exact Chain.snoc .nil mem_cons_self not_mem_nil ⟨rfl, .ordinary, [], [], rfl⟩
  · intro commit member fresh
    rw [mem_singleton.mp member] at fresh
    exact absurd (mem_singleton.mpr rfl) fresh

/-- A proposal of the start state. -/
def startProposal : TransportMessage := symbolicMessage "proposal" [1, 8]

/-- A commit on top of the first one. -/
def nextCommit : StoredCommitMessage := symbolicStoredCommit "next" [0, 6, 7]

/-- With a proposal of the start state the search finds the commits. -/
theorem commits_found_after_proposal :
    ∃ result, (symbolicMls []).buildStoredOpenmlsCandidatePaths [] [firstCommit, nextCommit]
        [startProposal] 0 5 = .ok result ∧
      ∀ digests, (∃ path ∈ result.candidatePaths, (symbolicMls []).pathDigests path = digests) ↔
        ∃ chain, MaximalChain (symbolicMls []) [startProposal] [firstCommit, nextCommit] [] chain ∧
          chain ≠ [] ∧ chain.map StoredCommitMessage.digest = digests := by
  have stored : StoredMessages (symbolicMls []) [startProposal] [firstCommit, nextCommit] :=
    ⟨by decide, forall_mem_singleton.mpr ⟨0, rfl⟩, by decide⟩
  have within : (symbolicMls []).replayCost [] [startProposal]
      (sortBy compareStoredCommits [firstCommit, nextCommit]) 0 ≤
        (ReplayBudget.forPass 2 5).remaining := by decide
  exact (paths_eq_maximal_chains_iff (symbolicMls_epochLaws []) (symbolicMls_wrongEpoch [])
    stored (by decide) (by decide) rfl 5).mpr ⟨within, Or.inl ⟨_, rfl⟩⟩

end Darkmatter
