/-
**Branch selection over replayed candidates.**

A pass over stored messages has no known branches besides the ones it replayed, and no pending
commits. Then the graph is the list of candidates, one for each branch id (`graph_candidates`):

* `selected_spec` — the selected branch is a replayed candidate, with the witnesses it gained;
* `acceptedCommits_eq` — the accepted commits are the commits of the selected candidate, in order;
* `convergenceStatus_eq` — such a pass is settled as soon as its input has been quiet.
-/

import Darkmatter.Canonicalization.Result
import Darkmatter.Lib.Table

namespace Darkmatter

open Std Lib BranchCandidate CanonicalizationInput GraphBuilder PeeledMessage List Option ExtTreeMap

variable {materialized : List MaterializedCandidate} {candidate : MaterializedCandidate}

/-! ### The candidates of the graph -/

/-- The last candidate of a branch id. -/
def lastNamed (materialized : List MaterializedCandidate) (id : String) :
    Option MaterializedCandidate :=
  materialized.reverse.find? fun candidate => candidate.branch.id == id

theorem lastNamed_spec {id : String} (named : lastNamed materialized id = some candidate) :
    candidate ∈ materialized ∧ candidate.branch.id = id := by
  rw [lastNamed] at named
  have matching := find?_some named
  exact ⟨mem_reverse.mp (mem_of_find?_eq_some named), eq_of_beq matching⟩

theorem lastNamed_cons (candidate : MaterializedCandidate) (rest : List MaterializedCandidate)
    (id : String) :
    lastNamed (candidate :: rest) id =
      (lastNamed rest id).or (if candidate.branch.id = id then some candidate else none) := by
  rw [lastNamed, lastNamed, reverse_cons, find?_append, find?_singleton]
  simp only [beq_iff_eq]

theorem foldl_insertMaterialized_getElem? (materialized : List MaterializedCandidate)
    (builder : GraphBuilder) (id : String) :
    (materialized.foldl insertMaterialized builder).candidates[id]? =
        ((lastNamed materialized id).map MaterializedCandidate.branch).or builder.candidates[id]? ∧
      (materialized.foldl insertMaterialized builder).commitPathByBranch[id]? =
        ((lastNamed materialized id).map MaterializedCandidate.commitMessageIds).or
          builder.commitPathByBranch[id]? ∧
      (materialized.foldl insertMaterialized
          builder).materializedCommitIdsByBranch[id]? =
        ((lastNamed materialized id).map fun candidate =>
          ExtTreeSet.ofList candidate.commitMessageIds).or
            builder.materializedCommitIdsByBranch[id]? := by
  induction materialized generalizing builder with
  | nil => simp [lastNamed]
  | cons candidate rest ih =>
    rw [foldl_cons]
    obtain ⟨candidates, paths, commits⟩ := ih (builder.insertMaterialized candidate)
    rw [candidates, paths, commits, lastNamed_cons]
    simp only [insertMaterialized, insertBranch,
      ExtTreeMap.getElem?_insert, LawfulEqCmp.compare_eq_iff_eq]
    cases lastNamed rest id with
    | some => simp
    | none => by_cases same : candidate.branch.id = id <;> simp [same]

/-! ### A pass without pending commits -/

/-- A pass over replayed candidates only. -/
structure CanonicalizationInput.Replayed (input : CanonicalizationInput) : Prop where
  noKnown : input.candidateBranches = []
  noCommits : ∀ message ∈ input.pendingMessages, ¬ message.isCommit

variable {input : CanonicalizationInput}

section Replayed

variable (replayed : input.Replayed) (materialized : List MaterializedCandidate)

include replayed

theorem uniqueMessages_noCommits : ∀ message ∈ input.uniqueMessages, ¬ message.isCommit :=
  fun message member => replayed.noCommits message (dedupe_fst_subset _ _ member)

theorem materializedGraph_eq :
    materializeCandidateGraph input input.uniqueMessages materialized =
      let builder := materialized.foldl insertMaterialized {}
      { candidates := builder.candidates.values
        commitPathByBranch := builder.commitPathByBranch
        branchPathByBranch := builder.branchPathByBranch
        consumedProposalIdsByBranch := builder.consumedProposalIdsByBranch
        materializedCommitIdsByBranch := builder.materializedCommitIdsByBranch
        branchIds := ExtTreeSet.ofList builder.candidates.keys } := by
  have none : input.uniqueMessages.filter isCommit = [] :=
    filter_eq_nil_iff.mpr (uniqueMessages_noCommits replayed)
  rw [materializeCandidateGraph]
  simp only [replayed.noKnown, none, sortBy_nil, foldl_nil, length_nil]
  rfl

theorem graph_candidates {branch : BranchCandidate} :
    branch ∈ (materializeCandidateGraph input input.uniqueMessages materialized).candidates ↔
      ∃ id candidate, lastNamed materialized id = some candidate ∧ candidate.branch = branch := by
  rw [materializedGraph_eq replayed]
  simp only [mem_values, (foldl_insertMaterialized_getElem? materialized {} _).1,
    getElem?_empty, or_none, map_eq_some_iff]

theorem mem_losingIds {id : String} (losing : id ∈ input.losingIds materialized) :
    ∃ candidate ∈ materialized, id ∈ candidate.commitMessageIds := by
  rw [losingIds] at losing
  split at losing
  · cases losing
  · obtain ⟨entry, member, here⟩ := mem_flatMap.mp losing
    have found := mem_toList_iff_getElem?_eq_some.mp (mem_filter.mp member).1
    change (materializeCandidateGraph input input.uniqueMessages
      materialized).materializedCommitIdsByBranch[entry.1]? = _ at found
    rw [materializedGraph_eq replayed] at found
    simp only [(foldl_insertMaterialized_getElem? materialized {} entry.1).2.2,
      getElem?_empty, or_none, map_eq_some_iff] at found
    obtain ⟨candidate, named, commits⟩ := found
    rw [← commits, ExtTreeSet.mem_toList, ExtTreeSet.mem_ofList] at here
    exact ⟨candidate, (lastNamed_spec named).1, contains_iff_mem.mp here⟩

end Replayed

/-! ### Witnesses -/

/-- A branch without its witnesses. -/
def BranchCandidate.bare (branch : BranchCandidate) : BranchCandidate :=
  { branch with appWitnesses := [] }

theorem bare_eq_iff {a b : BranchCandidate} :
    a.bare = b.bare ↔ a.id = b.id ∧ a.forkEpoch = b.forkEpoch ∧ a.tipEpoch = b.tipEpoch ∧
      a.tipPriority = b.tipPriority ∧ a.tipCommitter = b.tipCommitter ∧
      a.tipDigest = b.tipDigest := by
  simp [bare]

section Witnesses

variable {policy : CanonicalizationPolicy}

theorem gainWitness_bare (witness : AppWitness) (branch : BranchCandidate) :
    (branch.gainWitness policy witness).bare = branch.bare := by
  rw [gainWitness]
  split <;> rfl

theorem attachAppWitness_bare (witness : AppWitness) (branches : List BranchCandidate)
    (branchId : String) :
    (attachAppWitness policy witness branches branchId).map bare = branches.map bare := by
  induction branches with
  | nil => rfl
  | cons branch rest ih =>
    rw [attachAppWitness]
    split
    · rw [map_cons, map_cons, gainWitness_bare]
    · rw [map_cons, map_cons, ih]

theorem attachMessageWitnesses_bare (branches : List BranchCandidate) (message : PeeledMessage) :
    (attachMessageWitnesses policy branches message).map bare = branches.map bare := by
  rw [attachMessageWitnesses]
  split
  · rename_i epoch decryptsOnBranches _ known
    clear known
    induction decryptsOnBranches generalizing branches with
    | nil => rfl
    | cons branchId rest ih => rw [foldl_cons, ih, attachAppWitness_bare]
  · rfl

/-- **Witnesses change nothing else about a branch.** -/
theorem attachAppWitnesses_bare (branches : List BranchCandidate) (messages : List PeeledMessage) :
    (attachAppWitnesses branches messages policy).map bare = branches.map bare := by
  rw [attachAppWitnesses]
  induction messages generalizing branches with
  | nil => rfl
  | cons message rest ih => rw [foldl_cons, ih, attachMessageWitnesses_bare]

end Witnesses

/-! ### The selected branch -/

section Selected

variable (replayed : input.Replayed) {materialized : List MaterializedCandidate}

include replayed

variable {branch : BranchCandidate} {candidate : MaterializedCandidate}

/-- **The selected branch is a replayed candidate.** -/
theorem selected_spec (chosen : input.selected materialized = some branch) :
    ∃ candidate ∈ materialized, branch.bare = candidate.branch.bare ∧
      (input.selectedBranch materialized).branchId = some candidate.branch.id ∧
      (input.selectedBranch materialized).commitIds = candidate.commitMessageIds := by
  have member : branch.bare ∈
      (materializeCandidateGraph input input.uniqueMessages materialized).candidates.map
        bare := by
    rw [← @attachAppWitnesses_bare input.policy _ input.uniqueMessages]
    exact mem_map_of_mem (selectCanonicalBranch_mem chosen)
  obtain ⟨_, inGraph, same⟩ := mem_map.mp member
  obtain ⟨_, candidate, named, rfl⟩ := (graph_candidates replayed materialized).mp inGraph
  obtain ⟨known, rfl⟩ := lastNamed_spec named
  have sameId : branch.id = candidate.branch.id := (bare_eq_iff.mp same.symm).1
  have path : (input.graph materialized).commitPathByBranch[candidate.branch.id]? =
      some candidate.commitMessageIds := by
    show (materializeCandidateGraph input input.uniqueMessages
      materialized).commitPathByBranch[candidate.branch.id]? = _
    rw [materializedGraph_eq replayed]
    simp only [(foldl_insertMaterialized_getElem? materialized {} candidate.branch.id).2.1, named,
      map_some, some_or]
  refine ⟨candidate, known, same.symm, ?_, ?_⟩
  · rw [selectedBranch, MaterializedGraph.selectedBranch, chosen]
    simp only [map_some, sameId]
  · rw [selectedBranch, MaterializedGraph.selectedBranch, chosen]
    simp only [map_some, sameId, bind_some, path, getD_some]

end Selected

/-! ### The result -/

section Result

variable (replayed : input.Replayed) (materialized : List MaterializedCandidate)
  {message : PeeledMessage} {id : String}

theorem disposition_ne_acceptCommit (noCommit : ¬ message.isCommit) :
    input.disposition materialized message ≠ .acceptCommit := by
  rw [disposition, dispositionOf]
  cases known : message.kind with
  | commit => simp [isCommit, kindName, known] at noCommit
  | proposal =>
    simp only [handleProposal]
    split_ifs <;> simp
  | appMessage =>
    simp only [handleAppMessage]
    split_ifs <;> simp

include replayed in
/-- **The accepted commits are the commits of the selected branch.** -/
theorem acceptedCommits_eq :
    (canonicalizeInternal input materialized).acceptedCommits =
      (input.selectedBranch materialized).commitIds := by
  have none : acceptedBy (input.disposition materialized) .acceptCommit input.uniqueMessages = [] := by
    rw [acceptedBy, map_eq_nil_iff, filter_eq_nil_iff]
    intro message member
    have noCommit := uniqueMessages_noCommits replayed message member
    simpa using disposition_ne_acceptCommit materialized noCommit
  rw [canonicalizeInternal_eq]
  simp only [CanonicalizationResult.sort, CanonicalizationResult.settle]
  split_ifs <;> simp only [disposed, none, append_nil]

theorem settle_sort_fields (result : CanonicalizationResult) :
    ((result.settle input).sort).selectedTip = result.selectedTip ∧
      ((result.settle input).sort).previousTip = result.previousTip ∧
      ((result.settle input).sort).acceptedProposals = sortBy compare result.acceptedProposals ∧
      ((result.settle input).sort).acceptedAppMessages = sortBy compare result.acceptedAppMessages ∧
      ((result.settle input).sort).errors = sortBy compare result.errors ∧
      ((result.settle input).sort).convergenceStatus =
        convergenceStatusForResult input input.pendingMessages result := by
  rw [CanonicalizationResult.settle]
  split_ifs <;> exact ⟨rfl, rfl, rfl, rfl, rfl, rfl⟩

theorem canonicalizeInternal_tips :
    (canonicalizeInternal input materialized).selectedTip =
        (input.selected materialized).map tipEpoch ∧
      (canonicalizeInternal input materialized).previousTip = input.state.currentTipEpoch := by
  rw [canonicalizeInternal_eq, (settle_sort_fields _).1, (settle_sort_fields _).2.1]
  exact ⟨rfl, rfl⟩

theorem kindName_of_accepted (message : PeeledMessage) :
    (input.disposition materialized message = .acceptProposal → message.kindName = .proposal) ∧
      (input.disposition materialized message = .acceptAppMessage →
        message.kindName = .appMessage) := by
  rw [disposition, dispositionOf, kindName]
  cases message.kind with
  | commit =>
    simp only [handleCommit]
    split_ifs <;> simp
  | proposal =>
    simp only [handleProposal]
    split_ifs <;> simp
  | appMessage =>
    simp only [handleAppMessage]
    split_ifs <;> simp

theorem mem_acceptedProposals
    (accepted : id ∈ (canonicalizeInternal input materialized).acceptedProposals) :
    ∃ message ∈ input.pendingMessages, message.messageId = id ∧ message.kindName = .proposal := by
  rw [canonicalizeInternal_eq, (settle_sort_fields _).2.2.1, mem_sortBy] at accepted
  obtain ⟨message, member, rfl⟩ := mem_map.mp accepted
  obtain ⟨unique, decided⟩ := mem_filter.mp member
  exact ⟨message, dedupe_fst_subset _ _ unique, rfl,
    (kindName_of_accepted _ message).1 (of_decide_eq_true decided)⟩

theorem mem_acceptedAppMessages
    (accepted : id ∈ (canonicalizeInternal input materialized).acceptedAppMessages) :
    ∃ message ∈ input.pendingMessages, message.messageId = id ∧ message.kindName = .appMessage := by
  rw [canonicalizeInternal_eq, (settle_sort_fields _).2.2.2.1, mem_sortBy] at accepted
  obtain ⟨message, member, rfl⟩ := mem_map.mp accepted
  obtain ⟨unique, decided⟩ := mem_filter.mp member
  exact ⟨message, dedupe_fst_subset _ _ unique, rfl,
    (kindName_of_accepted _ message).2 (of_decide_eq_true decided)⟩

theorem accepted_eq_nil (none : input.selected materialized = none) :
    (canonicalizeInternal input materialized).acceptedProposals = [] ∧
      (canonicalizeInternal input materialized).acceptedAppMessages = [] := by
  have unnamed : (input.selectedBranch materialized).branchId = Option.none ∧
      (input.selectedBranch materialized).consumedProposalIds = ∅ := by
    rw [selectedBranch, MaterializedGraph.selectedBranch, none]
    exact ⟨rfl, rfl⟩
  have refused : ∀ message, input.disposition materialized message ≠ .acceptProposal ∧
      input.disposition materialized message ≠ .acceptAppMessage := by
    intro message
    rw [disposition, dispositionOf]
    cases message.kind with
    | commit =>
      simp only [handleCommit]
      split_ifs <;> simp
    | proposal =>
      simp only [handleProposal, unnamed, ExtTreeSet.not_mem_empty]
      split_ifs <;> simp_all
    | appMessage =>
      simp only [handleAppMessage, unnamed, any_none]
      split_ifs <;> simp_all
  have empty : ∀ accepted, (∀ message, input.disposition materialized message ≠ accepted) →
      acceptedBy (input.disposition materialized) accepted input.uniqueMessages = [] := by
    intro _ never
    rw [acceptedBy, map_eq_nil_iff, filter_eq_nil_iff]
    intro message _
    simpa using never message
  rw [canonicalizeInternal_eq, (settle_sort_fields _).2.2.1, (settle_sort_fields _).2.2.2.1]
  simp only [disposed]
  rw [empty _ fun message => (refused message).1, empty _ fun message => (refused message).2]
  exact ⟨sortBy_nil, sortBy_nil⟩

theorem acceptedBy_nodup (accepted : Disposition) :
    (acceptedBy (input.disposition materialized) accepted input.uniqueMessages).Nodup :=
  (filter_sublist.map _).nodup uniqueMessages_nodup

theorem acceptedProposals_nodup :
    (canonicalizeInternal input materialized).acceptedProposals.Nodup := by
  rw [canonicalizeInternal_eq, (settle_sort_fields _).2.2.1, (sortBy_perm _).nodup_iff]
  exact acceptedBy_nodup materialized .acceptProposal

theorem acceptedAppMessages_nodup :
    (canonicalizeInternal input materialized).acceptedAppMessages.Nodup := by
  rw [canonicalizeInternal_eq, (settle_sort_fields _).2.2.2.1, (sortBy_perm _).nodup_iff]
  exact acceptedBy_nodup materialized .acceptAppMessage

theorem missingRetainedAnchor_not_mem_errors :
    CanonicalizationError.missingRetainedAnchor ∉
      (canonicalizeInternal input materialized).errors := by
  rw [canonicalizeInternal_eq, (settle_sort_fields _).2.2.2.2.1, mem_sortBy]
  show _ ∉ (if (input.selected materialized).isNone then
    [CanonicalizationError.candidateStateUnavailable] else [])
  split_ifs <;> simp

theorem dedupe_cases (observedIds : ExtTreeSet String) {messages : List PeeledMessage}
    (member : message ∈ messages) :
    message ∈ (dedupe observedIds messages).1 ∨
      message.messageId ∈ (dedupe observedIds messages).2.map AlreadySeen.messageId := by
  induction messages generalizing observedIds with
  | nil => exact absurd member not_mem_nil
  | cons head rest ih =>
    rw [dedupe]
    split
    · rcases mem_cons.mp member with rfl | later
      · exact Or.inr mem_cons_self
      · exact (ih observedIds later).imp_right (mem_cons_of_mem _)
    · rcases mem_cons.mp member with rfl | later
      · exact Or.inl mem_cons_self
      · exact (ih _ later).imp_left (mem_cons_of_mem _)

/-- Every application message of a pass is accepted, invalidated or already seen. -/
theorem appMessage_resolved (member : message ∈ input.pendingMessages)
    (isApp : message.kindName = .appMessage) :
    message.messageId ∈ (input.disposed materialized).resolvedIds := by
  rw [CanonicalizationResult.resolvedIds, mem_append, mem_append]
  rcases dedupe_cases input.state.seenMessageIds member with unique | seen
  · refine Or.inl ?_
    have decided : (input.disposition materialized message).accepts ∨
        (input.disposition materialized message).invalidates := by
      rw [disposition, dispositionOf]
      rw [kindName] at isApp
      cases known : message.kind with
      | commit => simp only [known] at isApp; cases isApp
      | proposal => simp only [known] at isApp; cases isApp
      | appMessage =>
        simp only [handleAppMessage]
        split_ifs <;> simp [Disposition.accepts, Disposition.invalidates]
    rcases decided with accepts | invalidates
    · exact Or.inl (mem_disposed_acceptedIds.mpr
        (Or.inr ⟨message, unique, rfl, accepts⟩))
    · exact Or.inr (mem_disposed_rejectedIds.mpr
        (Or.inr ⟨message, unique, rfl, Or.inr invalidates⟩))
  · exact Or.inr seen

include replayed in
/-- **A pass over replayed candidates is settled as soon as its input has been quiet.** -/
theorem convergenceStatus_eq :
    (canonicalizeInternal input materialized).convergenceStatus =
      if input.nowMs - input.state.lastConvergenceRelevantInputMs <
          input.policy.settlementQuiescenceMs then
        .syncing
      else
        .settled := by
  have resolved : (input.pendingMessages.any fun message =>
      message.kindName != .proposal &&
        !(input.disposed materialized).resolvedIds.contains message.messageId) = false := by
    refine any_eq_false.mpr fun message member => ?_
    have noCommit := replayed.noCommits message member
    cases known : message.kindName with
    | proposal => simp
    | commit => simp [isCommit, known] at noCommit
    | appMessage => simp [appMessage_resolved materialized member known]
  have unblocked : hasBlockingConvergenceError (input.disposed materialized) = false := by
    have clean := @missingRetainedAnchor_not_mem_errors input materialized
    rw [canonicalizeInternal_eq, (settle_sort_fields _).2.2.2.2.1, mem_sortBy] at clean
    rw [hasBlockingConvergenceError, Bool.eq_false_iff]
    simpa using clean
  rw [canonicalizeInternal_eq, (settle_sort_fields _).2.2.2.2.2, convergenceStatusForResult]
  rw [resolved, unblocked]
  simp

end Result

/-! ### What a pass drops and invalidates -/

section Loop

variable {materialized : List MaterializedCandidate}

theorem sort_settle_lists (result : CanonicalizationResult) :
    ((result.settle input).sort).invalidatedAppMessages.Perm result.invalidatedAppMessages ∧
      ((result.settle input).sort).droppedMessages.Perm result.droppedMessages ∧
      ((result.settle input).sort).alreadySeen.Perm result.alreadySeen := by
  rw [CanonicalizationResult.settle]
  split_ifs <;> exact ⟨sortBy_perm _, sortBy_perm _, sortBy_perm _⟩

variable {entry : InvalidatedAppMessage}

theorem mem_invalidatedAppMessages :
    entry ∈ (canonicalizeInternal input materialized).invalidatedAppMessages ↔
      ∃ message ∈ input.uniqueMessages,
        (input.disposition materialized message).invalidated message = some entry := by
  rw [canonicalizeInternal_eq, (sort_settle_lists _).1.mem_iff]
  exact mem_filterMap

theorem invalidated_messageId {message : PeeledMessage}
    (invalidated : (input.disposition materialized message).invalidated message = some entry) :
    message.messageId = entry.messageId := by
  cases decided : input.disposition materialized message <;>
    simp only [decided, Disposition.invalidated] at invalidated <;> cases invalidated
  rfl

theorem invalidatedIds_nodup :
    ((canonicalizeInternal input materialized).invalidatedAppMessages.map
      InvalidatedAppMessage.messageId).Nodup := by
  rw [canonicalizeInternal_eq, ((sort_settle_lists _).1.map _).nodup_iff]
  show ((invalidatedBy (input.disposition materialized) input.uniqueMessages).map _).Nodup
  rw [map_invalidatedBy]
  exact (filter_sublist.map _).nodup uniqueMessages_nodup

/-- What a pass drops: commits of its candidates, and messages that carry no payload. -/
theorem mem_droppedMessages (replayed : input.Replayed) {dropped : DroppedMessage}
    (member : dropped ∈ (canonicalizeInternal input materialized).droppedMessages) :
    (∃ candidate ∈ materialized, dropped.messageId ∈ candidate.commitMessageIds) ∨
      ∃ message ∈ input.pendingMessages, message.messageId = dropped.messageId ∧
        message.kindName ≠ .appMessage := by
  have named : dropped.messageId ∈
      (input.disposed materialized).droppedMessages.map DroppedMessage.messageId := by
    rw [canonicalizeInternal_eq] at member
    exact mem_map_of_mem ((sort_settle_lists _).2.1.mem_iff.mp member)
  rw [disposed, mem_foldl_dropLosingCommit, map_droppedBy] at named
  rcases named with byLoop | losing
  · obtain ⟨message, kept, same⟩ := mem_map.mp byLoop
    obtain ⟨unique, drops⟩ := mem_filter.mp kept
    refine Or.inr ⟨message, dedupe_fst_subset _ _ unique, same, fun isApp => ?_⟩
    rw [disposition, dispositionOf] at drops
    rw [kindName] at isApp
    cases known : message.kind with
    | commit | proposal => simp [known] at isApp
    | appMessage =>
      simp only [known, handleAppMessage] at drops
      split_ifs at drops <;> cases drops
  · exact Or.inl (mem_losingIds replayed materialized losing)

end Loop

end Darkmatter
