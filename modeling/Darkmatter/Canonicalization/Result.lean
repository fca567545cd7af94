/-
**What a canonicalization pass returns.**

The dispositions of a pass are produced in three places: by the selected path, message by message,
and by the commits of the losing branches. `canonicalizeInternal_eq` writes the result of a pass in
closed form over these parts.

* `dedupe_nodup` — a message id is disposed of at most once by the message loop, so the lists the
  loop fills never meet (`disposed_rejectedIds_nodup`).
* `exclusive_dispositions_iff` — **when the whole result is exclusive**: no id is both accepted and
  rejected and none is rejected twice exactly when the selected path shares no commit with the losing
  branches, and a pending message with the id of a commit of either goes with it.
* `shared_prefix_not_exclusive` — two branches with a common first commit: the commit the client
  applies is also reported as rolled back.
-/

import Darkmatter.Canonicalization.Model

namespace Darkmatter

open Std Lib CanonicalizationResult PeeledMessage List

/-! ### The parts of a pass -/

variable (input : CanonicalizationInput) (materialized : List MaterializedCandidate)
  (message : PeeledMessage)

namespace CanonicalizationInput

/-- The messages the pass looks at. -/
def uniqueMessages : List PeeledMessage :=
  (dedupe input.state.seenMessageIds input.pendingMessages).1

def graph : MaterializedGraph := witnessedGraph input input.uniqueMessages materialized

def selected : Option BranchCandidate :=
  selectCanonicalBranch input.state.currentTipEpoch (input.graph materialized).candidates
    input.policy.convergence

def selectedBranch : SelectedBranch :=
  (input.graph materialized).selectedBranch (input.selected materialized)

def disposition : Disposition :=
  dispositionOf input (input.selectedBranch materialized) (input.graph materialized).branchIds
    message

/-- The result before the message loop. -/
def selectionStart : CanonicalizationResult :=
  selectionResult input (input.graph materialized)
    (dedupe input.state.seenMessageIds input.pendingMessages).2 (input.selected materialized)

def losingIds : List String :=
  match (input.selectedBranch materialized).branchId with
  | none => []
  | some selectedBranchId =>
    losingCommitIds
      (input.graph materialized).materializedCommitIdsByBranch selectedBranchId

end CanonicalizationInput

/-! ### The message loop -/

section Loop

variable (disposition : PeeledMessage → Disposition)

/-- The ids that receive one given disposition. -/
def acceptedBy (accepted : Disposition) (messages : List PeeledMessage) : List String :=
  (messages.filter fun message => disposition message = accepted).map messageId

def Disposition.dropped : Disposition → Option DroppedMessage
  | .drop reason => some ⟨message.messageId, message.kindName, reason⟩
  | _ => none

def Disposition.invalidated : Disposition → Option InvalidatedAppMessage
  | .invalidate epoch reason decryptedPayloadRef =>
    some ⟨message.messageId, epoch, reason, decryptedPayloadRef⟩
  | _ => none

variable (messages : List PeeledMessage)

def droppedBy : List DroppedMessage :=
  messages.filterMap fun message => (disposition message).dropped message

def invalidatedBy : List InvalidatedAppMessage :=
  messages.filterMap fun message => (disposition message).invalidated message

/-- **The message loop in closed form.** -/
theorem foldl_record (result : CanonicalizationResult) :
    messages.foldl (fun result message => result.record message (disposition message)) result =
      { result with
        acceptedCommits := result.acceptedCommits ++ acceptedBy disposition .acceptCommit messages
        acceptedProposals :=
          result.acceptedProposals ++ acceptedBy disposition .acceptProposal messages
        acceptedAppMessages :=
          result.acceptedAppMessages ++ acceptedBy disposition .acceptAppMessage messages
        droppedMessages := result.droppedMessages ++ droppedBy disposition messages
        invalidatedAppMessages :=
          result.invalidatedAppMessages ++ invalidatedBy disposition messages } := by
  induction messages generalizing result with
  | nil => simp [acceptedBy, droppedBy, invalidatedBy]
  | cons message rest ih =>
    rw [foldl_cons, ih]
    cases decided : disposition message <;>
      simp [record, acceptedBy, droppedBy, invalidatedBy, decided,
        Disposition.dropped, Disposition.invalidated]

end Loop

/-- **A pass in closed form**, before its status is computed. -/
def CanonicalizationInput.disposed (input : CanonicalizationInput)
    (materialized : List MaterializedCandidate) : CanonicalizationResult :=
  let messages := input.uniqueMessages
  let disposition := input.disposition materialized
  { input.selectionStart materialized with
    acceptedCommits :=
      (input.selectedBranch materialized).commitIds ++ acceptedBy disposition .acceptCommit messages
    acceptedProposals := acceptedBy disposition .acceptProposal messages
    acceptedAppMessages := acceptedBy disposition .acceptAppMessage messages
    invalidatedAppMessages := invalidatedBy disposition messages
    droppedMessages :=
      (input.losingIds materialized).foldl CanonicalizationResult.dropLosingCommit
        (droppedBy disposition messages) }

theorem canonicalizeInternal_eq (input : CanonicalizationInput)
    (materialized : List MaterializedCandidate) :
    canonicalizeInternal input materialized =
      ((input.disposed materialized).settle input).sort := by
  show (((input.uniqueMessages.foldl (fun (result : CanonicalizationResult) message =>
    result.record message (input.disposition materialized message))
    (input.selectionStart materialized)).dropLosingMaterializedCandidateCommits
      (input.graph materialized).materializedCommitIdsByBranch).settle input).sort = _
  rw [foldl_record]
  congr 2
  cases chosen : (input.selected materialized).map BranchCandidate.id <;>
    simp [dropLosingMaterializedCandidateCommits,
      CanonicalizationInput.disposed, CanonicalizationInput.losingIds,
      CanonicalizationInput.selectionStart, CanonicalizationInput.selectedBranch,
      MaterializedGraph.selectedBranch, selectionResult, chosen]

/-! ### Every id passes the message loop once -/

variable (observedIds : ExtTreeSet String)

theorem dedupe_fst_subset (messages : List PeeledMessage) :
    (dedupe observedIds messages).1 ⊆ messages := by
  induction messages generalizing observedIds with
  | nil => exact List.Subset.refl _
  | cons message rest ih =>
    rw [dedupe]
    split
    · exact subset_cons_of_subset _ (ih observedIds)
    · exact cons_subset_cons _ (ih (observedIds.insert message.messageId))

theorem dedupe_not_observed (messages : List PeeledMessage) :
    ∀ message ∈ (dedupe observedIds messages).1, message.messageId ∉ observedIds := by
  induction messages generalizing observedIds with
  | nil => exact fun _ member => absurd member not_mem_nil
  | cons message rest ih =>
    intro other member
    rw [dedupe] at member
    split at member
    · exact ih observedIds other member
    · rename_i unseen
      rcases mem_cons.mp member with rfl | later
      · exact unseen
      · exact fun observed =>
          ih _ other later (ExtTreeSet.mem_insert.mpr (Or.inr observed))

theorem dedupe_nodup (messages : List PeeledMessage) :
    ((dedupe observedIds messages).1.map messageId).Nodup := by
  induction messages generalizing observedIds with
  | nil => exact nodup_nil
  | cons message rest ih =>
    rw [dedupe]
    split
    · exact ih observedIds
    · refine nodup_cons.mpr ⟨fun again => ?_, ih _⟩
      obtain ⟨other, later, same⟩ := mem_map.mp again
      refine dedupe_not_observed _ _ other later (ExtTreeSet.mem_insert.mpr (Or.inl ?_))
      rw [same]
      exact ReflCmp.compare_self

namespace Disposition

def accepts : Disposition → Bool
  | .acceptCommit | .acceptProposal | .acceptAppMessage => true
  | _ => false

def drops : Disposition → Bool
  | .drop _ => true
  | _ => false

def invalidates : Disposition → Bool
  | .invalidate .. => true
  | _ => false

end Disposition

variable {id : String}

section LoopIds

variable {disposition : PeeledMessage → Disposition} {messages : List PeeledMessage}

private theorem map_filterMap_eq_filter {α β γ : Type} {f : α → Option β} {p : α → Bool} {g : β → γ}
    {h : α → γ} (agree : ∀ a, (f a).map g = if p a then some (h a) else none) (l : List α) :
    (l.filterMap f).map g = (l.filter p).map h := by
  induction l with
  | nil => rfl
  | cons a =>
    have here := agree a
    cases chosen : f a <;> cases kept : p a <;> simp_all

theorem map_droppedBy :
    (droppedBy disposition messages).map DroppedMessage.messageId =
      (messages.filter fun message => (disposition message).drops).map
        messageId := by
  refine map_filterMap_eq_filter (fun message => ?_) messages
  cases disposition message <;> rfl

theorem map_invalidatedBy :
    (invalidatedBy disposition messages).map InvalidatedAppMessage.messageId =
      (messages.filter fun message => (disposition message).invalidates).map
        messageId := by
  refine map_filterMap_eq_filter (fun message => ?_) messages
  cases disposition message <;> rfl

theorem mem_acceptedBy_append :
    (id ∈ acceptedBy disposition .acceptCommit messages ∨
        id ∈ acceptedBy disposition .acceptProposal messages ∨
        id ∈ acceptedBy disposition .acceptAppMessage messages) ↔
      ∃ message ∈ messages, message.messageId = id ∧ (disposition message).accepts := by
  simp only [acceptedBy, mem_map, mem_filter, decide_eq_true_eq]
  constructor
  · rintro (⟨message, ⟨member, decided⟩, here⟩ | ⟨message, ⟨member, decided⟩, here⟩ |
      ⟨message, ⟨member, decided⟩, here⟩) <;>
    exact ⟨message, member, here, by rw [decided]; rfl⟩
  · rintro ⟨message, member, here, accepted⟩
    cases decided : disposition message with
    | acceptCommit => exact Or.inl ⟨message, ⟨member, decided⟩, here⟩
    | acceptProposal => exact Or.inr (Or.inl ⟨message, ⟨member, decided⟩, here⟩)
    | acceptAppMessage => exact Or.inr (Or.inr ⟨message, ⟨member, decided⟩, here⟩)
    | drop => rw [decided] at accepted; cases accepted
    | invalidate => rw [decided] at accepted; cases accepted
    | undecided => rw [decided] at accepted; cases accepted

theorem eq_of_messageId_eq (distinct : (messages.map messageId).Nodup) {a b : PeeledMessage}
    (first : a ∈ messages) (second : b ∈ messages) (same : a.messageId = b.messageId) : a = b :=
  inj_on_of_nodup_map distinct first second same

end LoopIds

/-! ### The commits of the losing branches -/

section Losing

open CanonicalizationResult

variable {dropped : List DroppedMessage} {losing : List String}

theorem mem_foldl_dropLosingCommit :
    id ∈ (losing.foldl dropLosingCommit dropped).map DroppedMessage.messageId ↔
      id ∈ dropped.map DroppedMessage.messageId ∨ id ∈ losing := by
  induction losing generalizing dropped with
  | nil => simp
  | cons commit rest ih =>
    rw [foldl_cons, ih, dropLosingCommit]
    split
    · rename_i already
      have here : commit ∈ dropped.map DroppedMessage.messageId := by
        obtain ⟨entry, member, same⟩ := any_eq_true.mp already
        exact mem_map.mpr ⟨entry, member, eq_of_beq same⟩
      constructor
      · rintro (old | later)
        · exact Or.inl old
        · exact Or.inr (mem_cons_of_mem _ later)
      · rintro (old | new)
        · exact Or.inl old
        · rcases mem_cons.mp new with rfl | later
          · exact Or.inl here
          · exact Or.inr later
    · rw [map_append, mem_append, map_singleton, mem_singleton, mem_cons, or_assoc]

theorem nodup_foldl_dropLosingCommit (distinct : (dropped.map DroppedMessage.messageId).Nodup) :
    ((losing.foldl dropLosingCommit dropped).map DroppedMessage.messageId).Nodup := by
  induction losing generalizing dropped with
  | nil => exact distinct
  | cons commit rest ih =>
    rw [foldl_cons]
    refine ih ?_
    rw [dropLosingCommit]
    split
    · exact distinct
    · rename_i fresh
      rw [map_append, map_singleton, nodup_append]
      refine ⟨distinct, nodup_singleton _, fun id old id' new same => fresh ?_⟩
      obtain ⟨entry, member, here⟩ := mem_map.mp old
      refine any_eq_true.mpr ⟨entry, member, ?_⟩
      rw [here, same, mem_singleton.mp new]
      exact beq_self_eq_true _

end Losing

/-! ### Exclusive dispositions -/

namespace CanonicalizationResult

/-- The commits a pass reports as rolled back. -/
def rolledBackCommits (result : CanonicalizationResult) : List String :=
  (result.droppedMessages.filter fun dropped =>
    dropped.kind = .commit ∧ dropped.reason = .invalidAgainstCandidateState).map
      DroppedMessage.messageId

/-- No id is both accepted and rejected, no accepted commit is reported as rolled back, and no id
is rejected twice. -/
structure Exclusive (result : CanonicalizationResult) : Prop where
  accepted : ∀ id ∈ result.acceptedIds, id ∉ result.rejectedIds
  rolledBack : ∀ id ∈ result.acceptedCommits, id ∉ result.rolledBackCommits
  rejected : result.rejectedIds.Nodup

section Settling

variable (result : CanonicalizationResult)

theorem rolledBackCommits_subset : result.rolledBackCommits ⊆ result.rejectedIds := by
  intro _ rolledBack
  obtain ⟨entry, member, here⟩ := mem_map.mp rolledBack
  exact mem_append_left _ (mem_map.mpr ⟨entry, mem_of_mem_filter member, here⟩)

theorem exclusive_iff :
    result.Exclusive ↔
      (∀ id ∈ result.acceptedIds, id ∉ result.rejectedIds) ∧ result.rejectedIds.Nodup := by
  refine ⟨fun exclusive => ⟨exclusive.accepted, exclusive.rejected⟩, ?_⟩
  rintro ⟨accepted, rejected⟩
  refine ⟨accepted, fun id commit rolledBack => ?_, rejected⟩
  exact accepted id (mem_append_left _ (mem_append_left _ commit))
    (rolledBackCommits_subset result rolledBack)

theorem sort_acceptedIds_perm : result.sort.acceptedIds.Perm result.acceptedIds :=
  (List.Perm.append_left _ (sortBy_perm _)).append (sortBy_perm _)

theorem sort_rejectedIds_perm : result.sort.rejectedIds.Perm result.rejectedIds :=
  ((sortBy_perm _).map _).append ((sortBy_perm _).map _)

@[simp]
theorem settle_acceptedIds (input : CanonicalizationInput) :
    (result.settle input).acceptedIds = result.acceptedIds := by
  rw [settle]
  split <;> rfl

@[simp]
theorem settle_rejectedIds (input : CanonicalizationInput) :
    (result.settle input).rejectedIds = result.rejectedIds := by
  rw [settle]
  split <;> rfl

theorem exclusive_sort_settle (input : CanonicalizationInput) :
    (result.settle input).sort.Exclusive ↔ result.Exclusive := by
  have accepted := sort_acceptedIds_perm (result.settle input)
  have rejected := sort_rejectedIds_perm (result.settle input)
  rw [settle_acceptedIds] at accepted
  rw [settle_rejectedIds] at rejected
  rw [exclusive_iff, exclusive_iff, rejected.nodup_iff]
  simp only [accepted.mem_iff, rejected.mem_iff]

end Settling

end CanonicalizationResult

namespace CanonicalizationInput

/-- A branch that forks off at this epoch is not cut off by the anchor or the rewind limit. -/
def InReach (forkEpoch : Nat) : Prop :=
  input.state.retainedAnchorEpoch ≤ forkEpoch ∧
    input.state.currentTipEpoch - forkEpoch ≤ input.policy.convergence.maxRewindCommits

/-- **A message that goes with the selected path**: a commit in reach of the client; a proposal since
the anchor that the path consumes, or of no branch beside the path; an application message since the
anchor, in the payload window, that the selected branch decrypts. -/
def GoesWithPath : Prop :=
  match message.kind with
  | .commit _ _ forkEpoch _ _ _ _ => input.InReach forkEpoch
  | .proposal branchId => input.state.retainedAnchorEpoch ≤ message.sourceEpoch ∧
    (message.messageId ∈ (input.selectedBranch materialized).consumedProposalIds ∨
      branchId ∉ (input.graph materialized).branchIds ∨
      branchId ∈ (input.selectedBranch materialized).branchPath)
  | .appMessage epoch decryptsOnBranches _ => input.state.retainedAnchorEpoch ≤ epoch ∧
    input.state.currentTipEpoch - epoch ≤ input.policy.appMessagePastEpochLimit ∧
    ∃ branchId ∈ (input.selectedBranch materialized).branchId, branchId ∈ decryptsOnBranches

/-- **A message that goes with the losing paths**: a commit of another branch or out of reach, or a
proposal before the anchor or that the selected path does not consume. -/
def GoesWithLosers : Prop :=
  match message.kind with
  | .commit branchId _ forkEpoch _ _ _ _ =>
    (input.selectedBranch materialized).branchId = some branchId → ¬ input.InReach forkEpoch
  | .proposal _ => message.sourceEpoch < input.state.retainedAnchorEpoch ∨
    message.messageId ∉ (input.selectedBranch materialized).consumedProposalIds
  | .appMessage .. => False

/-- **The condition of exclusive dispositions.** The selected path and the losing branches share no
commit, and a pending message with the id of a commit of either goes with it. -/
structure Separated : Prop where
  paths : ∀ id ∈ (input.selectedBranch materialized).commitIds, id ∉ input.losingIds materialized
  selectedPath : ∀ message ∈ input.uniqueMessages,
    message.messageId ∈ (input.selectedBranch materialized).commitIds →
      input.GoesWithPath materialized message
  losingPaths : ∀ message ∈ input.uniqueMessages,
    message.messageId ∈ input.losingIds materialized → input.GoesWithLosers materialized message

variable {input materialized message}

open Disposition (drops invalidates accepts)

/-- A message with the id of a commit on the selected path is not rejected exactly when it goes with
the path. -/
theorem goesWithPath_iff
    (onPath : message.messageId ∈ (input.selectedBranch materialized).commitIds) :
    (¬ (input.disposition materialized message).drops ∧
        ¬ (input.disposition materialized message).invalidates) ↔
      input.GoesWithPath materialized message := by
  -- There is a selected branch, since its path is not empty.
  obtain ⟨selectedId, isSelected⟩ :
      ∃ selectedId, (input.selectedBranch materialized).branchId = some selectedId := by
    cases chosen : (input.selected materialized).map BranchCandidate.id with
    | none =>
      simp [selectedBranch, MaterializedGraph.selectedBranch, chosen] at onPath
    | some selectedId => exact ⟨selectedId, chosen⟩
  rw [disposition, dispositionOf, GoesWithPath]
  cases message.kind with
  | commit branchId parentBranchId forkEpoch =>
    simp only [handleCommit, InReach, if_pos onPath]
    split_ifs <;> simp only [drops, invalidates] <;> simp <;> omega
  | proposal branchId =>
    simp only [handleProposal, isSelected]
    split_ifs <;> simp [drops, invalidates, *] <;> grind
  | appMessage epoch decryptsOnBranches =>
    simp only [handleAppMessage, appMessageExpired, isSelected]
    split_ifs <;> simp [drops, invalidates, *] <;> grind

/-- A message with the id of a losing commit is neither accepted nor invalidated exactly when it goes
with the losing paths. -/
theorem goesWithLosers_iff
    (offPath : message.messageId ∉ (input.selectedBranch materialized).commitIds) :
    (¬ (input.disposition materialized message).accepts ∧
        ¬ (input.disposition materialized message).invalidates) ↔
      input.GoesWithLosers materialized message := by
  rw [disposition, dispositionOf, GoesWithLosers]
  cases message.kind with
  | commit branchId parentBranchId forkEpoch =>
    simp only [handleCommit, InReach, if_neg offPath]
    split_ifs <;> simp [accepts, invalidates, *] <;> grind
  | proposal branchId =>
    simp only [handleProposal]
    split_ifs <;> simp [accepts, invalidates, *]
  | appMessage epoch decryptsOnBranches =>
    simp only [handleAppMessage]
    split_ifs <;> simp [accepts, invalidates]

theorem uniqueMessages_nodup : (input.uniqueMessages.map messageId).Nodup :=
  dedupe_nodup _ _

theorem mem_disposed_acceptedIds :
    id ∈ (input.disposed materialized).acceptedIds ↔
      id ∈ (input.selectedBranch materialized).commitIds ∨
        ∃ message ∈ input.uniqueMessages,
          message.messageId = id ∧ (input.disposition materialized message).accepts := by
  rw [← mem_acceptedBy_append]
  simp only [acceptedIds, disposed, mem_append, or_assoc]

theorem mem_disposed_rejectedIds :
    id ∈ (input.disposed materialized).rejectedIds ↔
      id ∈ input.losingIds materialized ∨
        ∃ message ∈ input.uniqueMessages, message.messageId = id ∧
          ((input.disposition materialized message).drops ∨
            (input.disposition materialized message).invalidates) := by
  simp only [rejectedIds, disposed, mem_append,
    mem_foldl_dropLosingCommit, map_droppedBy, map_invalidatedBy]
  simp only [mem_map, mem_filter]
  constructor
  · rintro ((⟨message, ⟨member, drops⟩, here⟩ | losing) | ⟨message, ⟨member, invalidates⟩, here⟩)
    · exact Or.inr ⟨message, member, here, Or.inl drops⟩
    · exact Or.inl losing
    · exact Or.inr ⟨message, member, here, Or.inr invalidates⟩
  · rintro (losing | ⟨message, member, here, drops | invalidates⟩)
    · exact Or.inl (Or.inr losing)
    · exact Or.inl (Or.inl ⟨message, ⟨member, drops⟩, here⟩)
    · exact Or.inr ⟨message, ⟨member, invalidates⟩, here⟩

/-- No id is rejected twice exactly when no losing commit id is also invalidated. -/
theorem disposed_rejectedIds_nodup :
    (input.disposed materialized).rejectedIds.Nodup ↔
      ∀ message ∈ input.uniqueMessages, message.messageId ∈ input.losingIds materialized →
        ¬ (input.disposition materialized message).invalidates := by
  have distinct := @uniqueMessages_nodup input
  rw [rejectedIds, nodup_append]
  simp only [disposed]
  constructor
  · rintro ⟨_, _, apart⟩ message member losing invalidates
    refine apart _ (mem_foldl_dropLosingCommit.mpr (Or.inr losing)) message.messageId ?_ rfl
    rw [map_invalidatedBy]
    exact mem_map.mpr ⟨message, mem_filter.mpr ⟨member, invalidates⟩, rfl⟩
  · intro separated
    refine ⟨nodup_foldl_dropLosingCommit ?_, ?_, ?_⟩
    · rw [map_droppedBy]
      exact distinct.sublist (filter_sublist.map _)
    · rw [map_invalidatedBy]
      exact distinct.sublist (filter_sublist.map _)
    · rintro _ droppedId _ invalidatedId rfl
      rw [map_invalidatedBy] at invalidatedId
      obtain ⟨message, found, here⟩ := mem_map.mp invalidatedId
      obtain ⟨member, invalidates⟩ := mem_filter.mp found
      rcases mem_foldl_dropLosingCommit.mp droppedId with byLoop | losing
      · rw [map_droppedBy] at byLoop
        obtain ⟨other, found', same⟩ := mem_map.mp byLoop
        obtain ⟨member', drops⟩ := mem_filter.mp found'
        have one : other = message := eq_of_messageId_eq distinct member' member (same.trans here.symm)
        rw [one] at drops
        cases decided : input.disposition materialized message <;>
          simp_all [Disposition.drops, Disposition.invalidates]
      · exact separated message member (here ▸ losing) invalidates

theorem disposed_exclusive_iff :
    (input.disposed materialized).Exclusive ↔ input.Separated materialized := by
  rw [CanonicalizationResult.exclusive_iff, disposed_rejectedIds_nodup]
  simp only [mem_disposed_acceptedIds, mem_disposed_rejectedIds]
  constructor
  · rintro ⟨apart, once⟩
    have paths : ∀ id ∈ (input.selectedBranch materialized).commitIds,
        id ∉ input.losingIds materialized := fun id path losing =>
      apart id (Or.inl path) (Or.inl losing)
    refine ⟨paths, fun message member path => (goesWithPath_iff path).mp
      ⟨fun drops => ?_, fun invalidates => ?_⟩, fun message member losing =>
      (goesWithLosers_iff fun path => paths _ path losing).mp
        ⟨fun accepts => ?_, once message member losing⟩⟩
    · exact apart _ (Or.inl path) (Or.inr ⟨message, member, rfl, Or.inl drops⟩)
    · exact apart _ (Or.inl path) (Or.inr ⟨message, member, rfl, Or.inr invalidates⟩)
    · exact apart _ (Or.inr ⟨message, member, rfl, accepts⟩) (Or.inl losing)
  · intro separated
    have losers : ∀ message ∈ input.uniqueMessages,
        message.messageId ∈ input.losingIds materialized →
          ¬ (input.disposition materialized message).accepts ∧
            ¬ (input.disposition materialized message).invalidates := fun message member losing =>
      (goesWithLosers_iff fun path => separated.paths _ path losing).mpr
        (separated.losingPaths message member losing)
    refine ⟨?_, fun message member losing => (losers message member losing).2⟩
    rintro id (path | ⟨message, member, here, accepts⟩) (losing | ⟨other, member', same, rejects⟩)
    · exact separated.paths id path losing
    · have clear := (goesWithPath_iff (same ▸ path)).mpr
        (separated.selectedPath other member' (same ▸ path))
      exact rejects.elim clear.1 clear.2
    · exact (losers message member (here ▸ losing)).1 accepts
    · have one : other = message :=
        eq_of_messageId_eq uniqueMessages_nodup member' member (same.trans here.symm)
      rw [one] at rejects
      cases decided : input.disposition materialized message <;>
        simp_all [Disposition.accepts, Disposition.drops, Disposition.invalidates]

end CanonicalizationInput

/-- **When the dispositions of a pass are exclusive.** For every input and every list of replayed
candidates. -/
theorem exclusive_dispositions_iff (input : CanonicalizationInput)
    (materialized : List MaterializedCandidate) :
    (canonicalizeInternal input materialized).Exclusive ↔ input.Separated materialized := by
  rw [canonicalizeInternal_eq, CanonicalizationResult.exclusive_sort_settle,
    CanonicalizationInput.disposed_exclusive_iff]

/-! ### Two branches with a common first commit -/

/-- A client at epoch 2 that fell behind, with nothing pending. -/
def forkedInput : CanonicalizationInput where
  state :=
    { currentTipEpoch := 2
      retainedAnchorEpoch := 0
      lastConvergenceRelevantInputMs := 0
      seenMessageIds := ∅ }
  pendingMessages := []
  outboundIntents := []
  candidateBranches := []
  policy := .default
  nowMs := 1000

/-- The branch that commits `path` from epoch 2, with tip digest `digest`. -/
def forkedCandidate (id : String) (path : List String) (digest : Bytes) :
    MaterializedCandidate where
  branch :=
    { id
      forkEpoch := 2
      tipEpoch := 2 + path.length
      tipPriority := .ordinary
      tipCommitter := []
      tipDigest := digest
      appWitnesses := [] }
  commitMessageIds := path
  consumedProposalIds := []

/-- The client applies `c1` and `c2`, and reports `c1` as rolled back. -/
theorem shared_prefix_not_exclusive :
    let result := canonicalizeInternal forkedInput
      [forkedCandidate "p" ["c1", "c2"] [1], forkedCandidate "q" ["c1", "c3"] [2]]
    result.acceptedCommits = ["c1", "c2"] ∧ result.rolledBackCommits = ["c1", "c3"] ∧
      ¬ result.Exclusive := by
  have accepted : (canonicalizeInternal forkedInput
      [forkedCandidate "p" ["c1", "c2"] [1], forkedCandidate "q" ["c1", "c3"] [2]]).acceptedCommits
        = ["c1", "c2"] := by decide
  have rolledBack : (canonicalizeInternal forkedInput
      [forkedCandidate "p" ["c1", "c2"] [1],
        forkedCandidate "q" ["c1", "c3"] [2]]).rolledBackCommits = ["c1", "c3"] := by decide
  refine ⟨accepted, rolledBack, fun exclusive => ?_⟩
  refine exclusive.rolledBack "c1" ?_ ?_
  · rw [accepted]
    exact mem_cons_self
  · rw [rolledBack]
    exact mem_cons_self

end Darkmatter
