/-
**The order of the inputs of a pass.**

Devices receive messages in different orders, so a pass should depend on the set of its inputs
only. Reordering the pending messages, the known branches and the replayed branches

* leaves the candidate graph as it is (`Reordered.graph`), up to the order of witnesses;
* leaves the selected branch and its trace as they are (`Reordered.selected`);
* leaves every part of the result as it is except the accepted commits (`Reordered.result`).

The accepted commits are the selected path, followed by the *stray* commits in arrival order: the
pending commits that name the selected branch without being on its path.
`reorder_invariant_iff` — a pass does not depend on the order of its inputs exactly when it has at
most one stray commit — and `stray_commits_reordered` shows two of them.
-/

import Darkmatter.Canonicalization.Result

namespace Darkmatter

open Std Lib BranchCandidate List

/-! ### The comparators separate what they compare -/

instance : TransOrd MessageKind := inferInstanceAs (TransCmp (compareOn MessageKind.ctorIdx))

instance : LawfulEqOrd MessageKind where
  eq_of_compare {a b} := by cases a <;> cases b <;> decide

instance : TransOrd InvalidatedAppMessageReason :=
  inferInstanceAs (TransCmp (compareOn InvalidatedAppMessageReason.ctorIdx))

instance : LawfulEqOrd InvalidatedAppMessageReason where
  eq_of_compare {a b} := by cases a <;> cases b <;> decide

instance : TransOrd DroppedMessageReason :=
  inferInstanceAs (TransCmp (compareOn DroppedMessageReason.ctorIdx))

instance : LawfulEqOrd DroppedMessageReason where
  eq_of_compare {a b} := by cases a <;> cases b <;> decide

instance : TransOrd AlreadySeen :=
  inferInstanceAs <| TransCmp <|
    compareLex (compareOn AlreadySeen.messageId) (compareOn AlreadySeen.kind)

instance : LawfulEqOrd AlreadySeen where
  eq_of_compare {a b} same := by
    obtain ⟨messageId, kind⟩ := a
    have parts : compare messageId b.messageId = .eq ∧ compare kind b.kind = .eq :=
      Ordering.then_eq_eq.mp same
    rw [LawfulEqCmp.eq_of_compare parts.1, LawfulEqCmp.eq_of_compare parts.2]

instance : TransOrd DroppedMessage :=
  inferInstanceAs <| TransCmp <|
    compareLex (compareOn DroppedMessage.messageId)
      (compareLex (compareOn DroppedMessage.kind) (compareOn DroppedMessage.reason))

instance : LawfulEqOrd DroppedMessage where
  eq_of_compare {a b} same := by
    obtain ⟨messageId, kind, reason⟩ := a
    have parts : compare messageId b.messageId = .eq ∧
        ((compare kind b.kind).then (compare reason b.reason)) = .eq :=
      Ordering.then_eq_eq.mp same
    rw [Ordering.then_eq_eq] at parts
    rw [LawfulEqCmp.eq_of_compare parts.1, LawfulEqCmp.eq_of_compare parts.2.1,
      LawfulEqCmp.eq_of_compare parts.2.2]

instance : TransOrd InvalidatedAppMessage :=
  inferInstanceAs <| TransCmp <|
    compareLex (compareOn InvalidatedAppMessage.messageId) <|
    compareLex (compareOn InvalidatedAppMessage.epoch) <|
    compareLex (compareOn InvalidatedAppMessage.reason) <|
    compareOn InvalidatedAppMessage.decryptedPayloadRef

instance : LawfulEqOrd InvalidatedAppMessage where
  eq_of_compare {a b} same := by
    obtain ⟨messageId, epoch, reason, payloadRef⟩ := a
    have parts : compare messageId b.messageId = .eq ∧
        ((compare epoch b.epoch).then ((compare reason b.reason).then
          (compare payloadRef b.decryptedPayloadRef))) = .eq :=
      Ordering.then_eq_eq.mp same
    rw [Ordering.then_eq_eq, Ordering.then_eq_eq] at parts
    rw [LawfulEqCmp.eq_of_compare parts.1, LawfulEqCmp.eq_of_compare parts.2.1,
      LawfulEqCmp.eq_of_compare parts.2.2.1, LawfulEqCmp.eq_of_compare parts.2.2.2]

instance : TransCmp compareCommitMessages :=
  inferInstanceAs <| TransCmp <|
    compareLex (compareOn PeeledMessage.sourceEpoch) (compareOn PeeledMessage.messageId)

/-! ### Duplicates -/

variable {messages messages' : List PeeledMessage}

theorem dedupe_perm (same : messages.Perm messages') :
    ∀ observedIds : ExtTreeSet String,
      (∀ a ∈ messages, ∀ b ∈ messages, a.messageId = b.messageId → a = b) →
        (dedupe observedIds messages).1.Perm (dedupe observedIds messages').1 ∧
          (dedupe observedIds messages).2.Perm (dedupe observedIds messages').2 := by
  induction same with
  | nil => exact fun _ _ => ⟨.refl _, .refl _⟩
  | cons message _ ih =>
    intro observedIds determined
    have rest := fun observedIds => ih observedIds fun a first b second =>
      determined a (mem_cons_of_mem _ first) b (mem_cons_of_mem _ second)
    rw [dedupe, dedupe]
    split
    · exact ⟨(rest _).1, (rest _).2.cons _⟩
    · exact ⟨(rest _).1.cons _, (rest _).2⟩
  | swap a b =>
    intro observedIds determined
    by_cases same : a.messageId = b.messageId
    · have one : a = b := determined a (mem_cons_of_mem _ mem_cons_self) b
        mem_cons_self same
      rw [one]
      exact ⟨.refl _, .refl _⟩
    · have apart : ∀ x y : PeeledMessage, x.messageId ≠ y.messageId →
          (x.messageId ∈ observedIds.insert y.messageId ↔ x.messageId ∈ observedIds) := by
        intro x y differ
        rw [ExtTreeSet.mem_insert, LawfulEqCmp.compare_eq_iff_eq]
        exact or_iff_right (Ne.symm differ)
      have commute : (observedIds.insert a.messageId).insert b.messageId =
          (observedIds.insert b.messageId).insert a.messageId := by
        refine ExtTreeSet.ext_mem fun id => ?_
        simp only [ExtTreeSet.mem_insert]
        tauto
      simp only [dedupe, apart a b same, apart b a (Ne.symm same)]
      by_cases seenA : a.messageId ∈ observedIds <;> by_cases seenB : b.messageId ∈ observedIds
      · simp only [seenA, seenB, if_true]
        exact ⟨.refl _, .swap _ _ _⟩
      · simp only [seenA, seenB, if_true, if_false]
        exact ⟨.refl _, .refl _⟩
      · simp only [seenA, seenB, if_true, if_false]
        exact ⟨.refl _, .refl _⟩
      · simp only [seenA, seenB, if_false, commute]
        exact ⟨.swap _ _ _, .refl _⟩
  | trans first _ ih ih' =>
    intro observedIds determined
    have middle := ih' observedIds fun a here b there =>
      determined a (first.mem_iff.mpr here) b (first.mem_iff.mpr there)
    exact ⟨(ih observedIds determined).1.trans middle.1, (ih observedIds determined).2.trans middle.2⟩

/-! ### The graph -/

variable {a b : BranchCandidate}

namespace GraphBuilder

variable {input input' : CanonicalizationInput} {builder : GraphBuilder}

private theorem insert_comm {β : Type} (map : ExtTreeMap String β) {a b : String} (x y : β)
    (differ : a ≠ b) : (map.insert a x).insert b y = (map.insert b y).insert a x := by
  refine ExtTreeMap.ext_getElem? fun key => ?_
  simp only [ExtTreeMap.getElem?_insert, LawfulEqCmp.compare_eq_iff_eq]
  by_cases one : a = key
  · subst one
    simp [Ne.symm differ]
  · simp [one]

theorem foldl_insertCandidate_perm {candidates candidates' : List BranchCandidate}
    (same : candidates.Perm candidates') (distinct : (candidates.map BranchCandidate.id).Nodup) :
    candidates.foldl insertCandidate builder = candidates'.foldl insertCandidate builder := by
  refine same.foldl_eq' (fun a first b second builder => ?_) builder
  by_cases one : a = b
  · rw [one]
  · have differ := fun id => one (inj_on_of_nodup_map distinct first second id)
    ext1 <;> first | rfl | exact insert_comm _ _ _ differ

theorem foldl_insertMaterialized_perm {materialized materialized' : List MaterializedCandidate}
    (same : materialized.Perm materialized')
    (distinct : (materialized.map fun candidate => candidate.branch.id).Nodup) :
    materialized.foldl insertMaterialized builder =
      materialized'.foldl insertMaterialized builder := by
  refine same.foldl_eq' (fun a first b second builder => ?_) builder
  by_cases one : a = b
  · rw [one]
  · have differ := fun id => one (inj_on_of_nodup_map distinct first second id)
    ext1 <;> first | rfl | exact insert_comm _ _ _ differ

/-- Attaching commits reads the state and the policy of a pass only. -/
theorem materializeRounds_congr (state : input.state = input'.state)
    (policy : input.policy = input'.policy) (commitMessages : List PeeledMessage) (rounds : Nat) :
    builder.materializeRounds input commitMessages rounds =
      builder.materializeRounds input' commitMessages rounds := by
  have commit : ∀ (builder : GraphBuilder) (message : PeeledMessage),
      builder.materializeCommit input message = builder.materializeCommit input' message := by
    intro builder message
    simp only [materializeCommit, state, policy]
  have step : materializeStep input = materializeStep input' := by
    funext builder message
    simp only [materializeStep, commit]
  induction rounds generalizing builder with
  | zero => rfl
  | succ rounds ih => simp only [materializeRounds, materializeRound, step, ih]

end GraphBuilder

/-! ### Witnesses -/

namespace BranchCandidate.Similar

theorem refl (a : BranchCandidate) : a.Similar a := ⟨rfl, rfl, rfl, rfl, rfl, rfl, .refl _⟩

instance instReflSimilar : Std.Refl Similar := ⟨refl⟩

theorem trans {a b c : BranchCandidate} (first : a.Similar b) (second : b.Similar c) :
    a.Similar c :=
  ⟨first.id.trans second.id, first.forkEpoch.trans second.forkEpoch,
    first.tipEpoch.trans second.tipEpoch, first.tipPriority.trans second.tipPriority,
    first.tipCommitter.trans second.tipCommitter, first.tipDigest.trans second.tipDigest,
    first.appWitnesses.trans second.appWitnesses⟩

theorem forall₂_trans {a b c : List BranchCandidate}
    (first : Forall₂ Similar a b)
    (second : Forall₂ Similar b c) :
    Forall₂ Similar a c := by
  induction first generalizing c with
  | nil =>
    cases second
    exact .nil
  | cons here _ ih =>
    cases second with
    | cons here' rest => exact .cons (here.trans here') (ih rest)

end BranchCandidate.Similar

section Witnesses

variable {policy : CanonicalizationPolicy} {candidates candidates' : List BranchCandidate}

@[simp]
theorem gainWitness_id (candidate : BranchCandidate) (witness : AppWitness) :
    (candidate.gainWitness policy witness).id = candidate.id := by
  rw [gainWitness]
  split <;> rfl

theorem gainWitness_similar (similar : a.Similar b) (witness : AppWitness) :
    (a.gainWitness policy witness).Similar (b.gainWitness policy witness) := by
  have expired : appMessageExpired a.tipEpoch policy witness.epoch =
      appMessageExpired b.tipEpoch policy witness.epoch := by rw [similar.tipEpoch]
  rw [gainWitness, gainWitness, expired]
  split
  · exact similar
  · exact ⟨similar.id, similar.forkEpoch, similar.tipEpoch, similar.tipPriority,
      similar.tipCommitter, similar.tipDigest, similar.appWitnesses.append_right _⟩

theorem gainWitness_comm (candidate : BranchCandidate) (first second : AppWitness) :
    ((candidate.gainWitness policy first).gainWitness policy second).Similar
      ((candidate.gainWitness policy second).gainWitness policy first) := by
  by_cases one : appMessageExpired candidate.tipEpoch policy first.epoch <;>
    by_cases two : appMessageExpired candidate.tipEpoch policy second.epoch <;>
    simp only [gainWitness, one, two, if_true, if_false, Bool.false_eq_true]
  · exact .refl _
  · exact .refl _
  · exact .refl _
  · refine ⟨rfl, rfl, rfl, rfl, rfl, rfl, ?_⟩
    rw [append_assoc, append_assoc]
    exact List.Perm.append_left _ (List.Perm.swap _ _ _)

theorem attachAppWitness_similar (attachment : AppWitness × String)
    (related : Forall₂ Similar candidates candidates') :
    Forall₂ Similar
      (attachAppWitness policy attachment.1 candidates attachment.2)
      (attachAppWitness policy attachment.1 candidates' attachment.2) := by
  induction related with
  | nil => exact .nil
  | cons here rest ih =>
    rw [attachAppWitness, attachAppWitness, here.id]
    split
    · exact .cons (gainWitness_similar here _) rest
    · exact .cons here ih

theorem attachAppWitness_comm (candidates : List BranchCandidate) (a b : AppWitness × String) :
    Forall₂ Similar
      (attachAppWitness policy b.1 (attachAppWitness policy a.1 candidates a.2) b.2)
      (attachAppWitness policy a.1 (attachAppWitness policy b.1 candidates b.2) a.2) := by
  induction candidates with
  | nil => exact .nil
  | cons candidate rest ih =>
    by_cases hereA : candidate.id = a.2
    · by_cases hereB : candidate.id = b.2
      · rw [attachAppWitness, if_pos hereA, attachAppWitness, gainWitness_id, if_pos hereB,
          attachAppWitness, if_pos hereB, attachAppWitness, gainWitness_id, if_pos hereA]
        exact .cons (gainWitness_comm _ _ _) (forall₂_refl rest)
      · rw [attachAppWitness, if_pos hereA, attachAppWitness, gainWitness_id, if_neg hereB,
          attachAppWitness, if_neg hereB, attachAppWitness, if_pos hereA]
        exact forall₂_refl _
    · by_cases hereB : candidate.id = b.2
      · rw [attachAppWitness, if_neg hereA, attachAppWitness, if_pos hereB, attachAppWitness,
          if_pos hereB, attachAppWitness, gainWitness_id, if_neg hereA]
        exact forall₂_refl _
      · rw [attachAppWitness, if_neg hereA, attachAppWitness, if_neg hereB, attachAppWitness,
          if_neg hereB, attachAppWitness, if_neg hereA]
        exact .cons (.refl _) ih

/-- The witnesses a message offers, with the branches it offers them to. -/
def PeeledMessage.attachments (message : PeeledMessage) : List (AppWitness × String) :=
  match message.kind with
  | .appMessage epoch decryptsOnBranches _ =>
    decryptsOnBranches.map fun branchId => (⟨epoch, message.sender⟩, branchId)
  | _ => []

theorem attachAppWitnesses_eq_foldl (candidates : List BranchCandidate)
    (messages : List PeeledMessage) :
    attachAppWitnesses candidates messages policy =
      (messages.flatMap PeeledMessage.attachments).foldl
        (fun candidates attachment =>
          attachAppWitness policy attachment.1 candidates attachment.2) candidates := by
  rw [foldl_flatMap, attachAppWitnesses]
  congr 1
  funext candidates message
  rw [attachMessageWitnesses, PeeledMessage.attachments]
  cases message.kind with
  | commit => rfl
  | proposal => rfl
  | appMessage =>
    show _ = List.foldl _ _ (map _ _)
    rw [foldl_map]

/-- **The order of the messages only reorders the witnesses.** -/
theorem attachAppWitnesses_perm (candidates : List BranchCandidate) (same : messages.Perm messages') :
    Forall₂ Similar (attachAppWitnesses candidates messages policy)
      (attachAppWitnesses candidates messages' policy) := by
  rw [attachAppWitnesses_eq_foldl, attachAppWitnesses_eq_foldl]
  exact foldl_perm_rel (R := Forall₂ Similar)
    Similar.forall₂_trans
    (fun attachment related => attachAppWitness_similar attachment related)
    attachAppWitness_comm (same.flatMap_right _)
    (forall₂_refl _) (forall₂_refl _)

end Witnesses

/-! ### Results whose lists are permuted -/

namespace CanonicalizationResult

/-- A losing commit is dropped or not by the ids that were dropped before, not by their order. -/
theorem foldl_dropLosingCommit_perm (losing : List String) {dropped dropped' : List DroppedMessage}
    (same : dropped.Perm dropped') :
    (losing.foldl dropLosingCommit dropped).Perm (losing.foldl dropLosingCommit dropped') := by
  induction losing generalizing dropped dropped' with
  | nil => exact same
  | cons commit rest ih =>
    refine ih ?_
    have any : (dropped.any fun entry => entry.messageId == commit) =
        dropped'.any fun entry => entry.messageId == commit := same.any_eq
    rw [dropLosingCommit, dropLosingCommit, any]
    split
    · exact same
    · exact same.append_right _

/-- Two results that agree up to the order of their lists. -/
structure Permuted (result result' : CanonicalizationResult) : Prop where
  rest : result' =
    { result with
      acceptedCommits := result'.acceptedCommits
      acceptedProposals := result'.acceptedProposals
      acceptedAppMessages := result'.acceptedAppMessages
      invalidatedAppMessages := result'.invalidatedAppMessages
      droppedMessages := result'.droppedMessages
      alreadySeen := result'.alreadySeen }
  acceptedCommits : result.acceptedCommits.Perm result'.acceptedCommits
  acceptedProposals : result.acceptedProposals.Perm result'.acceptedProposals
  acceptedAppMessages : result.acceptedAppMessages.Perm result'.acceptedAppMessages
  invalidatedAppMessages : result.invalidatedAppMessages.Perm result'.invalidatedAppMessages
  droppedMessages : result.droppedMessages.Perm result'.droppedMessages
  alreadySeen : result.alreadySeen.Perm result'.alreadySeen

variable {result result' : CanonicalizationResult} {input : CanonicalizationInput}

theorem Permuted.resolvedIds (permuted : result.Permuted result') :
    result.resolvedIds.Perm result'.resolvedIds :=
  (((permuted.acceptedCommits.append permuted.acceptedProposals).append
    permuted.acceptedAppMessages).append
      ((permuted.droppedMessages.map _).append (permuted.invalidatedAppMessages.map _))).append
    (permuted.alreadySeen.map _)

theorem Permuted.convergenceStatus (permuted : result.Permuted result')
    {pending : List PeeledMessage} {candidates : List BranchCandidate}
    (samePending : input.pendingMessages.Perm pending) :
    convergenceStatusForResult input input.pendingMessages result =
      convergenceStatusForResult { input with
        pendingMessages := pending, candidateBranches := candidates } pending result' := by
  have resolved : ∀ id, result.resolvedIds.contains id = result'.resolvedIds.contains id := by
    intro _
    rw [Bool.eq_iff_iff, contains_iff_mem, contains_iff_mem, permuted.resolvedIds.mem_iff]
  have blocking : hasBlockingConvergenceError result = hasBlockingConvergenceError result' := by
    rw [permuted.rest]
    rfl
  simp only [convergenceStatusForResult, blocking, samePending.any_eq, resolved]

/-- **Sorting forgets the order of every list but the accepted commits.** -/
theorem Permuted.settle_sort (permuted : result.Permuted result') {pending : List PeeledMessage}
    {candidates : List BranchCandidate} (samePending : input.pendingMessages.Perm pending) :
    (result'.settle { input with
        pendingMessages := pending, candidateBranches := candidates }).sort =
      { (result.settle input).sort with acceptedCommits := result'.acceptedCommits } := by
  have status := @Permuted.convergenceStatus _ _ input permuted pending candidates samePending
  rw [settle, settle, ← status, permuted.rest]
  split <;>
    simp only [sort, sortBy_congr permuted.acceptedProposals,
      sortBy_congr permuted.acceptedAppMessages, sortBy_congr permuted.invalidatedAppMessages,
      sortBy_congr permuted.droppedMessages, sortBy_congr permuted.alreadySeen]

end CanonicalizationResult

/-! ### Reordered inputs -/

namespace CanonicalizationInput

/-- Equal ids mean equal messages, and branches have distinct ids. -/
structure Identified (input : CanonicalizationInput)
    (materialized : List MaterializedCandidate) : Prop where
  messages : ∀ a ∈ input.pendingMessages, ∀ b ∈ input.pendingMessages,
    a.messageId = b.messageId → a = b
  candidates : (input.candidateBranches.map BranchCandidate.id).Nodup
  materialized : (materialized.map fun candidate => candidate.branch.id).Nodup

/-- The same pass with its lists in another order. -/
def reorder (input : CanonicalizationInput) (pendingMessages : List PeeledMessage)
    (candidateBranches : List BranchCandidate) : CanonicalizationInput :=
  { input with pendingMessages, candidateBranches }

/-- **Inputs in another order**: the lists are permuted, and ids tell their entries apart. -/
structure Reordered (input : CanonicalizationInput) (materialized : List MaterializedCandidate)
    (pending : List PeeledMessage) (candidates : List BranchCandidate)
    (replayed : List MaterializedCandidate) : Prop where
  identified : input.Identified materialized
  pendingMessages : input.pendingMessages.Perm pending
  candidateBranches : input.candidateBranches.Perm candidates
  materialized : materialized.Perm replayed

namespace Reordered

variable {input : CanonicalizationInput} {materialized replayed : List MaterializedCandidate}
  {pending : List PeeledMessage} {candidates : List BranchCandidate}
  (same : input.Reordered materialized pending candidates replayed)

include same

theorem uniqueMessages :
    input.uniqueMessages.Perm (input.reorder pending candidates).uniqueMessages :=
  (dedupe_perm same.pendingMessages _ same.identified.messages).1

theorem alreadySeen :
    (dedupe input.state.seenMessageIds input.pendingMessages).2.Perm
      (dedupe input.state.seenMessageIds pending).2 :=
  (dedupe_perm same.pendingMessages _ same.identified.messages).2

/-- The commits try to attach in the same order. -/
theorem commitMessages :
    sortBy compareCommitMessages (input.uniqueMessages.filter PeeledMessage.isCommit) =
      sortBy compareCommitMessages
        ((input.reorder pending candidates).uniqueMessages.filter PeeledMessage.isCommit) := by
  refine sortBy_eq_of_perm (same.uniqueMessages.filter _) ?_
  intro a first b second equal
  rw [compareCommitMessages, Ordering.then_eq_eq] at equal
  exact same.identified.messages a (dedupe_fst_subset _ _ (mem_of_mem_filter first)) b
    (dedupe_fst_subset _ _ (mem_of_mem_filter second)) (LawfulEqCmp.eq_of_compare equal.2)

theorem graph :
    materializeCandidateGraph input input.uniqueMessages materialized =
      materializeCandidateGraph (input.reorder pending candidates)
        (input.reorder pending candidates).uniqueMessages replayed := by
  have known := @GraphBuilder.foldl_insertCandidate_perm {} _ _ same.candidateBranches
    same.identified.candidates
  have replays := @GraphBuilder.foldl_insertMaterialized_perm
    (candidates.foldl GraphBuilder.insertCandidate {}) _ _ same.materialized
    same.identified.materialized
  have rounds := @GraphBuilder.materializeRounds_congr input (input.reorder pending candidates)
  simp only [materializeCandidateGraph]
  rw [same.commitMessages, known, replays, rounds rfl rfl]
  rfl

theorem related :
    Forall₂ Similar (input.graph materialized).candidates
      ((input.reorder pending candidates).graph replayed).candidates := by
  show Forall₂ _ (attachAppWitnesses _ _ _) (attachAppWitnesses _ _ _)
  rw [← same.graph]
  exact attachAppWitnesses_perm _ same.uniqueMessages

theorem selected :
    Option.Rel Similar (input.selected materialized)
      ((input.reorder pending candidates).selected replayed) :=
  selectCanonicalBranch_similar same.related

theorem selectedBranch :
    input.selectedBranch materialized =
      (input.reorder pending candidates).selectedBranch replayed := by
  have id := map_eq_of_rel (fun _ _ similar => similar.id) same.selected
  simp only [CanonicalizationInput.selectedBranch, MaterializedGraph.selectedBranch, id,
    CanonicalizationInput.graph, witnessedGraph, same.graph]

theorem disposition :
    input.disposition materialized = (input.reorder pending candidates).disposition replayed := by
  funext message
  show dispositionOf input _ (materializeCandidateGraph _ _ _).branchIds message = _
  rw [same.selectedBranch, same.graph]
  rfl

theorem losingIds :
    input.losingIds materialized = (input.reorder pending candidates).losingIds replayed := by
  simp only [CanonicalizationInput.losingIds, CanonicalizationInput.graph, witnessedGraph,
    same.graph, same.selectedBranch]

theorem selectionStart :
    { input.selectionStart materialized with
        alreadySeen := (dedupe input.state.seenMessageIds pending).2 } =
      (input.reorder pending candidates).selectionStart replayed := by
  have related := same.related
  have chosen := same.selected
  have none : (input.selected materialized).isNone = _ :=
    (Option.isNone_map ..).symm.trans
      ((congrArg Option.isNone (map_eq_of_rel (fun _ _ similar => similar.id) chosen)).trans
        (Option.isNone_map ..))
  have trace : selectCanonicalBranchTraced input.state.currentTipEpoch
      (input.graph materialized).candidates input.policy.convergence = _ :=
    selectCanonicalBranchTraced_similar related
  have count := (@eligible_similar input.state.currentTipEpoch input.policy.convergence _ _
    related).length_eq
  have path : ((input.graph materialized).selectedBranch
      (input.selected materialized)).commitIds = _ :=
    congrArg SelectedBranch.commitIds same.selectedBranch
  simp only [CanonicalizationInput.selectionStart, selectionResult, related.length_eq, trace, count,
    path, none, map_eq_of_rel (fun _ _ similar => similar.id) chosen,
    map_eq_of_rel (fun _ _ similar => similar.tipEpoch) chosen,
    map_eq_of_rel (fun _ _ similar => similar.forkEpoch) chosen]
  rfl

theorem disposed :
    (input.disposed materialized).Permuted
      ((input.reorder pending candidates).disposed replayed) := by
  have messages := same.uniqueMessages
  refine ⟨?_, ?_, ?_, ?_, ?_, ?_, ?_⟩ <;>
    simp only [CanonicalizationInput.disposed, ← same.selectionStart, ← same.selectedBranch,
      ← same.disposition, ← same.losingIds]
  · exact List.Perm.append_left _ ((messages.filter _).map _)
  · exact (messages.filter _).map _
  · exact (messages.filter _).map _
  · exact messages.filterMap _
  · exact CanonicalizationResult.foldl_dropLosingCommit_perm _ (messages.filterMap _)
  · exact same.alreadySeen

/-- **Only the accepted commits can depend on the order of the inputs.** -/
theorem result :
    canonicalizeInternal (input.reorder pending candidates) replayed =
      { canonicalizeInternal input materialized with
        acceptedCommits :=
          (input.selectedBranch materialized).commitIds ++
            acceptedBy (input.disposition materialized) .acceptCommit
              (input.reorder pending candidates).uniqueMessages } := by
  rw [canonicalizeInternal_eq, canonicalizeInternal_eq, same.selectedBranch, same.disposition]
  exact same.disposed.settle_sort same.pendingMessages

end Reordered

/-! ### Stray commits -/

section Stray

variable (input : CanonicalizationInput) (materialized : List MaterializedCandidate)

/-- A commit inside the horizon that names the selected branch and is not on its path. -/
def isStray (message : PeeledMessage) : Bool :=
  match message.kind with
  | .commit branchId _ forkEpoch _ _ _ _ =>
    input.state.retainedAnchorEpoch ≤ forkEpoch
      ∧ input.state.currentTipEpoch - forkEpoch ≤ input.policy.convergence.maxRewindCommits
      ∧ message.messageId ∉ (input.selectedBranch materialized).commitIds
      ∧ some branchId = (input.selectedBranch materialized).branchId
  | _ => false

def strayCommits : List PeeledMessage :=
  input.uniqueMessages.filter (input.isStray materialized)

variable {input materialized}

theorem disposition_eq_acceptCommit (message : PeeledMessage) :
    decide (input.disposition materialized message = .acceptCommit) =
      input.isStray materialized message := by
  rw [disposition, dispositionOf, isStray]
  cases message.kind with
  | proposal =>
    simp only [handleProposal]
    split_ifs <;> rfl
  | appMessage =>
    simp only [handleAppMessage]
    split_ifs <;> rfl
  | commit =>
    simp only [handleCommit]
    split_ifs with anchor horizon path named known
    · simp [Nat.not_le.mpr anchor]
    · simp [Nat.not_le.mpr horizon]
    · simp [path]
    · simp [path, named, Nat.not_lt.mp anchor, Nat.not_lt.mp horizon]
    · simp [named]
    · simp [named]

theorem acceptedBy_acceptCommit (messages : List PeeledMessage) :
    acceptedBy (input.disposition materialized) .acceptCommit messages =
      (messages.filter (input.isStray materialized)).map PeeledMessage.messageId := by
  rw [acceptedBy]
  congr 2
  funext message
  exact disposition_eq_acceptCommit message

end Stray

end CanonicalizationInput

open CanonicalizationInput

theorem canonicalizeInternal_acceptedCommits {input : CanonicalizationInput}
    {materialized : List MaterializedCandidate} (identified : input.Identified materialized) :
    (canonicalizeInternal input materialized).acceptedCommits =
      (input.selectedBranch materialized).commitIds ++
        (input.strayCommits materialized).map PeeledMessage.messageId := by
  have same : input.Reordered materialized _ _ _ := ⟨identified, .refl _, .refl _, .refl _⟩
  have self := same.result
  rw [acceptedBy_acceptCommit] at self
  exact congrArg CanonicalizationResult.acceptedCommits self

/-- **When a pass does not see the order of its inputs.** -/
theorem reorder_invariant_iff (input : CanonicalizationInput)
    (materialized : List MaterializedCandidate) (identified : input.Identified materialized) :
    (∀ pending candidates replayed, input.pendingMessages.Perm pending →
        input.candidateBranches.Perm candidates → materialized.Perm replayed →
          canonicalizeInternal (input.reorder pending candidates) replayed =
            canonicalizeInternal input materialized) ↔
      (input.strayCommits materialized).length ≤ 1 := by
  constructor
  · intro invariant
    by_contra many
    obtain ⟨a, b, rest, stray⟩ : ∃ a b rest, input.strayCommits materialized = a :: b :: rest := by
      match h : input.strayCommits materialized with
      | [] | [_] => simp [h] at many
      | a :: b :: rest => exact ⟨a, b, rest, rfl⟩
    have memberB : b ∈ input.strayCommits materialized := by rw [stray]; simp
    obtain ⟨uniqueB, strayB⟩ := mem_filter.mp memberB
    have samePending : input.pendingMessages.Perm (b :: input.pendingMessages.erase b) :=
      perm_cons_erase (dedupe_fst_subset _ _ uniqueB)
    obtain ⟨later, front⟩ : ∃ later, (input.reorder (b :: input.pendingMessages.erase b)
        input.candidateBranches).uniqueMessages = b :: later := by
      refine ⟨(dedupe (input.state.seenMessageIds.insert b.messageId)
        (input.pendingMessages.erase b)).1, ?_⟩
      show (dedupe input.state.seenMessageIds (b :: _)).1 = _
      rw [dedupe, if_neg (dedupe_not_observed _ _ b uniqueB)]
    have same : input.Reordered materialized _ _ _ := ⟨identified, samePending, .refl _, .refl _⟩
    have moved := same.result
    rw [invariant _ _ _ samePending (.refl _) (.refl _), front,
      acceptedBy_acceptCommit, filter_cons_of_pos strayB] at moved
    have commits := congrArg CanonicalizationResult.acceptedCommits moved
    rw [canonicalizeInternal_acceptedCommits identified, stray] at commits
    have sameId : a.messageId = b.messageId :=
      (cons.inj (append_cancel_left commits)).1
    have distinct : ((a :: b :: rest).map PeeledMessage.messageId).Nodup := by
      rw [← stray]
      exact uniqueMessages_nodup.sublist (filter_sublist.map _)
    rw [map_cons, map_cons, sameId] at distinct
    exact (nodup_cons.mp distinct).1 mem_cons_self
  · intro few pending candidates replayed samePending sameCandidates sameReplayed
    have same : input.Reordered materialized pending candidates replayed :=
      ⟨identified, samePending, sameCandidates, sameReplayed⟩
    have stray : (input.reorder pending candidates).uniqueMessages.filter
        (input.isStray materialized) = input.strayCommits materialized := by
      have perm := (same.uniqueMessages.filter (input.isStray materialized)).symm
      rw [← strayCommits] at perm
      match h : input.strayCommits materialized with
      | [] => rw [h] at perm; exact perm_nil.mp perm
      | [a] => rw [h] at perm; exact perm_singleton.mp perm
      | a :: b :: rest => simp [h] at few
    rw [same.result, acceptedBy_acceptCommit, stray,
      ← canonicalizeInternal_acceptedCommits identified]

/-! ### Two stray commits -/

/-- A commit from epoch 2 that names branch `b`. -/
def strayCommit (messageId : String) : PeeledMessage where
  messageId
  sender := []
  sourceEpoch := 2
  kind := .commit "b" none 2 3 .ordinary [] []

/-- A client that knows branch `b` and receives two commits that name it. -/
def strayInput : CanonicalizationInput :=
  { forkedInput with
    pendingMessages := [strayCommit "m1", strayCommit "m2"]
    candidateBranches := [(forkedCandidate "b" [] []).branch] }

/-- The two arrival orders are accepted as two different paths. -/
theorem stray_commits_reordered :
    (canonicalizeInternal strayInput []).acceptedCommits = ["m1", "m2"] ∧
      (canonicalizeInternal (strayInput.reorder [strayCommit "m2", strayCommit "m1"]
        strayInput.candidateBranches) []).acceptedCommits = ["m2", "m1"] := by
  decide

/-- A message that decrypts on branch `b`. -/
def branchMessage : PeeledMessage := ⟨"m2", [7], 3, .appMessage 3 ["b"] none⟩

/-- A client that knows two branches and receives a commit and a message that name one of them. -/
def mixedInput : CanonicalizationInput :=
  { forkedInput with
    pendingMessages := [strayCommit "m1", branchMessage]
    candidateBranches := [(forkedCandidate "b" ["c1", "c2", "c4"] [1]).branch,
      (forkedCandidate "a" ["c1"] [2]).branch] }

/-- One stray commit and two replayed branches: no order matters. -/
theorem reorder_invariant_forked :
    (mixedInput.strayCommits
        [forkedCandidate "p" ["c1", "c2"] [1], forkedCandidate "q" ["c1", "c3"] [2]]).length = 1 ∧
    canonicalizeInternal (mixedInput.reorder [branchMessage, strayCommit "m1"]
        [(forkedCandidate "a" ["c1"] [2]).branch,
          (forkedCandidate "b" ["c1", "c2", "c4"] [1]).branch])
        [forkedCandidate "q" ["c1", "c3"] [2], forkedCandidate "p" ["c1", "c2"] [1]] =
      canonicalizeInternal mixedInput
        [forkedCandidate "p" ["c1", "c2"] [1], forkedCandidate "q" ["c1", "c3"] [2]] :=
  ⟨by decide, (reorder_invariant_iff mixedInput
    [forkedCandidate "p" ["c1", "c2"] [1], forkedCandidate "q" ["c1", "c3"] [2]]
    ⟨by decide, by decide, by decide⟩).mpr (by decide) _ _ _ (.swap _ _ _) (.swap _ _ _)
      (.swap _ _ _)⟩

end Darkmatter
