/-
**The window of the witnesses.**

A branch counts the application messages that decrypt on it as its witnesses. Only those of its own
epochs should count: after the fork, and not after the tip. A pass asks only whether the message is
too old for the tip.

* `OffersInWindow` — what a message offers to the branches is of their own epochs;
* `witnesses_in_window_iff` — **the witnesses are of the branch's own epochs** exactly when all
  messages offer such witnesses, and then a message from before the fork changes no selection.
-/

import Darkmatter.Canonicalization.Order
import Darkmatter.Canonicalization.Scores

namespace Darkmatter

open Lib List

section Window

variable {policy : CanonicalizationPolicy} {candidates attached : List BranchCandidate}
  {witness : AppWitness} {branchId : String}

/-- A candidate gained witnesses of a kind, and nothing else changed. -/
def Gains (kind : BranchCandidate → AppWitness → Prop) (candidate witnessed : BranchCandidate) :
    Prop :=
  ∃ gained, witnessed = candidate.witnessedBy gained ∧ ∀ witness ∈ gained, kind candidate witness

/-- The witness is counted for the candidate: the first one of the name, if the message is not too
old for its tip. -/
def Counted (policy : CanonicalizationPolicy) (candidates : List BranchCandidate)
    (witness : AppWitness) (branchId : String) (candidate : BranchCandidate) : Prop :=
  candidates.find? (fun candidate => candidate.id = branchId) = some candidate ∧
    appMessageExpired candidate.tipEpoch policy witness.epoch = false

theorem gains_witnessedBy {kind : BranchCandidate → AppWitness → Prop} {candidate : BranchCandidate}
    {gained : List AppWitness} :
    Gains kind candidate (candidate.witnessedBy gained) ↔
      ∀ witness ∈ gained, kind candidate witness := by
  constructor
  · rintro ⟨others, same, kinds⟩
    have same : candidate.appWitnesses ++ gained = candidate.appWitnesses ++ others :=
      congrArg BranchCandidate.appWitnesses same
    rwa [append_cancel_left same]
  · exact fun kinds => ⟨gained, rfl, kinds⟩

theorem gainWitness_witnessedBy (candidate : BranchCandidate) (gained : List AppWitness) :
    (candidate.witnessedBy gained).gainWitness policy witness = candidate.witnessedBy
      (if appMessageExpired candidate.tipEpoch policy witness.epoch then gained
        else gained ++ [witness]) := by
  rw [BranchCandidate.gainWitness]
  by_cases expired : appMessageExpired candidate.tipEpoch policy witness.epoch <;>
    simp [BranchCandidate.witnessedBy, expired]

/-- **One witness is attached** to the candidate that it is counted for. -/
theorem attachAppWitness_gains (grown : candidates.Forall₂ (Gains fun _ _ => True) attached)
    (kind : BranchCandidate → AppWitness → Prop) :
    candidates.Forall₂ (Gains kind) (attachAppWitness policy witness attached branchId) ↔
      candidates.Forall₂ (Gains kind) attached ∧
        ∀ candidate, Counted policy candidates witness branchId candidate →
          kind candidate witness := by
  induction grown with
  | nil => simp [attachAppWitness, Counted]
  | @cons candidate witnessed rest others gains _ ih =>
    obtain ⟨gained, rfl, -⟩ := gains
    rw [attachAppWitness, show (candidate.witnessedBy gained).id = candidate.id from rfl,
      gainWitness_witnessedBy]
    by_cases named : candidate.id = branchId
    · by_cases expired : appMessageExpired candidate.tipEpoch policy witness.epoch
      · simp [Counted, named, expired]
      · simp [Counted, named, expired, gains_witnessedBy, or_imp, forall_and, and_right_comm]
    · simp [Counted, named, ih, and_assoc]

/-- A witness that is not counted is not attached. -/
theorem attachAppWitness_eq_self (grown : candidates.Forall₂ (Gains fun _ _ => True) attached)
    (silent : ∀ candidate, ¬ Counted policy candidates witness branchId candidate) :
    attachAppWitness policy witness attached branchId = attached := by
  induction grown with
  | nil => rfl
  | @cons candidate witnessed rest others gains _ ih =>
    obtain ⟨gained, rfl, -⟩ := gains
    rw [attachAppWitness, show (candidate.witnessedBy gained).id = candidate.id from rfl,
      gainWitness_witnessedBy]
    by_cases named : candidate.id = branchId
    · have expired := silent candidate
      simp_all [Counted]
    · rw [if_neg named, ih]
      simpa [Counted, named] using silent

/-- **What the candidates gain from messages.** -/
theorem attachAppWitnesses_gains (messages : List PeeledMessage)
    (kind : BranchCandidate → AppWitness → Prop) :
    candidates.Forall₂ (Gains kind) (attachAppWitnesses candidates messages policy) ↔
      ∀ message ∈ messages, ∀ attachment ∈ message.attachments, ∀ candidate,
        Counted policy candidates attachment.1 attachment.2 candidate →
          kind candidate attachment.1 := by
  rw [attachAppWitnesses_eq_foldl]
  trans ∀ attachment ∈ messages.flatMap PeeledMessage.attachments, ∀ candidate,
    Counted policy candidates attachment.1 attachment.2 candidate → kind candidate attachment.1
  swap
  · simp only [mem_flatMap, forall_exists_index, and_imp]
    tauto
  induction messages.flatMap PeeledMessage.attachments using reverseRecOn
    generalizing kind with
  | nil => simpa using forall₂_same.mpr fun candidate _ =>
      (⟨[], by simp [BranchCandidate.witnessedBy]⟩ : Gains kind candidate candidate)
  | append_singleton earlier last ih =>
    rw [foldl_concat, attachAppWitness_gains ((ih fun _ _ => True).mpr fun _ _ _ _ => trivial), ih]
    simp [or_imp, forall_and]

/-- A message that is counted for no candidate makes no difference. -/
theorem attachAppWitnesses_silent {early : PeeledMessage}
    (silent : ∀ attachment ∈ early.attachments, ∀ candidate,
      ¬ Counted policy candidates attachment.1 attachment.2 candidate)
    (before after : List PeeledMessage) :
    attachAppWitnesses candidates (before ++ early :: after) policy =
      attachAppWitnesses candidates (before ++ after) policy := by
  have grown : candidates.Forall₂ (Gains fun _ _ => True)
      (attachAppWitnesses candidates before policy) :=
    (attachAppWitnesses_gains _ _).mpr fun _ _ _ _ _ _ => trivial
  simp only [attachAppWitnesses_eq_foldl, flatMap_append, flatMap_cons, foldl_append] at grown ⊢
  generalize List.foldl _ candidates _ = attached at grown ⊢
  refine congrArg (List.foldl _ · _)
    (foldlRecOn (motive := fun later => later = attached) _ _ rfl ?_)
  rintro _ rfl attachment offered
  exact attachAppWitness_eq_self grown (silent attachment offered)

end Window

/-! ### Passes -/

section Passes

variable (input : CanonicalizationInput) (materialized : List MaterializedCandidate)

/-- The branches of a pass before they gain witnesses. -/
def CanonicalizationInput.branches : List BranchCandidate :=
  (materializeCandidateGraph input input.uniqueMessages materialized).candidates

/-- After the fork, and not after the tip. -/
def BranchCandidate.InWindow (candidate : BranchCandidate) (witness : AppWitness) : Prop :=
  candidate.forkEpoch < witness.epoch ∧ witness.epoch ≤ candidate.tipEpoch

/-- **The message offers witnesses of the branches' own epochs**: to every branch that it names and
for whose tip it is not too old. -/
def CanonicalizationInput.OffersInWindow (message : PeeledMessage) : Prop :=
  ∀ attachment ∈ message.attachments, ∀ candidate,
    Counted input.policy (input.branches materialized) attachment.1 attachment.2 candidate →
      candidate.InWindow attachment.1

/-- **The witnesses of a branch are of its own epochs** exactly when all messages offer such
witnesses, and then a message from before the fork changes no selection. -/
theorem witnesses_in_window_iff :
    ((input.branches materialized).Forall₂
        (Gains fun candidate witness => candidate.InWindow witness ∧
          appMessageExpired candidate.tipEpoch input.policy witness.epoch = false)
        (input.graph materialized).candidates ↔
      ∀ message ∈ input.uniqueMessages, input.OffersInWindow materialized message) ∧
    ∀ pendingMessages before early after epoch decryptsOnBranches payloadRef,
      input.uniqueMessages = before ++ after →
      ({ input with pendingMessages } : CanonicalizationInput).uniqueMessages =
        before ++ early :: after →
      early.kind = .appMessage epoch decryptsOnBranches payloadRef →
      (∀ candidate ∈ input.branches materialized, candidate.id ∈ decryptsOnBranches →
        epoch ≤ candidate.forkEpoch) →
      input.OffersInWindow materialized early →
      ({ input with pendingMessages } : CanonicalizationInput).selected materialized =
        input.selected materialized := by
  refine ⟨?_, ?_⟩
  · refine (attachAppWitnesses_gains _ _).trans ?_
    refine forall₂_congr fun message listed => forall₂_congr fun attachment offered =>
      forall₂_congr fun candidate counted => ?_
    exact and_iff_left counted.2
  · intro pendingMessages before early after epoch decryptsOnBranches payloadRef unique added isApp
      atFork window
    have silent : ∀ attachment ∈ early.attachments, ∀ candidate, ¬ Counted input.policy
        (input.branches materialized) attachment.1 attachment.2 candidate := by
      intro attachment offered candidate counted
      have inside := (window attachment offered candidate counted).1
      rw [PeeledMessage.attachments, isApp] at offered
      obtain ⟨branchId, names, rfl⟩ := mem_map.mp offered
      have named : candidate.id = branchId := by simpa using find?_some counted.1
      exact absurd inside (Nat.not_lt.mpr
        (atFork candidate (mem_of_find?_eq_some counted.1) (named ▸ names)))
    have unchanged : ({ input with pendingMessages } : CanonicalizationInput).branches
        materialized = input.branches materialized := by
      have noCommit : early.isCommit = false := by
        rw [PeeledMessage.isCommit, PeeledMessage.kindName, isApp]
        rfl
      have rounds := @GraphBuilder.materializeRounds_congr { input with pendingMessages } input
      simp only [CanonicalizationInput.branches, materializeCandidateGraph, added, unique,
        rounds rfl rfl, filter_append, filter_cons, noCommit]
      rfl
    refine congrArg (selectCanonicalBranch _ · _) ?_
    change attachAppWitnesses (CanonicalizationInput.branches _ materialized) _ _ =
      attachAppWitnesses (input.branches materialized) _ _
    rw [unchanged, added, unique]
    exact attachAppWitnesses_silent silent before after

end Passes

/-! ### A message from the fork -/

/-- Two branches that fork from epoch 2, and a message of that epoch that names the second. -/
def forkMessage : PeeledMessage := ⟨"m", [7], 2, .appMessage 2 ["b"] none⟩

def witnessedInput (pendingMessages : List PeeledMessage) : CanonicalizationInput :=
  { forkedInput with
    pendingMessages
    candidateBranches :=
      [(forkedCandidate "a" ["a"] [1]).branch, (forkedCandidate "b" ["b"] [2]).branch] }

theorem fork_message_decides :
    ((witnessedInput []).selected []).map (·.id) = some "a" ∧
      ((witnessedInput [forkMessage]).selected []).map (fun branch =>
        (branch.id, branch.forkEpoch, branch.appWitnesses)) = some ("b", 2, [⟨2, [7]⟩]) := by
  decide +kernel

/-- A message of the tips, that names the first branch. -/
def tipMessage : PeeledMessage := ⟨"t", [7], 3, .appMessage 3 ["a"] none⟩

/-- A client that takes no message of a past epoch. -/
def shortWindowInput (pendingMessages : List PeeledMessage) : CanonicalizationInput :=
  { witnessedInput pendingMessages with
    policy := { CanonicalizationPolicy.default with appMessagePastEpochLimit := 0 } }

/-- A message of the tips is counted, and the one from the fork changes nothing. -/
theorem late_fork_message_ignored :
    ((shortWindowInput [tipMessage]).branches []).Forall₂
        (Gains fun candidate witness => candidate.InWindow witness ∧ appMessageExpired
          candidate.tipEpoch (shortWindowInput [tipMessage]).policy witness.epoch = false)
        ((shortWindowInput [tipMessage]).graph []).candidates ∧
      (shortWindowInput [tipMessage, forkMessage]).selected [] =
        (shortWindowInput [tipMessage]).selected [] := by
  have offers (message : PeeledMessage) (listed : message ∈ [tipMessage, forkMessage]) :
      (shortWindowInput [tipMessage]).OffersInWindow [] message := by
    have checked : ∀ message ∈ [tipMessage, forkMessage], ∀ attachment ∈ message.attachments,
        ∀ candidate ∈ ((shortWindowInput [tipMessage]).branches []).find? fun candidate =>
          candidate.id = attachment.2, appMessageExpired candidate.tipEpoch
            (shortWindowInput [tipMessage]).policy attachment.1.epoch = false →
          candidate.forkEpoch < attachment.1.epoch ∧ attachment.1.epoch ≤ candidate.tipEpoch := by
      decide +kernel
    exact fun attachment offered candidate counted =>
      checked message listed attachment offered candidate counted.1 counted.2
  obtain ⟨inWindow, silent⟩ := witnesses_in_window_iff (shortWindowInput [tipMessage]) []
  refine ⟨inWindow.mpr ?_, silent [tipMessage, forkMessage] [tipMessage] forkMessage [] 2 ["b"] none
    (by decide +kernel) (by decide +kernel) rfl (by decide +kernel) (offers _ (by simp))⟩
  have unique : (shortWindowInput [tipMessage]).uniqueMessages = [tipMessage] := by decide +kernel
  rw [unique]
  exact fun message listed => offers message (mem_cons.mpr (.inl (mem_singleton.mp listed)))

end Darkmatter
