/-
**What a replayed path says about itself.**

A candidate is summed up from the observations of its replay. When the epoch counts commits
(`OpenMls.EpochLaws`), the candidate of a path lists the commits of the path and ends at the epoch
its replay reached (`materialize_spec`).
-/

import Darkmatter.Projection.Laws

namespace Darkmatter

open Std Lib OpenMls List

/-! ### Kinds -/

section Kinds

variable {Group : Type} (mls : OpenMls Group)

def OpenMls.kindOf (message : TransportMessage) : Option ContentType :=
  match mls.decode message.payload with
  | .ok (some protocol) => some protocol.contentType
  | _ => none

def OpenMls.commitsOf (messages : List TransportMessage) : List TransportMessage :=
  messages.filter fun message => mls.kindOf message = some .commit

variable {mls}

theorem OpenMls.commitsOf_append (first second : List TransportMessage) :
    mls.commitsOf (first ++ second) = mls.commitsOf first ++ mls.commitsOf second :=
  filter_append ..

variable {messages : List TransportMessage}

theorem OpenMls.commitsOf_eq_nil (none : ∀ message ∈ messages, mls.kindOf message ≠ some .commit) :
    mls.commitsOf messages = [] :=
  filter_eq_nil_iff.mpr fun message member isCommit =>
    none message member (of_decide_eq_true isCommit)

end Kinds

/-! ### One message -/

section Replay

variable {Group : Type} {mls : OpenMls Group} {group next : Group}

/-- **What one processed message does**: a commit leaves its observation and moves the epoch by one,
and any other message leaves no commit and keeps the epoch. -/
theorem processed_cases (laws : mls.EpochLaws) {message : TransportMessage}
    {observation : OpenMlsReplayObservation}
    (processed : mls.processOpenmlsMessage group message = .ok (observation, next)) :
    (∃ sourceEpoch priority committer refs consumed, mls.kindOf message = some .commit ∧
        mls.processCommit group message.payload = .staged priority committer refs next ∧
        mls.decode message.payload = .ok (some ⟨.commit, sourceEpoch⟩) ∧
        observation = .commitStaged message.id sourceEpoch (mls.epoch next) priority committer
          consumed ∧
        mls.epoch next = mls.epoch group + 1) ∨
      (mls.kindOf message ≠ some .commit ∧ mls.epoch next = mls.epoch group ∧
        ∀ messages commits, mls.observePathCommit messages commits observation = commits) := by
  rw [kindOf]
  cases OpenMls.Processed.of_ok processed with
  | commit decoded staged =>
    have moved := laws.commit staged
    exact .inl ⟨_, _, _, _, _, by rw [decoded], staged, decoded, by rw [moved], moved⟩
  | welcome decoded => exact .inr ⟨by simp [decoded], rfl, fun _ _ => rfl⟩
  | proposal decoded stored =>
    exact .inr ⟨by simp [decoded], laws.proposalStored stored, fun _ _ => rfl⟩
  | externalJoin decoded joined =>
    exact .inr ⟨by simp [decoded], laws.proposalJoin joined, fun _ _ => rfl⟩
  | application decoded decrypted =>
    exact .inr ⟨by simp [decoded], laws.applicationProcessed decrypted, fun _ _ => rfl⟩
  | undecrypted decoded ignored =>
    exact .inr ⟨by simp [decoded], laws.applicationIgnored ignored, fun _ _ => rfl⟩

/-! ### A list of messages -/

/-- **A replay moves the epoch by the number of its commits.** -/
theorem epoch_of_replay (laws : mls.EpochLaws) {messages : List TransportMessage}
    {output : OpenMlsReplayOutput Group}
    (replayed : mls.processOpenmlsMessagesInner group messages = .ok output) :
    mls.epoch output.group = mls.epoch group + (mls.commitsOf messages).length := by
  induction messages generalizing group output with
  | nil => cases replayed; rfl
  | cons message rest ih =>
    obtain ⟨_, _, _, here, after, rfl⟩ :=
      processOpenmlsMessagesInner_cons_ok.mp replayed
    rw [ih after, commitsOf, commitsOf, filter_cons]
    rcases processed_cases laws here with ⟨_, _, _, _, _, isCommit, _, _, _, moved⟩ | ⟨other, kept, _⟩
    · rw [if_pos (decide_eq_true isCommit), length_cons, moved]
      omega
    · rw [if_neg (by simpa using other), kept]

/-- The commits that the observations of a replay add to what is known of a path. -/
theorem observed_commits (laws : mls.EpochLaws) {path messages : List TransportMessage}
    {output : OpenMlsReplayOutput Group}
    (replayed : mls.processOpenmlsMessagesInner group messages = .ok output)
    (known : Option PathCommits) :
    ((output.observations.foldl (mls.observePathCommit path) known).map
        PathCommits.commitMessageIds).getD [] =
      (known.map PathCommits.commitMessageIds).getD [] ++
        (mls.commitsOf messages).map TransportMessage.id ∧
      (mls.commitsOf messages = [] →
        output.observations.foldl (mls.observePathCommit path) known = known) ∧
      (mls.commitsOf messages ≠ [] →
        (output.observations.foldl (mls.observePathCommit path) known).map PathCommits.tipEpoch =
          some (mls.epoch output.group)) := by
  induction messages generalizing group output known with
  | nil =>
    cases replayed
    exact ⟨by simp [commitsOf], fun _ => rfl, fun some => absurd rfl some⟩
  | cons message rest ih =>
    obtain ⟨observation, _, _, here, after, rfl⟩ :=
      processOpenmlsMessagesInner_cons_ok.mp replayed
    have epochs := epoch_of_replay laws after
    obtain ⟨ids, nothing, tip⟩ := ih after (mls.observePathCommit path known observation)
    rw [foldl_cons]
    rcases processed_cases laws here with
      ⟨sourceEpoch, priority, committer, refs, consumed, isCommit, staged, _, rfl, moved⟩ |
      ⟨other, kept, silent⟩
    · have commits : mls.commitsOf (message :: rest) = message :: mls.commitsOf rest := by
        rw [commitsOf, commitsOf, filter_cons, if_pos (decide_eq_true isCommit)]
      refine ⟨?_, by simp [commits], fun _ => ?_⟩
      · rw [ids, commits]
        simp [observePathCommit]
      · by_cases more : mls.commitsOf rest = []
        · rw [nothing more, epochs, more]
          simp [observePathCommit]
        · exact tip more
    · have commits : mls.commitsOf (message :: rest) = mls.commitsOf rest := by
        rw [commitsOf, commitsOf, filter_cons, if_neg (by simpa using other)]
      rw [silent] at ids nothing tip ⊢
      rw [commits]
      exact ⟨ids, nothing, tip⟩

/-- **The candidate of a path** lists the commits of the path and ends where its replay ended. -/
theorem materialize_spec (laws : mls.EpochLaws) {path : OpenMlsCandidatePath}
    {candidate : OpenMlsMaterializedCandidate}
    (materialized : mls.materializeOpenmlsCandidatePath group path = .ok candidate) :
    ∃ output, mls.processOpenmlsMessagesInner group path.messages = .ok output ∧
      candidate.branchId = path.branchId ∧ candidate.observations = output.observations ∧
      mls.commitsOf path.messages ≠ [] ∧
      candidate.commitMessageIds = (mls.commitsOf path.messages).map TransportMessage.id ∧
      candidate.tipEpoch = mls.epoch output.group := by
  rw [materializeOpenmlsCandidatePath] at materialized
  cases replayed : mls.processOpenmlsMessagesInner group path.messages with
  | error => simp only [replayed] at materialized; cases materialized
  | ok output =>
    obtain ⟨ids, silent, tip⟩ := @observed_commits _ mls group laws path.messages _ _ replayed none
    simp only [replayed] at materialized
    cases folded : output.observations.foldl (mls.observePathCommit path.messages) none with
    | none => simp only [folded] at materialized; cases materialized
    | some =>
      simp only [folded] at materialized
      cases materialized
      have nonempty : mls.commitsOf path.messages ≠ [] := by
        intro empty
        rw [silent empty] at folded
        cases folded
      rw [folded] at ids tip
      refine ⟨output, rfl, rfl, rfl, nonempty, by simpa using ids, ?_⟩
      simpa using tip nonempty

end Replay

end Darkmatter
