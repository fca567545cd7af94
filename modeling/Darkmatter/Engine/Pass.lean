/-
**What a pass does to a group.**

* `decision_cases` — a pass over rows the engine wrote starts at the oldest unresolved commit below
  the tip, or at the tip; without the anchor of its start it is blocked, and else it is branch
  selection over the replays of the stored commits;
* `decision_spec` — the accepted commits are one replayable path from the start, and the selected
  tip is where the path ends;
* `apply_selected` — a decision that is applied moves the group to the selected tip, and retains the
  anchors of the epoch it left from, if the path starts there, and of the tip;
* `converge_cases` — **everything a pass can do** (`PassEffect`).
-/

import Darkmatter.Canonicalization.Selection
import Darkmatter.Engine.Model
import Darkmatter.Projection.Decision

namespace Darkmatter

open Std Lib CanonicalizationResult GroupStorage OpenMls List

/-! ### The rows of a group -/

/-- The rows of a group: each under an id of its own, and each as the engine writes it. -/
structure SoundRows {Group : Type} (mls : OpenMls Group) (records : List MessageRecord) : Prop where
  stored : ∀ record ∈ records, StoredRow mls record
  ids : (records.map MessageRecord.id).Nodup

/-- The row of a commit has the epoch the commit was made in. A commit that is looked at when it
comes in late has the epoch the group was at instead. -/
def TimelyRow {Group : Type} (mls : OpenMls Group) (record : MessageRecord) : Prop :=
  ∀ message, record.payload = .openmlsWire message → mls.kindOf message = some .commit →
    record.epoch = mls.sourceEpochOf message

def TimelyCommits {Group : Type} (mls : OpenMls Group) (records : List MessageRecord) : Prop :=
  ∀ record ∈ records, TimelyRow mls record

/-- A row that a pass reads: that of a commit which can contribute, or of a message that is still to
be placed. -/
def ReadRow {Group : Type} (mls : OpenMls Group) (record : MessageRecord) : Prop :=
  ∃ message, record.wireMessage = some message ∧
    (mls.kindOf message = some .commit ∧ recordStateCanContributeToOpenmlsGraph record.state ∨
      recordStateIsCanonicalizationInput record.state)

variable {Group : Type} {records : List MessageRecord} {commit : StoredCommitMessage}

section Rows

variable {mls : OpenMls Group} {retainedAnchorEpoch : Nat}
  {record : MessageRecord} {message : TransportMessage}

theorem wireMessage_payload (wire : record.wireMessage = some message) :
    record.payload = .openmlsWire message := by
  rw [MessageRecord.wireMessage] at wire
  split at wire
  · split_ifs at wire
    cases wire
    assumption
  · cases wire

theorem rowCommit_eq_some :
    mls.rowCommit retainedAnchorEpoch record = some commit ↔
      ∃ message, record.wireMessage = some message ∧
        recordStateCanContributeToOpenmlsGraph record.state ∧
        mls.kindOf message = some .commit ∧ retainedAnchorEpoch ≤ mls.sourceEpochOf message ∧
        commit = ⟨message, mls.sourceEpochOf message, mls.sha256 message.payload, record.state⟩ := by
  rw [rowCommit]
  cases record.wireMessage with
  | none => simp
  | some =>
    simp only [Option.ite_none_right_eq_some, Option.some.injEq, exists_eq_left', and_assoc,
      eq_comm (a := commit)]

theorem rowPending_eq_some :
    mls.rowPending retainedAnchorEpoch record = some message ↔
      record.wireMessage = some message ∧ recordStateIsCanonicalizationInput record.state ∧
        (mls.kindOf message = some .proposal ∨ mls.kindOf message = some .application) ∧
        retainedAnchorEpoch ≤ mls.sourceEpochOf message := by
  rw [rowPending]
  cases record.wireMessage with
  | none => simp
  | some =>
    simp only [Option.ite_none_right_eq_some, Option.some.injEq]
    constructor
    · rintro ⟨holds, rfl⟩
      exact ⟨rfl, holds⟩
    · rintro ⟨rfl, holds⟩
      exact ⟨holds, rfl⟩

theorem SoundRows.getMessage_eq {records : List MessageRecord} (sound : SoundRows mls records)
    (member : record ∈ records) : Darkmatter.getMessage records record.id = some record := by
  rw [Darkmatter.getMessage]
  cases found : records.find? fun other => other.id == record.id with
  | none =>
    have absent := find?_eq_none.mp found record member
    simp at absent
  | some =>
    have matching := find?_some found
    rw [beq_iff_eq] at matching
    rw [inj_on_of_nodup_map sound.ids (mem_of_find?_eq_some found) member matching]

theorem SoundRows.wire_id (sound : SoundRows mls records) (member : record ∈ records)
    (wire : record.wireMessage = some message) : message.id = record.id :=
  (sound.stored record member message (wireMessage_payload wire)).1

theorem filterMap_ids_sublist {α : Type} {f : MessageRecord → Option α} {idOf : α → String}
    (keeps : ∀ record ∈ records, ∀ a, f record = some a → idOf a = record.id) :
    List.Sublist ((records.filterMap f).map idOf) (records.map MessageRecord.id) := by
  induction records with
  | nil => exact .slnil
  | cons record rest ih =>
    have later := ih fun other member => keeps other (mem_cons_of_mem _ member)
    rw [filterMap_cons]
    cases here : f record with
    | none => exact later.cons _
    | some a =>
      rw [map_cons, map_cons, keeps record mem_cons_self a here]
      exact later.cons_cons _

theorem collected_passMessages (sound : SoundRows mls records) :
    PassMessages mls (mls.collected retainedAnchorEpoch records).pendingMessages
      (mls.collected retainedAnchorEpoch records).commitMessages where
  commit := by
    intro commit member
    obtain ⟨record, here, row⟩ := mem_filterMap.mp member
    obtain ⟨message, wire, _, known, _, rfl⟩ := rowCommit_eq_some.mp row
    obtain ⟨_, kind, _, decoded⟩ := sound.stored record here message (wireMessage_payload wire)
    rw [kindOf, decoded] at known
    cases known
    rw [sourceEpochOf, decoded]
  digest := by
    intro commit member
    obtain ⟨record, _, row⟩ := mem_filterMap.mp member
    obtain ⟨_, _, _, _, _, rfl⟩ := rowCommit_eq_some.mp row
    rfl
  kind := by
    intro message member
    obtain ⟨record, _, row⟩ := mem_filterMap.mp member
    exact (rowPending_eq_some.mp row).2.2.1
  ids := by
    have pendingIds : ∀ record ∈ records, ∀ message,
        mls.rowPending retainedAnchorEpoch record = some message → message.id = record.id :=
      fun record member message row => sound.wire_id member (rowPending_eq_some.mp row).1
    have commitIds : ∀ record ∈ records, ∀ commit : StoredCommitMessage,
        mls.rowCommit retainedAnchorEpoch record = some commit → commit.message.id = record.id := by
      intro record member commit row
      obtain ⟨message, wire, _, _, _, rfl⟩ := rowCommit_eq_some.mp row
      exact sound.wire_id member wire
    rw [nodup_append]
    refine ⟨(filterMap_ids_sublist pendingIds).nodup sound.ids,
      (filterMap_ids_sublist commitIds).nodup sound.ids, ?_⟩
    rintro _ pending _ commit rfl
    obtain ⟨message, inPending, rfl⟩ := mem_map.mp pending
    obtain ⟨stored, inCommits, same⟩ := mem_map.mp commit
    obtain ⟨record, member, row⟩ := mem_filterMap.mp inPending
    obtain ⟨record', member', row'⟩ := mem_filterMap.mp inCommits
    have equal : record' = record := by
      refine inj_on_of_nodup_map sound.ids member' member ?_
      rw [← commitIds record' member' stored row', same, pendingIds record member message row]
    subst equal
    obtain ⟨wire, _, kinds, _⟩ := rowPending_eq_some.mp row
    obtain ⟨_, wire', _, known, _⟩ := rowCommit_eq_some.mp row'
    rw [wire] at wire'
    cases wire'
    rw [known] at kinds
    simp at kinds

end Rows

/-! ### The decision -/

variable {tip : Nat}

section Decision

variable (mls : OpenMls Group) (storage : GroupStorage Group) (retainedAnchorEpoch : Nat)

/-- The commits at or after the retained anchor. -/
def GroupStorage.storedCommits : List StoredCommitMessage :=
  (mls.collected retainedAnchorEpoch storage.live.messages).commitMessages

/-- The proposals and application messages still to be placed. -/
def GroupStorage.pendingMessages : List TransportMessage :=
  (mls.collected retainedAnchorEpoch storage.live.messages).pendingMessages

/-- The epoch a pass starts from: that of the oldest unresolved commit below the tip, or the tip. -/
def GroupStorage.passStart : Nat :=
  (historicalReplayStartEpoch (storage.storedCommits mls retainedAnchorEpoch)
    storage.live.epoch).getD storage.live.epoch

/-- The commits a pass replays. -/
def GroupStorage.passCommits : List StoredCommitMessage :=
  replayedCommits (storage.storedCommits mls retainedAnchorEpoch) storage.live.epoch

/-- The paths a pass selects from, when it starts on a given state. -/
def GroupStorage.passPaths (group : Group) : List CandidatePathProbe :=
  mls.endedPaths group (mls.proposalsOf (storage.pendingMessages mls retainedAnchorEpoch))
    (sortBy compareStoredCommits (storage.passCommits mls retainedAnchorEpoch))
    (storage.passStart mls retainedAnchorEpoch)

/-- The state a pass starts on: the live state, or a retained anchor. -/
def GroupStorage.StartsOn (group : Group) : Prop :=
  (storage.passStart mls retainedAnchorEpoch = storage.live.epoch ∧ group = storage.live.mls) ∨
    (storage.passStart mls retainedAnchorEpoch < storage.live.epoch ∧
      ∃ snapshot, storage.anchor (storage.passStart mls retainedAnchorEpoch) = some snapshot ∧
        group = snapshot.mls)

/-- Dropped messages that are commits of the group's rows. -/
def GroupStorage.DropsCommits (drops : List DroppedMessage) : Prop :=
  ∀ dropped ∈ drops, ∃ record ∈ storage.live.messages, ∃ message,
    record.wireMessage = some message ∧ mls.kindOf message = some .commit ∧
      record.id = dropped.messageId ∧ recordStateCanContributeToOpenmlsGraph record.state

variable {mls storage retainedAnchorEpoch}
  {commits : List StoredCommitMessage} {pending : List TransportMessage}
  {drops : List DroppedMessage} {state : CanonicalizationState}
  {outboundIntents : List OutboundIntent} {policy : CanonicalizationPolicy} {nowMs : Nat}
  {result : CanonicalizationResult} {branches : ExtTreeMap String String}
  {apps : ExtTreeMap String AppMessageBranches} {peeled : List PeeledMessage} {group : Group}
  {path : CandidatePathProbe} {materialized : List OpenMlsMaterializedCandidate}

theorem historicalReplayStartEpoch_lt {epoch start : Nat}
    (historical : historicalReplayStartEpoch commits epoch = some start) : start < epoch := by
  obtain ⟨_, member, rfl⟩ := mem_map.mp (min?_mem historical)
  have older := (mem_filter.mp member).2
  rw [Bool.and_eq_true, decide_eq_true_eq] at older
  exact older.2

theorem passStart_le : storage.passStart mls retainedAnchorEpoch ≤ storage.live.epoch := by
  rw [passStart]
  cases historical : historicalReplayStartEpoch (storage.storedCommits mls retainedAnchorEpoch)
      storage.live.epoch with
  | none => exact le_rfl
  | some start => exact (historicalReplayStartEpoch_lt historical).le

theorem passCommits_sublist :
    List.Sublist (storage.passCommits mls retainedAnchorEpoch)
      (storage.storedCommits mls retainedAnchorEpoch) := by
  rw [passCommits, replayedCommits]
  split
  · exact .refl _
  · exact filter_sublist

theorem PassMessages.sublist {commits' : List StoredCommitMessage}
    (messages : PassMessages mls pending commits) (part : List.Sublist commits' commits) :
    PassMessages mls pending commits' where
  commit := fun commit member => messages.commit commit (part.subset member)
  digest := fun commit member => messages.digest commit (part.subset member)
  kind := messages.kind
  ids := ((part.map _).append_left _).nodup messages.ids

theorem passMessages (sound : SoundRows mls storage.live.messages) :
    PassMessages mls (storage.pendingMessages mls retainedAnchorEpoch)
      (storage.passCommits mls retainedAnchorEpoch) :=
  (collected_passMessages sound).sublist passCommits_sublist

theorem passCommits_row (member : commit ∈ storage.passCommits mls retainedAnchorEpoch) :
    ∃ record ∈ storage.live.messages, record.wireMessage = some commit.message ∧
      mls.kindOf commit.message = some .commit ∧
      mls.sourceEpochOf commit.message = commit.sourceEpoch ∧
      recordStateCanContributeToOpenmlsGraph record.state := by
  obtain ⟨record, here, isCommit⟩ := mem_filterMap.mp (passCommits_sublist.subset member)
  obtain ⟨_, wire, contributes, kind, _, rfl⟩ := rowCommit_eq_some.mp isCommit
  exact ⟨record, here, wire, kind, rfl, contributes⟩

theorem pendingMessages_row {message : TransportMessage}
    (member : message ∈ storage.pendingMessages mls retainedAnchorEpoch) :
    ∃ record ∈ storage.live.messages, record.wireMessage = some message ∧
      recordStateIsCanonicalizationInput record.state := by
  obtain ⟨record, here, row⟩ := mem_filterMap.mp member
  obtain ⟨wire, input, _⟩ := rowPending_eq_some.mp row
  exact ⟨record, here, wire, input⟩

theorem passCommits_dropsCommits (sound : SoundRows mls storage.live.messages)
    (stored : ∀ dropped ∈ drops, ∃ commit ∈ storage.passCommits mls retainedAnchorEpoch,
      commit.message.id = dropped.messageId) : storage.DropsCommits mls drops := by
  intro dropped member
  obtain ⟨commit, here, same⟩ := stored dropped member
  obtain ⟨record, inRows, wire, kind, _, contributes⟩ := passCommits_row here
  exact ⟨record, inRows, commit.message, wire, kind, (sound.wire_id inRows wire) ▸ same,
    contributes⟩

theorem stale_dropsCommits (sound : SoundRows mls storage.live.messages) :
    storage.DropsCommits mls
      (mls.collected retainedAnchorEpoch storage.live.messages).staleCommitDrops := by
  intro _ member
  obtain ⟨record, inRows, isStale⟩ := mem_filterMap.mp member
  rw [rowStale] at isStale
  cases wire : record.wireMessage with
  | none => simp [wire] at isStale
  | some message =>
    simp only [wire, Option.ite_none_right_eq_some, Option.some.injEq] at isStale
    obtain ⟨⟨unresolved, kind, _⟩, rfl⟩ := isStale
    exact ⟨record, inRows, message, wire, kind, (sound.wire_id inRows wire).symm,
      unresolved_contributes unresolved⟩

/-- **The decision of a pass.** -/
theorem decision_cases (sound : SoundRows mls storage.live.messages)
    (decided : mls.canonicalizeStoredOpenmlsMessages storage state outboundIntents policy nowMs =
      .ok result) :
    ∃ stale, storage.DropsCommits mls stale ∧
      ((storage.passStart mls state.retainedAnchorEpoch < storage.live.epoch ∧
        storage.anchor (storage.passStart mls state.retainedAnchorEpoch) = none ∧
        result = (missingRetainedAnchorResult state outboundIntents policy
          nowMs).appendDroppedMessages stale) ∨
      ∃ group materialized peeled drops,
        storage.StartsOn mls state.retainedAnchorEpoch group ∧
        IsReplayOf mls group (storage.pendingMessages mls state.retainedAnchorEpoch)
          (storage.passPaths mls state.retainedAnchorEpoch group) materialized ∧
        mls.projectPendingCanonicalizationMessages
          (proposalBranchById (canonicalCandidates materialized)) (appMessagesById materialized)
          (storage.pendingMessages mls state.retainedAnchorEpoch) = .ok peeled ∧
        storage.DropsCommits mls drops ∧
        result =
          ((canonicalizeInternal ⟨state, peeled, outboundIntents, [], policy, nowMs⟩
            (canonicalCandidates materialized)).appendDroppedMessages drops).appendDroppedMessages
              stale) := by
  have messages := @passMessages _ mls storage state.retainedAnchorEpoch sound
  rw [canonicalizeStoredOpenmlsMessages] at decided
  simp only [collect_eq sound.stored, nil_append] at decided
  refine ⟨(mls.collected state.retainedAnchorEpoch storage.live.messages).staleCommitDrops,
    stale_dropsCommits sound, ?_⟩
  split at decided
  · cases decided
  rename_i _ inner decision
  cases decided
  change (if storage.passStart mls state.retainedAnchorEpoch < storage.live.epoch then _ else _) = _
    at decision
  split_ifs at decision with historical
  · rw [canonicalizeStoredOpenmlsMessagesFromRetainedAnchor] at decision
    split at decision
    · rename_i snapshot found
      have anchored : storage.anchor (storage.passStart mls state.retainedAnchorEpoch) =
          some snapshot := found
      obtain ⟨materialized, peeled, drops, replays, projected, stored, rfl⟩ :=
        fromCurrent_spec messages decision
      exact Or.inr ⟨snapshot.mls, materialized, peeled, drops,
        Or.inr ⟨historical, snapshot, anchored, rfl⟩, replays, projected,
        passCommits_dropsCommits sound stored, rfl⟩
    · rename_i found
      have missing : storage.anchor (storage.passStart mls state.retainedAnchorEpoch) = none :=
        found
      cases decision
      exact Or.inl ⟨historical, missing, rfl⟩
  · obtain ⟨materialized, peeled, drops, replays, projected, stored, rfl⟩ :=
      fromCurrent_spec messages decision
    exact Or.inr ⟨storage.live.mls, materialized, peeled, drops,
      Or.inl ⟨Nat.le_antisymm passStart_le (Nat.not_lt.mp historical), rfl⟩, replays, projected,
      passCommits_dropsCommits sound stored, rfl⟩

section Projected

variable
  (projected : mls.projectPendingCanonicalizationMessages branches apps pending = .ok peeled)

include projected

theorem projectPending_eq :
    peeled = pending.filterMap fun message =>
      (mls.projectPendingMessage branches apps message).toOption.join := by
  induction pending generalizing peeled with
  | nil =>
    cases projected
    rfl
  | cons message rest ih =>
    rw [projectPendingCanonicalizationMessages] at projected
    cases first : mls.projectPendingMessage branches apps message with
    | error => simp only [first] at projected; cases projected
    | ok here =>
      simp only [first] at projected
      cases later : mls.projectPendingCanonicalizationMessages branches apps rest with
      | error => simp only [later] at projected; cases projected
      | ok =>
        simp only [later] at projected
        cases projected
        rw [filterMap_cons, first, ← ih later]
        cases here <;> rfl

variable {message : TransportMessage} {entry : PeeledMessage}

omit projected in
theorem projectedMessage_eq_some :
    (mls.projectPendingMessage branches apps message).toOption.join = some entry ↔
      mls.projectPendingMessage branches apps message = .ok (some entry) := by
  cases mls.projectPendingMessage branches apps message <;> simp [Except.toOption]

theorem mem_projectPending :
    entry ∈ peeled ↔ ∃ message ∈ pending,
      mls.projectPendingMessage branches apps message = .ok (some entry) := by
  simp only [projectPending_eq projected, mem_filterMap, projectedMessage_eq_some]

omit projected in
theorem projectPendingMessage_ok
    (projected : mls.projectPendingMessage branches apps message = .ok (some entry)) :
    message.id = entry.messageId ∧
      (entry.kindName = .proposal ∧ mls.kindOf message = some .proposal ∨
        entry.kindName = .appMessage ∧ mls.kindOf message = some .application) := by
  rw [projectPendingMessage, projectMlsMessage] at projected
  rw [kindOf]
  cases decoded : mls.decode message.payload with
  | error => simp only [decoded] at projected; cases projected
  | ok protocol =>
    cases protocol with
    | none => simp only [decoded] at projected; cases projected
    | some protocol =>
      obtain ⟨contentType, _⟩ := protocol
      cases contentType <;> simp only [decoded, kindFromContentType] at projected <;>
        cases projected
      · exact ⟨rfl, Or.inr ⟨rfl, rfl⟩⟩
      · exact ⟨rfl, Or.inl ⟨rfl, rfl⟩⟩

theorem projectPending_ok :
    ∀ entry ∈ peeled, ∃ message ∈ pending, message.id = entry.messageId ∧
      (entry.kindName = .proposal ∧ mls.kindOf message = some .proposal ∨
        entry.kindName = .appMessage ∧ mls.kindOf message = some .application) := by
  intro _ member
  obtain ⟨message, isPending, single⟩ := (mem_projectPending projected).mp member
  exact ⟨message, isPending, projectPendingMessage_ok single⟩

theorem replayed_of_projected (state : CanonicalizationState)
    (outboundIntents : List OutboundIntent) (policy : CanonicalizationPolicy) (nowMs : Nat) :
    CanonicalizationInput.Replayed ⟨state, peeled, outboundIntents, [], policy, nowMs⟩ where
  noKnown := rfl
  noCommits := by
    intro entry member isCommit
    obtain ⟨_, _, _, kinds⟩ := projectPending_ok projected entry member
    rw [PeeledMessage.isCommit, beq_iff_eq] at isCommit
    rw [isCommit] at kinds
    simp at kinds

end Projected

variable (mls storage retainedAnchorEpoch) in
/-- **What a decision says**, for a pass that starts on a given state. -/
structure PassOutcome (state : CanonicalizationState) (policy : CanonicalizationPolicy)
    (nowMs : Nat) (group : Group) (result : CanonicalizationResult) : Prop where
  previousTip : result.previousTip = state.currentTipEpoch
  unblocked : CanonicalizationError.missingRetainedAnchor ∉ result.errors
  status : result.convergenceStatus =
    if nowMs - state.lastConvergenceRelevantInputMs < policy.settlementQuiescenceMs then
      .syncing
    else
      .settled
  proposals : ∀ id ∈ result.acceptedProposals,
    ∃ message ∈ storage.pendingMessages mls retainedAnchorEpoch,
      message.id = id ∧ mls.kindOf message = some .proposal
  applications : ∀ id ∈ result.acceptedAppMessages,
    ∃ message ∈ storage.pendingMessages mls retainedAnchorEpoch,
      message.id = id ∧ mls.kindOf message = some .application
  proposalIds : result.acceptedProposals.Nodup
  applicationIds : result.acceptedAppMessages.Nodup
  idle : result.selectedTip = none → result.replayIds = []
  selected : ∀ tip, result.selectedTip = some tip →
    ∃ path ∈ storage.passPaths mls retainedAnchorEpoch group,
      result.acceptedCommits = path.messages.map TransportMessage.id ∧
      tip = mls.epoch group + path.messages.length

theorem mem_appendDroppedMessages {more : List DroppedMessage} {dropped : DroppedMessage}
    (member : dropped ∈ (result.appendDroppedMessages more).droppedMessages) :
    dropped ∈ result.droppedMessages ∨ dropped ∈ more := by
  rw [appendDroppedMessages, mem_sortBy] at member
  generalize result.droppedMessages = older at member ⊢
  induction more generalizing older with
  | nil => exact Or.inl member
  | cons entry rest ih =>
    rw [foldl_cons] at member
    rcases ih _ member with old | later
    · split_ifs at old
      · exact Or.inl old
      · rcases mem_append.mp old with old | new
        · exact Or.inl old
        · rw [mem_singleton.mp new]
          exact Or.inr mem_cons_self
    · exact Or.inr (mem_cons_of_mem _ later)

/-- What is dropped was dropped by branch selection, or is a commit of the group's rows. -/
theorem dropped_source {stale : List DroppedMessage} (staleCommits : storage.DropsCommits mls stale)
    (dropCommits : storage.DropsCommits mls drops) :
    ∀ dropped ∈
      ((result.appendDroppedMessages drops).appendDroppedMessages stale).droppedMessages,
      dropped ∈ result.droppedMessages ∨ storage.DropsCommits mls [dropped] := by
  intro dropped member
  have single : ∀ {more : List DroppedMessage}, storage.DropsCommits mls more →
      dropped ∈ more → storage.DropsCommits mls [dropped] := by
    intro _ commits listed _ isOther
    rw [mem_singleton.mp isOther]
    exact commits dropped listed
  rcases mem_appendDroppedMessages member with inner | listed
  · exact (mem_appendDroppedMessages inner).imp_right (single dropCommits)
  · exact Or.inr (single staleCommits listed)

theorem commitsOf_path (sound : SoundRows mls storage.live.messages)
    (ended : path ∈ storage.passPaths mls retainedAnchorEpoch group)
    {before after : List TransportMessage}
    (proposals : ∀ message ∈ before, mls.kindOf message = some .proposal)
    (applications : ∀ message ∈ after, mls.kindOf message = some .application) :
    mls.commitsOf (before ++ path.messages ++ after) = path.messages := by
  obtain ⟨_, known, messages, _, _⟩ := endedPaths_isPath ended
  have front : mls.commitsOf before = [] := by
    refine commitsOf_eq_nil fun message member isCommit => ?_
    rw [proposals message member] at isCommit
    cases isCommit
  have back : mls.commitsOf after = [] := by
    refine commitsOf_eq_nil fun message member isCommit => ?_
    rw [applications message member] at isCommit
    cases isCommit
  have commits : mls.commitsOf path.messages = path.messages :=
    filter_eq_self.mpr fun message member => by
      rw [messages] at member
      obtain ⟨commit, chained, rfl⟩ := mem_map.mp member
      exact decide_eq_true <| kindOf_eq_some.mpr
        ⟨_, (passMessages sound).commit commit (mem_sortBy.mp (known chained))⟩
  rw [commitsOf_append, commitsOf_append, front, back, commits, nil_append, append_nil]

theorem commitsOf_replay (sound : SoundRows mls storage.live.messages)
    (ended : path ∈ storage.passPaths mls retainedAnchorEpoch group) :
    mls.commitsOf (mls.proposalsOf (storage.pendingMessages mls retainedAnchorEpoch) ++
      path.messages ++ mls.applicationsOf (storage.pendingMessages mls retainedAnchorEpoch)) =
        path.messages :=
  commitsOf_path sound ended
    (fun _ member => of_decide_eq_true (mem_filter.mp member).2)
    (fun _ member => of_decide_eq_true (mem_filter.mp member).2)

section Replays

variable (laws : mls.EpochLaws) (sound : SoundRows mls storage.live.messages)
  (replays : IsReplayOf mls group (storage.pendingMessages mls state.retainedAnchorEpoch)
    (storage.passPaths mls state.retainedAnchorEpoch group) materialized)
  (projected : mls.projectPendingCanonicalizationMessages
    (proposalBranchById (canonicalCandidates materialized)) (appMessagesById materialized)
    (storage.pendingMessages mls state.retainedAnchorEpoch) = .ok peeled)

include laws sound replays projected in
/-- **The decision of a pass that is not blocked.** -/
theorem decision_spec (droppedMessages : List DroppedMessage) :
    PassOutcome mls storage state.retainedAnchorEpoch state policy nowMs group
      { canonicalizeInternal ⟨state, peeled, outboundIntents, [], policy, nowMs⟩
          (canonicalCandidates materialized) with droppedMessages } := by
  have replayed := replayed_of_projected projected state outboundIntents policy nowMs
  have tips := @canonicalizeInternal_tips ⟨state, peeled, outboundIntents, [], policy, nowMs⟩
    (canonicalCandidates materialized)
  refine
    { previousTip := tips.2
      unblocked := missingRetainedAnchor_not_mem_errors _
      status := convergenceStatus_eq replayed _
      proposals := fun id accepted => ?_
      applications := fun id accepted => ?_
      proposalIds := acceptedProposals_nodup _
      applicationIds := acceptedAppMessages_nodup _
      idle := fun none => ?_
      selected := fun tip chosen => ?_ }
  · obtain ⟨entry, member, rfl, kind⟩ := mem_acceptedProposals _ accepted
    obtain ⟨message, place, same, kinds⟩ := projectPending_ok projected entry member
    rw [kind] at kinds
    simp only [reduceCtorEq, false_and, or_false, true_and] at kinds
    exact ⟨message, place, same, kinds⟩
  · obtain ⟨entry, member, rfl, kind⟩ := mem_acceptedAppMessages _ accepted
    obtain ⟨message, place, same, kinds⟩ := projectPending_ok projected entry member
    rw [kind] at kinds
    simp only [reduceCtorEq, false_and, false_or, true_and] at kinds
    exact ⟨message, place, same, kinds⟩
  · simp only [tips.1, Option.map_eq_none_iff] at none
    obtain ⟨proposals, applications⟩ := accepted_eq_nil _ none
    simp only [replayIds, proposals, applications, acceptedCommits_eq replayed]
    rw [CanonicalizationInput.selectedBranch, MaterializedGraph.selectedBranch, none]
    rfl
  · simp only [tips.1, Option.map_eq_some_iff] at chosen
    obtain ⟨_, chosen, rfl⟩ := chosen
    obtain ⟨_, member, bare, _, commits⟩ := selected_spec replayed chosen
    obtain ⟨candidate, inMaterialized, rfl⟩ := mem_map.mp member
    obtain ⟨path, ended, replay⟩ := replays.1 candidate inMaterialized
    obtain ⟨_, ran, _, _, _, ids, tip⟩ := materialize_spec laws replay
    have counted := epoch_of_replay laws ran
    rw [commitsOf_replay sound ended] at ids counted
    refine ⟨path, ended, ?_, ?_⟩
    · simp only [acceptedCommits_eq replayed, commits]
      exact ids
    · rw [(bare_eq_iff.mp bare).2.2.1, ← counted]
      exact tip

/-! ### Replaying a decision -/

section Outcome

variable (outcome : PassOutcome mls storage retainedAnchorEpoch state policy nowMs group result)

include sound in
theorem passPaths_stored (ended : path ∈ storage.passPaths mls retainedAnchorEpoch group) :
    (path.messages.map TransportMessage.id).Nodup ∧
      ∀ message ∈ path.messages, ∃ commit ∈ storage.passCommits mls retainedAnchorEpoch,
        commit.message = message := by
  obtain ⟨_, known, messages, digests, distinct⟩ := endedPaths_isPath ended
  have sorted : PassMessages mls (storage.pendingMessages mls retainedAnchorEpoch)
      (sortBy compareStoredCommits (storage.passCommits mls retainedAnchorEpoch)) :=
    (passMessages sound).perm (sortBy_perm _).symm
  have ids := sorted.stored.path_ids known (digests ▸ distinct)
  rw [messages]
  refine ⟨?_, fun message member => ?_⟩
  · rw [map_append] at ids
    exact (nodup_append.mp ids).2.1
  · obtain ⟨commit, chained, rfl⟩ := mem_map.mp member
    exact ⟨commit, mem_sortBy.mp (known chained), rfl⟩

include sound outcome

theorem PassOutcome.acceptedCommits_stored : result.acceptedCommits.Nodup ∧
    ∀ id ∈ result.acceptedCommits, ∃ commit ∈ storage.passCommits mls retainedAnchorEpoch,
      commit.message.id = id := by
  cases chosen : result.selectedTip with
  | none =>
    have empty := outcome.idle chosen
    rw [replayIds, append_eq_nil_iff, append_eq_nil_iff] at empty
    rw [empty.1.2]
    exact ⟨nodup_nil, fun _ member => absurd member not_mem_nil⟩
  | some tip =>
    obtain ⟨_, ended, accepted, _⟩ := outcome.selected tip chosen
    obtain ⟨distinct, stored⟩ := passPaths_stored sound ended
    rw [accepted]
    refine ⟨distinct, fun id member => ?_⟩
    obtain ⟨message, here, rfl⟩ := mem_map.mp member
    obtain ⟨commit, known, rfl⟩ := stored message here
    exact ⟨commit, known, rfl⟩

theorem PassOutcome.replayIds_nodup : result.replayIds.Nodup := by
  have messages := @passMessages _ mls storage retainedAnchorEpoch sound
  obtain ⟨pendingIds, _, apart⟩ := nodup_append.mp messages.ids
  obtain ⟨distinct, stored⟩ := outcome.acceptedCommits_stored sound
  rw [replayIds, nodup_append, nodup_append]
  refine ⟨⟨outcome.proposalIds, distinct, ?_⟩, outcome.applicationIds, ?_⟩
  · rintro id proposal _ commit rfl
    obtain ⟨_, member, rfl, _⟩ := outcome.proposals id proposal
    exact apart _ (mem_map_of_mem member) _ (mem_map.mpr (stored _ commit)) rfl
  · rintro id front _ application rfl
    obtain ⟨_, member, rfl, isApplication⟩ := outcome.applications id application
    rcases mem_append.mp front with proposal | commit
    · obtain ⟨_, member', same, isProposal⟩ := outcome.proposals _ proposal
      rw [inj_on_of_nodup_map pendingIds member' member same, isApplication] at isProposal
      cases isProposal
    · exact apart _ (mem_map_of_mem member) _ (mem_map.mpr (stored _ commit)) rfl

end Outcome

variable {messages : List TransportMessage}

theorem fetched_spec (sound : SoundRows mls records) {seen ids : List String}
    (distinct : ids.Nodup) (fresh : ∀ id ∈ ids, id ∉ seen)
    (fetched : replayMessagesForCanonicalizationResult records seen ids = .ok messages) :
    messages.map TransportMessage.id = ids ∧
      ∀ message ∈ messages, ∃ record ∈ records, record.payload = .openmlsWire message := by
  induction ids generalizing seen messages with
  | nil =>
    cases fetched
    exact ⟨rfl, fun _ member => absurd member not_mem_nil⟩
  | cons id rest ih =>
    rw [nodup_cons] at distinct
    rw [replayMessagesForCanonicalizationResult, if_neg (fresh id mem_cons_self)] at fetched
    cases found : getMessage records id with
    | none => simp only [found] at fetched; cases fetched
    | some record =>
      have member := mem_of_find?_eq_some found
      have named : record.id = id := by
        have matching := find?_some found
        exact eq_of_beq matching
      simp only [found] at fetched
      cases payload : record.payload with
      | rawTransport => simp only [payload] at fetched; cases fetched
      | openmlsWire message =>
        simp only [payload] at fetched
        cases later : replayMessagesForCanonicalizationResult records (id :: seen) rest with
        | error => simp only [later] at fetched; cases fetched
        | ok =>
          simp only [later] at fetched
          cases fetched
          have still : ∀ other ∈ rest, other ∉ id :: seen := by
            intro other there again
            rcases mem_cons.mp again with rfl | old
            · exact distinct.1 there
            · exact fresh other (mem_cons_of_mem _ there) old
          obtain ⟨ids, stored⟩ := ih distinct.2 still later
          refine ⟨?_, fun other place => ?_⟩
          · rw [map_cons, ids, (sound.stored record member message payload).1, named]
          · rcases mem_cons.mp place with rfl | place
            · exact ⟨record, member, payload⟩
            · exact stored other place

theorem SoundRows.wire_inj (sound : SoundRows mls records) {a b : TransportMessage}
    (first : ∃ record ∈ records, record.payload = .openmlsWire a)
    (second : ∃ record ∈ records, record.payload = .openmlsWire b) (same : a.id = b.id) :
    a = b := by
  obtain ⟨record, member, payload⟩ := first
  obtain ⟨record', member', payload'⟩ := second
  have equal : record = record' := by
    refine inj_on_of_nodup_map sound.ids member member' ?_
    rw [← (sound.stored record member a payload).1, same,
      (sound.stored record' member' b payload').1]
  rw [equal, payload'] at payload
  cases payload
  rfl

theorem SoundRows.wire_eq_of_ids (sound : SoundRows mls records)
    {first second : List TransportMessage}
    (stored : ∀ message ∈ first, ∃ record ∈ records, record.payload = .openmlsWire message)
    (stored' : ∀ message ∈ second, ∃ record ∈ records, record.payload = .openmlsWire message)
    (same : first.map TransportMessage.id = second.map TransportMessage.id) : first = second := by
  induction first generalizing second with
  | nil =>
    rw [map_nil] at same
    exact (map_eq_nil_iff.mp same.symm).symm
  | cons message rest ih =>
    cases second with
    | nil => cases same
    | cons message' =>
      rw [map_cons, map_cons, cons.injEq] at same
      rw [sound.wire_inj (stored message mem_cons_self) (stored' message' mem_cons_self) same.1,
        ih (fun other member => stored other (mem_cons_of_mem _ member))
          (fun other member => stored' other (mem_cons_of_mem _ member)) same.2]

/-- **The first commit of a path was made at the epoch the pass starts from.** -/
theorem passPaths_first (ended : path ∈ storage.passPaths mls retainedAnchorEpoch group) :
    ∃ first ∈ storage.passCommits mls retainedAnchorEpoch, ∃ rest,
      path.messages = first.message :: rest ∧
      first.sourceEpoch = storage.passStart mls retainedAnchorEpoch := by
  obtain ⟨below, _, nonempty⟩ := mem_endedPaths.mp ended
  rcases below_cases below with rfl | ⟨_, isChild, later⟩
  · exact absurd rfl nonempty
  · obtain ⟨commit, tried, extended⟩ := mem_childPaths.mp isChild
    obtain ⟨member, fits⟩ := mem_tried tried
    obtain ⟨_, _, rfl⟩ := childPath_eq_some.mp extended
    have grows : [commit.message] <+: path.messages := by
      refine below_invariant (I := fun path => [commit.message] <+: path.messages) ?_ ?_ later
      · intro _ front _ isNext
        obtain ⟨_, _, extended'⟩ := mem_childPaths.mp isNext
        obtain ⟨_, _, rfl⟩ := childPath_eq_some.mp extended'
        exact front.trans (prefix_append _ _)
      · exact prefix_rfl
    obtain ⟨rest, here⟩ := grows
    simp only [CandidatePathProbe.fits, decide_eq_true_eq] at fits
    exact ⟨commit, mem_sortBy.mp member, rest, here.symm, fits.1⟩

section Applying

variable (outcome : PassOutcome mls storage retainedAnchorEpoch state policy nowMs group result)

include sound outcome

/-- The application messages that a decision accepts, with rows that were still to be placed. -/
structure GroupStorage.Delivers {Group : Type} (storage : GroupStorage Group)
    (result : CanonicalizationResult) (messages : List TransportMessage) : Prop where
  ids : messages.map TransportMessage.id = result.acceptedAppMessages
  pending : ∀ message ∈ messages, ∃ record ∈ storage.live.messages,
    record.payload = .openmlsWire message ∧ recordStateIsCanonicalizationInput record.state

/-- The messages a decision replays are the accepted proposals, the path and the accepted
application messages. -/
theorem PassOutcome.fetched (chosen : result.selectedTip = some tip)
    (fetched : replayMessagesForCanonicalizationResult storage.live.messages [] result.replayIds =
      .ok messages) :
    ∃ path ∈ storage.passPaths mls retainedAnchorEpoch group, ∃ before after,
      result.acceptedCommits = path.messages.map TransportMessage.id ∧
      tip = mls.epoch group + path.messages.length ∧
      messages = before ++ path.messages ++ after ∧
      (∀ message ∈ before, mls.kindOf message = some .proposal) ∧
      (∀ message ∈ after, mls.kindOf message = some .application) ∧
      storage.Delivers result after := by
  obtain ⟨path, ended, accepted, tipIs⟩ := outcome.selected tip chosen
  obtain ⟨ids, stored⟩ := fetched_spec sound (outcome.replayIds_nodup sound)
    (fun _ _ => not_mem_nil) fetched
  rw [replayIds] at ids
  obtain ⟨_, after, rfl, frontIds, afterIds⟩ := map_eq_append_iff.mp ids
  obtain ⟨before, middle, rfl, beforeIds, middleIds⟩ := map_eq_append_iff.mp frontIds
  have onPath : middle = path.messages := by
    refine sound.wire_eq_of_ids (fun message member => stored message (by simp [member])) ?_
      (middleIds.trans accepted)
    intro message member
    obtain ⟨commit, known, rfl⟩ := (passPaths_stored sound ended).2 message member
    obtain ⟨record, here, wire, _⟩ := passCommits_row known
    exact ⟨record, here, wireMessage_payload wire⟩
  subst onPath
  -- A stored message with the id of a pending one is that message.
  have placed : ∀ message ∈ before ++ path.messages ++ after,
      ∀ pending ∈ storage.pendingMessages mls retainedAnchorEpoch, pending.id = message.id →
        pending = message ∧ ∃ record ∈ storage.live.messages,
          record.payload = .openmlsWire message ∧
            recordStateIsCanonicalizationInput record.state := by
    intro message member pending known same
    obtain ⟨record, here, wire, input⟩ := pendingMessages_row known
    have payload := wireMessage_payload wire
    obtain rfl := sound.wire_inj ⟨record, here, payload⟩ (stored message member) same
    exact ⟨rfl, record, here, payload, input⟩
  refine ⟨path, ended, before, after, accepted, tipIs, rfl, fun message member => ?_,
    fun message member => ?_, afterIds, fun message member => ?_⟩
  · obtain ⟨pending, known, same, kind⟩ := outcome.proposals message.id
      (beforeIds ▸ mem_map_of_mem member)
    exact (placed message (by simp [member]) pending known same).1 ▸ kind
  · obtain ⟨pending, known, same, kind⟩ := outcome.applications message.id
      (afterIds ▸ mem_map_of_mem member)
    exact (placed message (by simp [member]) pending known same).1 ▸ kind
  · obtain ⟨pending, known, same, _⟩ := outcome.applications message.id
      (afterIds ▸ mem_map_of_mem member)
    exact (placed message (by simp [member]) pending known same).2

/-- A decision with a selected branch is applied from the epoch of the row of its first commit. That
is the epoch the pass started from when the row has the epoch of the commit. -/
theorem PassOutcome.applyStart (chosen : result.selectedTip = some tip) :
    result.acceptedCommits ≠ [] ∧ ∃ start,
      applyStartEpochForCanonicalizationResult storage.live.messages result = .ok (some start) ∧
      (TimelyCommits mls storage.live.messages →
        start = storage.passStart mls retainedAnchorEpoch) := by
  obtain ⟨_, ended, accepted, _⟩ := outcome.selected tip chosen
  obtain ⟨first, known, _, here, start⟩ := passPaths_first ended
  obtain ⟨record, member, wire, kind, epoch, _⟩ := passCommits_row known
  rw [here, map_cons] at accepted
  have found : Darkmatter.getMessage storage.live.messages first.message.id = some record := by
    rw [sound.wire_id member wire]
    exact sound.getMessage_eq member
  refine ⟨by rw [accepted]; simp, record.epoch, ?_, fun timely => ?_⟩
  · rw [applyStartEpochForCanonicalizationResult, accepted]
    simp only [found]
  · rw [timely record member _ (wireMessage_payload wire) kind, epoch, start]

theorem PassOutcome.accepted_row {id : String} (accepted : id ∈ result.acceptedIds) :
    ∃ record ∈ storage.live.messages, record.id = id ∧ ReadRow mls record := by
  have pending : ∀ message ∈ storage.pendingMessages mls retainedAnchorEpoch, message.id = id →
      ∃ record ∈ storage.live.messages, record.id = id ∧ ReadRow mls record := by
    rintro message member rfl
    obtain ⟨record, here, wire, input⟩ := pendingMessages_row member
    exact ⟨record, here, (sound.wire_id here wire).symm, message, wire, Or.inr input⟩
  rw [acceptedIds, mem_append, mem_append] at accepted
  rcases accepted with (isCommit | isProposal) | isApplication
  · obtain ⟨_, known, rfl⟩ := (outcome.acceptedCommits_stored sound).2 id isCommit
    obtain ⟨record, here, wire, kind, _, contributes⟩ := passCommits_row known
    exact ⟨record, here, (sound.wire_id here wire).symm, _, wire, Or.inl ⟨kind, contributes⟩⟩
  · obtain ⟨message, member, same, _⟩ := outcome.proposals id isProposal
    exact pending message member same
  · obtain ⟨message, member, same, _⟩ := outcome.applications id isApplication
    exact pending message member same

end Applying

include laws sound replays projected in
/-- **A pass gives a state only to messages of rows it read.** -/
theorem decision_touched {droppedMessages : List DroppedMessage} (decided : result =
      { canonicalizeInternal ⟨state, peeled, outboundIntents, [], policy, nowMs⟩
          (canonicalCandidates materialized) with droppedMessages })
    (drops : ∀ dropped ∈ droppedMessages,
      dropped ∈ (canonicalizeInternal ⟨state, peeled, outboundIntents, [], policy, nowMs⟩
        (canonicalCandidates materialized)).droppedMessages ∨ storage.DropsCommits mls [dropped])
    {id : String} (given : result.stateByMessageId[id]? ≠ none) :
    ∃ record ∈ storage.live.messages, record.id = id ∧ ReadRow mls record := by
  have pending : ∀ entry ∈ peeled, entry.messageId = id →
      ∃ record ∈ storage.live.messages, record.id = id ∧ ReadRow mls record := by
    rintro entry member rfl
    obtain ⟨message, isPending, same, _⟩ := projectPending_ok projected entry member
    obtain ⟨record, here, wire, input⟩ := pendingMessages_row isPending
    exact ⟨record, here, by rw [← same, sound.wire_id here wire], message, wire, Or.inr input⟩
  obtain ⟨given, found⟩ := Option.ne_none_iff_exists'.mp given
  rcases stateByMessageId_source found with
    ⟨accepted, _⟩ | ⟨invalidated, isInvalidated, same, _⟩ | ⟨dropped, isDropped, same, _⟩
  · subst decided
    exact (decision_spec laws sound replays projected droppedMessages).accepted_row sound accepted
  · rw [decided] at isInvalidated
    obtain ⟨source, unique, disposed⟩ := mem_invalidatedAppMessages.mp isInvalidated
    refine pending source (dedupe_fst_subset _ _ unique) ?_
    rw [← same]
    exact invalidated_messageId disposed
  · rw [decided] at isDropped
    rcases drops dropped isDropped with own | commits
    · rcases mem_droppedMessages (replayed_of_projected projected state outboundIntents policy nowMs)
        own with ⟨canonical, isCanonical, listed⟩ | ⟨entry, isEntry, named, _⟩
      · obtain ⟨candidate, inMaterialized, rfl⟩ := mem_map.mp isCanonical
        obtain ⟨path, ended, replay⟩ := replays.1 candidate inMaterialized
        obtain ⟨_, _, _, _, _, ids, _⟩ := materialize_spec laws replay
        rw [commitsOf_replay sound ended] at ids
        have onPath : id ∈ path.messages.map TransportMessage.id := by
          rw [← same, ← ids]
          exact listed
        obtain ⟨message, isMessage, rfl⟩ := mem_map.mp onPath
        obtain ⟨_, known, rfl⟩ := (passPaths_stored sound ended).2 message isMessage
        obtain ⟨record, here, wire, kind, _, contributes⟩ := passCommits_row known
        exact ⟨record, here, (sound.wire_id here wire).symm, _, wire, Or.inl ⟨kind, contributes⟩⟩
      · exact pending entry isEntry (named.trans same)
    · obtain ⟨record, here, message, wire, kind, sameId, contributes⟩ :=
        commits dropped mem_cons_self
      exact ⟨record, here, sameId.trans same, message, wire, Or.inl ⟨kind, contributes⟩⟩

end Replays

end Decision

/-! ### Applying a decision -/

/-- The rows with the states a pass gives them. -/
def CanonicalizationResult.settledRows (result : CanonicalizationResult)
    (records : List MessageRecord) : List MessageRecord :=
  records.map fun record =>
    { record with state := result.stateByMessageId[record.id]?.getD record.state }

section Storage

variable (mls : OpenMls Group) (storage : GroupStorage Group)

/-- Anchors are states of their epochs, with sound rows. -/
def SoundAnchors : Prop :=
  ∀ epoch snapshot, storage.anchor epoch = some snapshot →
    snapshot.epoch = epoch ∧ mls.epoch snapshot.mls = epoch ∧ SoundRows mls snapshot.messages

/-- **The storage of a group between steps.** An anchor is a state of its epoch, with the rows the
group had then. -/
structure SoundStorage : Prop where
  rows : SoundRows mls storage.live.messages
  timely : TimelyCommits mls storage.live.messages
  epoch : storage.live.epoch = mls.epoch storage.live.mls
  anchors : ∀ epoch snapshot, storage.anchor epoch = some snapshot →
    snapshot.epoch = epoch ∧ mls.epoch snapshot.mls = epoch ∧
      snapshot.messages.map MessageRecord.id <+: storage.live.messages.map MessageRecord.id

/-- What a pass that starts at an epoch works on: the live group, or the group rolled back to the
anchor of the epoch, with the live rows and intents. -/
def GroupStorage.startingAt (start : Nat) : GroupSnapshot Group :=
  if start < storage.live.epoch then
    ((storage.anchor start).map storage.restoreLiveMessageAndQueueRecords).getD storage.live
  else
    storage.live

/-- The group after a pass that replayed a path. -/
def GroupStorage.replayed (start : Nat) (group : Group) (result : CanonicalizationResult) :
    GroupSnapshot Group :=
  { storage.startingAt start with
    mls := group
    epoch := mls.epoch group
    messages := result.settledRows (storage.startingAt start).messages }

/-- The storage after a pass that moved the group: the epoch it left from is retained when the path
starts there, and the epoch it reached is. -/
def GroupStorage.moved (start maxRewind : Nat) (live : GroupSnapshot Group) : GroupStorage Group :=
  let left :=
    if start = storage.live.epoch then storage.retainCurrentGroupEpochSnapshot maxRewind
    else storage
  ({ left with live } : GroupStorage Group).retainCurrentGroupEpochSnapshot maxRewind

variable {mls storage}

@[simp] theorem retain_live (maxRewind : Nat) :
    (storage.retainCurrentGroupEpochSnapshot maxRewind).live = storage.live := rfl

@[simp] theorem moved_live (start maxRewind : Nat) (live : GroupSnapshot Group) :
    (storage.moved start maxRewind live).live = live := rfl

theorem anchor_retain (maxRewind epoch : Nat) :
    (storage.retainCurrentGroupEpochSnapshot maxRewind).anchor epoch =
      if epoch < storage.live.epoch - maxRewind then none
      else if epoch = storage.live.epoch then some storage.live
      else storage.anchor epoch := by
  simp only [anchor, retainCurrentGroupEpochSnapshot,
    pruneRetainedAnchorSnapshots, createGroupSnapshot,
    SnapshotName.retainedAnchor.injEq]

theorem settledRows_ids (result : CanonicalizationResult) (records : List MessageRecord) :
    (result.settledRows records).map MessageRecord.id = records.map MessageRecord.id := by
  rw [settledRows, map_map]
  rfl

theorem SoundRows.settled (sound : SoundRows mls records) (result : CanonicalizationResult) :
    SoundRows mls (result.settledRows records) where
  stored := by
    intro _ member message payload
    obtain ⟨old, known, rfl⟩ := mem_map.mp member
    exact sound.stored old known message payload
  ids := by
    rw [settledRows_ids]
    exact sound.ids

theorem TimelyCommits.settled (timely : TimelyCommits mls records) (result : CanonicalizationResult) :
    TimelyCommits mls (result.settledRows records) := by
  intro _ member message payload
  obtain ⟨old, known, rfl⟩ := mem_map.mp member
  exact timely old known message payload

/-! ### Rows under a rollback -/

section Rollback

theorem putMessage_grows (record : MessageRecord) :
    records.map MessageRecord.id <+: (putMessage records record).map MessageRecord.id :=
  put_grows record

variable {record : MessageRecord}

theorem mem_putMessage {other : MessageRecord} (distinct : (records.map MessageRecord.id).Nodup) :
    other ∈ putMessage records record ↔ other = record ∨ other ∈ records ∧ other.id ≠ record.id :=
  mem_put distinct

theorem SoundRows.put (sound : SoundRows mls records) (stored : StoredRow mls record) :
    SoundRows mls (putMessage records record) where
  stored := by
    intro other member
    rcases (mem_putMessage sound.ids).mp member with rfl | ⟨old, _⟩
    · exact stored
    · exact sound.stored other old
  ids := put_nodup sound.ids record

theorem TimelyCommits.put (timely : TimelyCommits mls records)
    (distinct : (records.map MessageRecord.id).Nodup) (onTime : TimelyRow mls record) :
    TimelyCommits mls (putMessage records record) := by
  intro other member
  rcases (mem_putMessage distinct).mp member with rfl | ⟨old, _⟩
  · exact onTime
  · exact timely other old

/-- **The rows of a group that was rolled back**: the live rows, and the rows of the snapshot under
ids that no live row has. -/
theorem mem_foldl_putMessage {live older : List MessageRecord}
    (sound : SoundRows mls live) (olderSound : SoundRows mls older) :
    SoundRows mls (live.foldl putMessage older) ∧
      ∀ record, record ∈ live.foldl putMessage older ↔
        record ∈ live ∨ record ∈ older ∧ record.id ∉ live.map MessageRecord.id := by
  obtain ⟨distinct, members⟩ := mem_foldl_put sound.ids olderSound.ids
  refine ⟨⟨fun record member => ?_, distinct⟩, members⟩
  rcases (members record).mp member with isLive | ⟨old, _⟩
  · exact sound.stored record isLive
  · exact olderSound.stored record old

end Rollback

theorem startingAt_live (start : Nat) (current : ¬ start < storage.live.epoch) :
    storage.startingAt start = storage.live :=
  if_neg current

theorem startingAt_anchor {start : Nat} {snapshot : GroupSnapshot Group}
    (historical : start < storage.live.epoch) (anchored : storage.anchor start = some snapshot) :
    storage.startingAt start = storage.restoreLiveMessageAndQueueRecords snapshot := by
  rw [startingAt, if_pos historical, anchored]
  rfl

/-- **The rows a pass works on**: the live rows, and old rows under ids that no live row has. -/
theorem startingAt_rows (rows : SoundRows mls storage.live.messages)
    (anchors : SoundAnchors mls storage) (start : Nat) :
    SoundRows mls (storage.startingAt start).messages ∧
      (∀ record ∈ storage.live.messages, record ∈ (storage.startingAt start).messages) ∧
      ∀ record ∈ (storage.startingAt start).messages, record ∈ storage.live.messages ∨
        record.id ∉ storage.live.messages.map MessageRecord.id := by
  have unchanged : SoundRows mls storage.live.messages ∧
      (∀ record ∈ storage.live.messages, record ∈ storage.live.messages) ∧
      ∀ record ∈ storage.live.messages, record ∈ storage.live.messages ∨
        record.id ∉ storage.live.messages.map MessageRecord.id :=
    ⟨rows, fun _ member => member, fun _ member => Or.inl member⟩
  rw [startingAt]
  split_ifs
  · cases anchored : storage.anchor start with
    | none => exact unchanged
    | some snapshot =>
      obtain ⟨merged, members⟩ :=
        mem_foldl_putMessage rows (anchors start snapshot anchored).2.2
      exact ⟨merged, fun record member => (members record).mpr (Or.inl member),
        fun record member => ((members record).mp member).imp_right And.right⟩
  · exact unchanged

/-- Rolling back and writing the live rows again keeps the live rows. -/
theorem SoundStorage.rolledBack (sound : SoundStorage mls storage) (start : Nat) :
    (storage.startingAt start).messages = storage.live.messages := by
  rw [startingAt]
  split_ifs
  · cases anchored : storage.anchor start with
    | none => rfl
    | some snapshot =>
      exact foldl_put_eq sound.rows.ids (sound.anchors start snapshot anchored).2.2
  · rfl

theorem SoundStorage.replayed_messages (sound : SoundStorage mls storage) (start : Nat)
    (group : Group) (result : CanonicalizationResult) :
    (storage.replayed mls start group result).messages =
      result.settledRows storage.live.messages := by
  rw [GroupStorage.replayed, sound.rolledBack]

theorem applyInner_cases {live : GroupSnapshot Group} (sound : SoundRows mls live.messages)
    (result : CanonicalizationResult) (replayMessages : List TransportMessage) :
    (∃ e, mls.applyOpenmlsCanonicalizationResultInner live result replayMessages = .error e) ∨
    ∃ output, mls.processOpenmlsMessagesInner live.mls replayMessages = .ok output ∧
      mls.applyOpenmlsCanonicalizationResultInner live result replayMessages =
        .ok (output.observations,
          { live with
            mls := output.group
            epoch := mls.epoch output.group
            messages := result.settledRows live.messages }) := by
  rw [applyOpenmlsCanonicalizationResultInner]
  cases replayed : mls.processOpenmlsMessagesInner live.mls replayMessages with
  | error e => exact Or.inl ⟨e, rfl⟩
  | ok output =>
    cases written : persistOpenmlsCanonicalizationDispositions live.messages result with
    | error e => exact Or.inl ⟨e, rfl⟩
    | ok =>
      refine Or.inr ⟨output, rfl, ?_⟩
      rw [persistDispositions_eq sound.ids written]
      rfl

section Apply

variable {state : CanonicalizationState} {policy : CanonicalizationPolicy} {nowMs : Nat}
  {group : Group} {result : CanonicalizationResult} {retainedAnchorEpoch : Nat}

theorem apply_idle (rows : SoundRows mls storage.live.messages)
    (epoch : storage.live.epoch = mls.epoch storage.live.mls)
    (outcome : PassOutcome mls storage retainedAnchorEpoch state policy nowMs group result)
    (maxRewind : Nat) (idle : result.selectedTip = none) :
    (∃ e, mls.applyOpenmlsCanonicalizationResult storage result maxRewind = (.error e, storage)) ∨
    mls.applyOpenmlsCanonicalizationResult storage result maxRewind =
      (.ok [], { storage with
        live := { storage.live with messages := result.settledRows storage.live.messages } }) := by
  have empty := outcome.idle idle
  have noCommits : result.acceptedCommits = [] := by
    rw [replayIds, append_eq_nil_iff, append_eq_nil_iff] at empty
    exact empty.1.2
  rw [applyOpenmlsCanonicalizationResult, empty, replayMessagesForCanonicalizationResult,
    applyStartEpochForCanonicalizationResult, noCommits]
  simp only [prepareApply, noCommits, ne_eq, not_true_eq_false, false_and, if_false,
    Option.getD_none, Nat.lt_irrefl]
  rcases applyInner_cases rows result [] with ⟨e, failed⟩ | ⟨_, replayed, applied⟩
  · exact Or.inl ⟨e, by simp only [failed]⟩
  · cases replayed
    refine Or.inr ?_
    simp only [applied, idle, Option.isSome_none, Bool.false_eq_true, if_false, epoch]

/-- Where the path starts decides what is retained or rolled back before the replay. -/
theorem prepareApply_cases (nonempty : result.acceptedCommits ≠ []) (start maxRewind : Nat) :
    prepareApply storage result start maxRewind = .error .snapshot ∨
      prepareApply storage result start maxRewind = .ok
        { (if start = storage.live.epoch then storage.retainCurrentGroupEpochSnapshot maxRewind
          else storage) with live := storage.startingAt start } := by
  rw [prepareApply]
  by_cases current : start = storage.live.epoch
  · rw [if_pos ⟨nonempty, current⟩, if_pos current, startingAt_live _ current.not_lt]
    exact Or.inr rfl
  rw [if_neg fun both => current both.2, if_neg current]
  by_cases historical : start < storage.live.epoch
  · rw [if_pos historical]
    cases anchored : storage.anchor start with
    | none => exact Or.inl rfl
    | some =>
      rw [startingAt_anchor historical anchored]
      exact Or.inr rfl
  · rw [if_neg historical, startingAt_live _ historical]
    exact Or.inr rfl

/-- **A decision with a branch.** It fails as a whole, but for the anchor retained before; or the
group moves to the end of the path. -/
theorem apply_selected (rows : SoundRows mls storage.live.messages)
    (restored : ∀ start, SoundRows mls (storage.startingAt start).messages)
    (outcome : PassOutcome mls storage retainedAnchorEpoch state policy nowMs group result)
    (maxRewind : Nat) (chosen : result.selectedTip = some tip) :
    (∃ e kept, mls.applyOpenmlsCanonicalizationResult storage result maxRewind = (.error e, kept) ∧
      (kept = storage ∨ kept = storage.retainCurrentGroupEpochSnapshot maxRewind)) ∨
    ∃ path ∈ storage.passPaths mls retainedAnchorEpoch group, ∃ start before after output,
      result.acceptedCommits = path.messages.map TransportMessage.id ∧
      tip = mls.epoch group + path.messages.length ∧
      (∀ message ∈ before, mls.kindOf message = some .proposal) ∧
      (∀ message ∈ after, mls.kindOf message = some .application) ∧
      storage.Delivers result after ∧
      applyStartEpochForCanonicalizationResult storage.live.messages result = .ok (some start) ∧
      mls.processOpenmlsMessagesInner (storage.startingAt start).mls
        (before ++ path.messages ++ after) = .ok output ∧
      mls.applyOpenmlsCanonicalizationResult storage result maxRewind =
        (.ok output.observations,
          storage.moved start maxRewind (storage.replayed mls start output.group result)) := by
  obtain ⟨nonempty, start, begins, _⟩ := outcome.applyStart rows chosen
  rw [applyOpenmlsCanonicalizationResult]
  cases fetched : replayMessagesForCanonicalizationResult storage.live.messages [] result.replayIds
    with
  | error e => exact Or.inl ⟨e, storage, rfl, Or.inl rfl⟩
  | ok messages =>
    obtain ⟨path, ended, before, after, accepted, tipIs, rfl, proposals, applications, delivers⟩ :=
      outcome.fetched rows chosen fetched
    simp only [begins, Option.getD_some]
    rcases @prepareApply_cases _ storage _ nonempty start maxRewind with missing | prepared
    · exact Or.inl ⟨.snapshot, storage, by rw [missing], Or.inl rfl⟩
    · rw [prepared]
      rcases applyInner_cases (restored start) result (before ++ path.messages ++ after) with
        ⟨e, failed⟩ | ⟨output, replayed, applied⟩
      · refine Or.inl ⟨e, _, by simp only [failed]; rfl, ?_⟩
        split_ifs
        · exact Or.inr rfl
        · exact Or.inl rfl
      · refine Or.inr ⟨path, ended, start, before, after, output, accepted, tipIs, proposals,
          applications, delivers, rfl, replayed, ?_⟩
        simp only [applied, chosen, Option.isSome_some, if_true]
        rfl

end Apply

end Storage

/-! ### Passes -/

section Passes

variable (mls : OpenMls Group) (engine : Engine Group)

/-- The oldest epoch a pass can go back to. -/
def Engine.horizon : Nat :=
  engine.epochState.epoch - engine.policy.convergence.maxRewindCommits

/-- The epoch the next pass starts from. -/
def Engine.passStart : Nat :=
  engine.storage.passStart mls engine.horizon

/-- A decision of a pass that starts on a given state. -/
structure Engine.Decided (nowMs : Nat) (group : Group) (result : CanonicalizationResult) : Prop where
  decided : engine.decide mls nowMs = .ok result
  starts : engine.storage.StartsOn mls engine.horizon group
  outcome : PassOutcome mls engine.storage engine.horizon engine.canonicalizationState engine.policy
    nowMs group result
  touched : ∀ id, result.stateByMessageId[id]? ≠ none →
    ∃ record ∈ engine.storage.live.messages, record.id = id ∧ ReadRow mls record

/-- What a pass observes when its decision is applied. -/
def Engine.passObservations (nowMs : Nat) : List OpenMlsReplayObservation :=
  if engine.epochState.isUnrecoverable then
    []
  else
    match engine.decide mls nowMs with
    | .error _ => []
    | .ok result =>
      if result.convergenceStatus = .syncing ∨ result.convergenceStatus = .resolving then
        []
      else if CanonicalizationError.missingRetainedAnchor ∈ result.errors then
        []
      else if result.convergenceStatus = .blocked then
        []
      else
        match mls.applyOpenmlsCanonicalizationResult engine.storage result
            engine.policy.convergence.maxRewindCommits with
        | (.error _, _) => []
        | (.ok observations, _) => observations

/-- **Everything a pass can do.** It stops for good without the anchor it starts from (`lost`); and
else it fails, writes the states of messages (`idle`) or moves the group (`moved`). -/
inductive PassEffect (nowMs : Nat) :
    Except OpenMlsProjectionError CanonicalizationResult → List OpenMlsReplayObservation →
      Engine Group → Prop
  | halted (stopped : engine.epochState.isUnrecoverable) :
      PassEffect nowMs (.ok (unrecoverableResult engine.epochState.epoch)) [] engine
  | refused {e : OpenMlsProjectionError} (decided : engine.decide mls nowMs = .error e) :
      PassEffect nowMs (.error e) [] engine
  | waiting {result : CanonicalizationResult} (decided : engine.decide mls nowMs = .ok result)
      (busy : result.convergenceStatus = .syncing) : PassEffect nowMs (.ok result) [] engine
  | lost {result : CanonicalizationResult} (decided : engine.decide mls nowMs = .ok result)
      (historical : engine.passStart mls < engine.storage.live.epoch)
      (missing : engine.storage.anchor (engine.passStart mls) = none) :
      PassEffect nowMs (.ok result) []
        { engine with
          epochState := engine.epochState.toUnrecoverable
          events := engine.events ++ [.groupUnrecoverable] }
  | failed {result : CanonicalizationResult} {group : Group} {e : OpenMlsProjectionError}
      {kept : GroupStorage Group} (decision : engine.Decided mls nowMs group result)
      (quiet : result.convergenceStatus = .settled)
      (same : kept = engine.storage ∨
        kept = engine.storage.retainCurrentGroupEpochSnapshot
          engine.policy.convergence.maxRewindCommits) :
      PassEffect nowMs (.error e) [] { engine with storage := kept }
  | idle {result : CanonicalizationResult} {group : Group}
      (decision : engine.Decided mls nowMs group result)
      (quiet : result.convergenceStatus = .settled) (none : result.selectedTip = none) :
      PassEffect nowMs (.ok result) []
        (engine.applied result []
          { engine.storage with
            live :=
              { engine.storage.live with
                messages := result.settledRows engine.storage.live.messages } })
  | moved {result : CanonicalizationResult} {group : Group} {tip start : Nat}
      {path : CandidatePathProbe} {before after : List TransportMessage}
      {output : OpenMlsReplayOutput Group}
      (decision : engine.Decided mls nowMs group result)
      (quiet : result.convergenceStatus = .settled) (selected : result.selectedTip = some tip)
      (ended : path ∈ engine.storage.passPaths mls engine.horizon group)
      (accepted : result.acceptedCommits = path.messages.map TransportMessage.id)
      (reached : tip = mls.epoch group + path.messages.length)
      (proposals : ∀ message ∈ before, mls.kindOf message = some .proposal)
      (applications : ∀ message ∈ after, mls.kindOf message = some .application)
      (begins : applyStartEpochForCanonicalizationResult engine.storage.live.messages result =
        .ok (some start))
      (replayed : mls.processOpenmlsMessagesInner (engine.storage.startingAt start).mls
        (before ++ path.messages ++ after) = .ok output)
      (delivers : engine.storage.Delivers result after) :
      PassEffect nowMs (.ok result) output.observations
        (engine.applied result output.observations
          (engine.storage.moved start engine.policy.convergence.maxRewindCommits
            (engine.storage.replayed mls start output.group result)))

variable {mls engine} {nowMs : Nat} {result : CanonicalizationResult}

theorem Engine.Decided.startingAt_mls {group : Group}
    (decision : engine.Decided mls nowMs group result) :
    (engine.storage.startingAt (engine.passStart mls)).mls = group := by
  rw [Engine.passStart]
  rcases decision.starts with ⟨current, rfl⟩ | ⟨historical, _, anchored, rfl⟩
  · rw [startingAt_live _ (Nat.not_lt.mpr current.ge)]
  · rw [startingAt_anchor historical anchored]
    rfl

/-- A decision over timely commits is applied to the state it was made on. -/
theorem Engine.Decided.start_eq {start tip : Nat} {group : Group}
    (decision : engine.Decided mls nowMs group result)
    (sound : SoundRows mls engine.storage.live.messages)
    (timely : TimelyCommits mls engine.storage.live.messages)
    (selected : result.selectedTip = some tip)
    (begins : applyStartEpochForCanonicalizationResult engine.storage.live.messages result =
      .ok (some start)) :
    start = engine.passStart mls ∧ (engine.storage.startingAt start).mls = group := by
  obtain ⟨_, _, same, onTime⟩ := decision.outcome.applyStart sound selected
  rw [begins] at same
  cases same
  obtain rfl : start = engine.passStart mls := onTime timely
  exact ⟨rfl, decision.startingAt_mls⟩

theorem decide_cases (laws : mls.EpochLaws) (sound : SoundRows mls engine.storage.live.messages)
    (decided : engine.decide mls nowMs = .ok result) :
    (engine.passStart mls < engine.storage.live.epoch ∧
      engine.storage.anchor (engine.passStart mls) = none ∧
      CanonicalizationError.missingRetainedAnchor ∈ result.errors ∧
      result.convergenceStatus ≠ .resolving ∧ result.convergenceStatus ≠ .settled) ∨
    ∃ group, engine.Decided mls nowMs group result := by
  have here := decided
  rw [Engine.decide] at here
  split at here
  · cases here
  obtain ⟨_, staleCommits, ⟨historical, missing, rfl⟩ |
    ⟨group, materialized, peeled, drops, starts, replays, projected, dropCommits, rfl⟩⟩ :=
      decision_cases sound here
  · refine Or.inl ⟨historical, missing, mem_singleton.mpr rfl, ?_⟩
    simp only [appendDroppedMessages, missingRetainedAnchorResult]
    split <;> exact ⟨nofun, nofun⟩
  · exact Or.inr ⟨group, decided, starts, decision_spec laws sound replays projected _,
      fun id => decision_touched laws sound replays projected rfl
        (dropped_source staleCommits dropCommits)⟩

/-- **What a pass does.** -/
theorem converge_cases (laws : mls.EpochLaws) (rows : SoundRows mls engine.storage.live.messages)
    (epoch : engine.storage.live.epoch = mls.epoch engine.storage.live.mls)
    (restored : ∀ start, SoundRows mls (engine.storage.startingAt start).messages) (nowMs : Nat) :
    PassEffect mls engine nowMs (convergeStoredOpenmlsMessages mls engine nowMs).1
      (engine.passObservations mls nowMs) (convergeStoredOpenmlsMessages mls engine nowMs).2 := by
  rw [convergeStoredOpenmlsMessages, Engine.passObservations]
  by_cases stopped : engine.epochState.isUnrecoverable
  · rw [if_pos stopped, if_pos stopped]
    exact .halted stopped
  rw [if_neg stopped, if_neg stopped]
  cases decided : engine.decide mls nowMs with
  | error => exact .refused decided
  | ok result =>
    simp only
    rcases decide_cases laws rows decided with
      ⟨historical, missing, reported, notResolving, notSettled⟩ | ⟨group, decision⟩
    · by_cases busy : result.convergenceStatus = .syncing ∨ result.convergenceStatus = .resolving
      · rw [if_pos busy, if_pos busy]
        exact .waiting decided (busy.resolve_right notResolving)
      · rw [if_neg busy, if_neg busy, if_pos reported, if_pos reported]
        exact .lost decided historical missing
    · have status := decision.outcome.status
      split_ifs at status with quiet
      · rw [if_pos (Or.inl status), if_pos (Or.inl status)]
        exact .waiting decided status
      · have ready : ¬ (result.convergenceStatus = .syncing ∨
            result.convergenceStatus = .resolving) := by
          rw [status]
          simp
        have open' : result.convergenceStatus ≠ .blocked := by
          rw [status]
          simp
        rw [if_neg ready, if_neg ready, if_neg decision.outcome.unblocked,
          if_neg decision.outcome.unblocked, if_neg open', if_neg open']
        cases chosen : result.selectedTip with
        | none =>
          rcases apply_idle rows epoch decision.outcome
            engine.policy.convergence.maxRewindCommits chosen with ⟨e, failed⟩ | applied
          · rw [failed]
            exact .failed decision status (Or.inl rfl)
          · rw [applied]
            exact .idle decision status chosen
        | some =>
          rcases apply_selected rows restored decision.outcome
            engine.policy.convergence.maxRewindCommits chosen with ⟨e, kept, failed, same⟩ |
              ⟨path, ended, start, before, after, output, accepted, reached, proposals,
                applications, delivers, begins, replayed, applied⟩
          · rw [failed]
            exact .failed decision status same
          · rw [applied]
            exact .moved decision status chosen ended accepted reached proposals applications
              begins replayed delivers

theorem SoundStorage.converge_cases (laws : mls.EpochLaws)
    (sound : SoundStorage mls engine.storage) (nowMs : Nat) :
    PassEffect mls engine nowMs (convergeStoredOpenmlsMessages mls engine nowMs).1
      (engine.passObservations mls nowMs) (convergeStoredOpenmlsMessages mls engine nowMs).2 :=
  Darkmatter.converge_cases laws sound.rows sound.epoch
    (fun start => by rw [sound.rolledBack]; exact sound.rows) nowMs

end Passes

end Darkmatter
