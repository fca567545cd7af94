/-
**Application messages that are lost.**

A pass classifies an application message that it cannot deliver three times: when it writes the state
of the row, when it emits the event that tells the application, and when it answers the caller that
brought the message. The three answers are compared here:

* `Engine.Stranded` — a message that no branch decrypts although the group has reached its epoch;
* `Move.KeepsVerdict` — a move that strands no message and takes no invalid row back;
* `invalidation_agrees` — **in a session of such moves a row becomes invalid exactly when one event is
  emitted for it**, and the caller is not told to wait.
-/

import Darkmatter.Engine.Runs

namespace Darkmatter

open Std Lib CanonicalizationResult GroupEvent List ExtTreeMap
open InvalidatedAppMessage (messageId)

/-! ### What a result says about an application message -/

/-- The event that tells the application that a message is gone. -/
def GroupEvent.invalidates (id : String) : GroupEvent → Bool
  | .appMessageInvalidated messageId .. => messageId == id
  | _ => false

section Results

variable {result : CanonicalizationResult} {id : String} {entry : InvalidatedAppMessage}

theorem stateByMessageId_accepted (accepted : id ∈ result.acceptedIds) :
    result.stateByMessageId[id]? = some .processed := by
  rw [stateByMessageId_eq, if_pos accepted]

theorem stateByMessageId_lost (distinct : (result.invalidatedAppMessages.map messageId).Nodup)
    (member : entry ∈ result.invalidatedAppMessages)
    (unaccepted : entry.messageId ∉ result.acceptedIds) :
    result.stateByMessageId[entry.messageId]? = some (result.lostState entry) := by
  rw [stateByMessageId_eq, if_neg unaccepted]
  cases found : result.invalidatedAppMessages.reverse.find? (·.messageId == entry.messageId) with
  | none => simpa using find?_eq_none.mp found entry (mem_reverse.mpr member)
  | some other =>
    have same := inj_on_of_nodup_map distinct (mem_reverse.mp (mem_of_find?_eq_some found)) member
      (by simpa using find?_some found)
    rw [same]
    rfl

theorem stateByMessageId_none (unaccepted : id ∉ result.acceptedIds)
    (valid : id ∉ result.invalidatedAppMessages.map messageId)
    (undropped : id ∉ result.droppedMessages.map DroppedMessage.messageId) :
    result.stateByMessageId[id]? = none := by
  by_contra given
  obtain ⟨_, found⟩ := Option.ne_none_iff_exists'.mp given
  rcases stateByMessageId_source found with
    ⟨accepted, _⟩ | ⟨_, member, rfl, _⟩ | ⟨_, member, rfl, _⟩
  · exact unaccepted accepted
  · exact valid (mem_map_of_mem member)
  · exact undropped (mem_map_of_mem member)

theorem countP_invalidatedAppEvents (result : CanonicalizationResult) (id : String) :
    (invalidatedAppEvents result).countP (invalidates id) =
      result.invalidatedAppMessages.countP fun invalidated =>
        invalidated.messageId == id && invalidated.reason != .undecryptableInCanonicalState := by
  rw [invalidatedAppEvents, countP_filterMap]
  refine countP_congr fun invalidated _ => ?_
  by_cases later : invalidated.reason = .undecryptableInCanonicalState
  · simp [later]
  · simp [later, invalidates]

theorem countP_events_valid (valid : id ∉ result.invalidatedAppMessages.map messageId) :
    (invalidatedAppEvents result).countP (invalidates id) = 0 := by
  rw [countP_invalidatedAppEvents, countP_eq_zero]
  intro invalidated member
  have other : invalidated.messageId ≠ id :=
    fun same => valid (same ▸ mem_map_of_mem member)
  simp [other]

/-- An invalidated message has one event, unless it may still decrypt one day. -/
theorem countP_events_lost (distinct : (result.invalidatedAppMessages.map messageId).Nodup)
    (member : entry ∈ result.invalidatedAppMessages) :
    (invalidatedAppEvents result).countP (invalidates entry.messageId) =
      if entry.reason = .undecryptableInCanonicalState then 0 else 1 := by
  rw [countP_invalidatedAppEvents]
  have only : ∀ other ∈ result.invalidatedAppMessages,
      (other.messageId == entry.messageId &&
          other.reason != .undecryptableInCanonicalState) = true ↔
        (other == entry && entry.reason != .undecryptableInCanonicalState) = true := by
    intro _ otherMember
    constructor
    · intro holds
      rw [Bool.and_eq_true, beq_iff_eq] at holds
      have same := inj_on_of_nodup_map distinct otherMember member holds.1
      subst same
      simpa using holds.2
    · intro holds
      rw [Bool.and_eq_true, beq_iff_eq] at holds
      obtain ⟨rfl, final⟩ := holds
      simpa using final
  rw [countP_congr only]
  split_ifs with later
  · simp [later]
  · have final : (entry.reason != .undecryptableInCanonicalState) = true := bne_iff_ne.mpr later
    simp only [final, Bool.and_true]
    exact count_eq_one_of_mem (List.Nodup.of_map _ distinct) member

/-- The caller is told that a message is gone for good exactly when the application is. -/
theorem outcome_lost (distinct : (result.invalidatedAppMessages.map messageId).Nodup)
    (member : entry ∈ result.invalidatedAppMessages)
    (final : entry.reason ≠ .undecryptableInCanonicalState) (groupId : String) (epoch : Nat) :
    (convergenceIngestOutcome result entry.messageId groupId epoch).isBuffered = false := by
  rw [convergenceIngestOutcome]
  split_ifs
  · rfl
  · rfl
  · rfl
  cases found : result.invalidatedAppMessages.find? fun invalidated =>
      invalidated.messageId == entry.messageId with
  | none => simpa using find?_eq_none.mp found entry member
  | some other =>
    have same := inj_on_of_nodup_map distinct (mem_of_find?_eq_some found) member
      (by simpa using find?_some found)
    subst same
    simp only
    cases reason : other.reason with
    | undecryptableInCanonicalState => exact absurd reason final
    | losingBranch | beyondAnchor | beyondAppRetention => rfl

end Results

/-! ### The branches a message decrypts on -/

/-- The observation that an application message decrypted. -/
def OpenMlsReplayObservation.delivers (id : String) : OpenMlsReplayObservation → Bool
  | .applicationProcessed messageId .. => messageId == id
  | _ => false

section Branches

def observeApp (candidate : OpenMlsMaterializedCandidate)
    (byId : ExtTreeMap String AppMessageBranches) (observation : OpenMlsReplayObservation) :
    ExtTreeMap String AppMessageBranches :=
  match observation with
  | .applicationProcessed messageId sourceEpoch sender _ decryptedPayloadRef =>
    byId.alter messageId fun known =>
      let entry := known.getD { sourceEpoch, sender, branchIds := ∅, decryptedPayloadRef }
      some { entry with branchIds := entry.branchIds.insert candidate.branchId }
  | _ => byId

/-- The entry of a message: there is one when the message decrypted somewhere, and then it names a
branch. -/
def Tracks (id : String) (delivered : Prop) (byId : ExtTreeMap String AppMessageBranches) : Prop :=
  (byId[id]? = none ↔ ¬ delivered) ∧
    ∀ branches, byId[id]? = some branches → branches.branchIds.toList ≠ []

variable {id : String} {delivered : Prop} {byId : ExtTreeMap String AppMessageBranches}

theorem Tracks.observe (tracks : Tracks id delivered byId)
    (candidate : OpenMlsMaterializedCandidate) (observation : OpenMlsReplayObservation) :
    Tracks id (delivered ∨ observation.delivers id) (observeApp candidate byId observation) := by
  cases observation with
  | applicationProcessed messageId =>
    rw [Tracks, observeApp]
    simp only [OpenMlsReplayObservation.delivers, getElem?_alter,
      LawfulEqCmp.compare_eq_iff_eq, beq_iff_eq]
    by_cases here : messageId = id
    · simp only [here, if_true, or_true, not_true_eq_false, reduceCtorEq, Option.some.injEq,
        true_and]
      rintro _ rfl
      refine ne_nil_of_mem (a := candidate.branchId) ?_
      rw [ExtTreeSet.mem_toList]
      exact ExtTreeSet.mem_insert_self
    · simp only [here, if_false, or_false]
      exact tracks
  | proposalStored | commitStaged | ignored =>
    simpa [observeApp, OpenMlsReplayObservation.delivers] using tracks

theorem Tracks.observations (tracks : Tracks id delivered byId)
    (candidate : OpenMlsMaterializedCandidate) (observations : List OpenMlsReplayObservation) :
    Tracks id (delivered ∨ ∃ observation ∈ observations, observation.delivers id)
      (observations.foldl (observeApp candidate) byId) := by
  induction observations generalizing byId delivered with
  | nil => simpa using tracks
  | cons observation rest ih =>
    rw [foldl_cons]
    simpa only [exists_mem_cons_iff, or_assoc] using ih (tracks.observe candidate observation)

theorem Tracks.candidates (tracks : Tracks id delivered byId)
    (candidates : List OpenMlsMaterializedCandidate) :
    Tracks id
      (delivered ∨ ∃ candidate ∈ candidates, ∃ observation ∈ candidate.observations,
        observation.delivers id)
      (candidates.foldl (fun byId candidate =>
        candidate.observations.foldl (observeApp candidate) byId) byId) := by
  induction candidates generalizing byId delivered with
  | nil => simpa using tracks
  | cons candidate rest ih =>
    rw [foldl_cons]
    simpa only [exists_mem_cons_iff, or_assoc] using
      ih (tracks.observations candidate candidate.observations)

/-- **The branches of a message** are known exactly when a candidate decrypted it. -/
theorem appMessagesById_tracks (id : String) (candidates : List OpenMlsMaterializedCandidate) :
    Tracks id (∃ candidate ∈ candidates, ∃ observation ∈ candidate.observations,
      observation.delivers id) (appMessagesById candidates) := by
  have empty : Tracks id False ∅ := by
    simp [Tracks]
  have tracked := empty.candidates candidates
  rw [false_or] at tracked
  exact tracked

end Branches

/-! ### The rows of a pass -/

def OpenMls.rowEpoch {Group : Type} (mls : OpenMls Group) (record : MessageRecord) : Nat :=
  (record.wireMessage.map mls.sourceEpochOf).getD record.epoch

def OpenMls.IsApp {Group : Type} (mls : OpenMls Group) (record : MessageRecord) : Prop :=
  ∃ message, record.wireMessage = some message ∧ mls.kindOf message = some .application

variable {Group : Type} {mls : OpenMls Group} {engine : Engine Group}

section Reading

variable {record : MessageRecord} {message : TransportMessage} {epoch : Nat}
  {branches : ExtTreeMap String String} {apps : ExtTreeMap String AppMessageBranches}
  {retainedAnchorEpoch : Nat} {other : MessageRecord}

theorem projectPendingMessage_app
    (decoded : mls.decode message.payload = .ok (some ⟨.application, epoch⟩)) :
    mls.projectPendingMessage branches apps message =
      .ok (some
        { messageId := message.id
          sender := (apps[message.id]?.map AppMessageBranches.sender).getD message.source
          sourceEpoch := epoch
          kind := .appMessage ((apps[message.id]?.map AppMessageBranches.sourceEpoch).getD epoch)
            ((apps[message.id]?.map fun known : AppMessageBranches =>
              known.branchIds.toList).getD [])
            (apps[message.id]?.map AppMessageBranches.decryptedPayloadRef) }) := by
  rw [OpenMls.projectPendingMessage, OpenMls.projectMlsMessage, decoded]
  rfl

variable (mls engine) in
/-- What branch selection is given in a pass. -/
def Engine.selectionInput (nowMs : Nat) (peeled : List PeeledMessage) : CanonicalizationInput :=
  ⟨engine.canonicalizationState, peeled, [], [], engine.policy, nowMs⟩

variable (mls engine) in
/-- **What a decision rests on**: the replays of the paths and the pending messages. -/
structure Engine.Reading (nowMs : Nat) (group : Group) (result : CanonicalizationResult)
    (materialized : List OpenMlsMaterializedCandidate) (peeled : List PeeledMessage) : Prop where
  replays : IsReplayOf mls group (engine.storage.pendingMessages mls engine.horizon)
    (engine.storage.passPaths mls engine.horizon group) materialized
  projected : mls.projectPendingCanonicalizationMessages
    (proposalBranchById (canonicalCandidates materialized)) (appMessagesById materialized)
    (engine.storage.pendingMessages mls engine.horizon) = .ok peeled
  decided : ∃ droppedMessages,
    result =
      { canonicalizeInternal (engine.selectionInput nowMs peeled)
          (canonicalCandidates materialized) with droppedMessages } ∧
    ∀ dropped ∈ droppedMessages,
      dropped ∈ (canonicalizeInternal (engine.selectionInput nowMs peeled)
        (canonicalCandidates materialized)).droppedMessages ∨
      engine.storage.DropsCommits mls [dropped]

theorem startsOn_unique {storage : GroupStorage Group} {first second : Group}
    (one : storage.StartsOn mls retainedAnchorEpoch first)
    (other : storage.StartsOn mls retainedAnchorEpoch second) : first = second := by
  rcases one with ⟨_, rfl⟩ | ⟨_, _, found, rfl⟩ <;>
    rcases other with ⟨_, rfl⟩ | ⟨_, _, found', rfl⟩
  · rfl
  · omega
  · omega
  · rw [found] at found'
    cases found'
    rfl

theorem Engine.Decided.reading (sound : SoundRows mls engine.storage.live.messages) {nowMs : Nat}
    {group : Group} {result : CanonicalizationResult}
    (decision : engine.Decided mls nowMs group result) :
    ∃ materialized peeled, engine.Reading mls nowMs group result materialized peeled := by
  have here := decision.decided
  rw [Engine.decide] at here
  split at here
  · cases here
  obtain ⟨_, staleCommits, ⟨_, _, rfl⟩ |
    ⟨group', materialized, peeled, drops, starts, replays, projected, dropCommits, rfl⟩⟩ :=
      decision_cases sound here
  · exact absurd (mem_singleton.mpr rfl) decision.outcome.unblocked
  · obtain rfl := startsOn_unique starts decision.starts
    exact ⟨materialized, peeled, replays, projected, _, rfl,
      dropped_source staleCommits dropCommits⟩

theorem SoundRows.eq_of_id {records : List MessageRecord} (sound : SoundRows mls records)
    (member : record ∈ records) (otherMember : other ∈ records) (same : record.id = other.id) :
    record = other :=
  inj_on_of_nodup_map sound.ids member otherMember same

theorem mem_pendingMessages :
    message ∈ engine.storage.pendingMessages mls retainedAnchorEpoch ↔
      ∃ record ∈ engine.storage.live.messages,
        mls.rowPending retainedAnchorEpoch record = some message :=
  mem_filterMap

/-- The application message of a row as a pass sees it. -/
def PeeledRow (materialized : List OpenMlsMaterializedCandidate) (record : MessageRecord)
    (epoch : Nat) (source : PeeledMessage) : Prop :=
  source.messageId = record.id ∧
    source.kind = .appMessage
      (((appMessagesById materialized)[record.id]?.map AppMessageBranches.sourceEpoch).getD epoch)
      (((appMessagesById materialized)[record.id]?.map fun known : AppMessageBranches =>
        known.branchIds.toList).getD [])
      ((appMessagesById materialized)[record.id]?.map AppMessageBranches.decryptedPayloadRef)

variable {nowMs : Nat} {group : Group} {result : CanonicalizationResult}
  {materialized : List OpenMlsMaterializedCandidate} {peeled : List PeeledMessage}

section Row

variable (sound : SoundRows mls engine.storage.live.messages)
  (member : record ∈ engine.storage.live.messages) (isApp : mls.IsApp record)

include sound member isApp

/-- The messages of other kinds have other ids. -/
theorem app_apart (otherMember : other ∈ engine.storage.live.messages)
    (wire : other.wireMessage = some message) (kind : mls.kindOf message ≠ some .application) :
    message.id ≠ record.id := by
  intro same
  rw [sound.wire_id otherMember wire] at same
  obtain rfl := sound.eq_of_id otherMember member same
  obtain ⟨_, wire', isApplication⟩ := isApp
  rw [wire] at wire'
  cases wire'
  exact kind isApplication

theorem app_not_commit {stored : StoredCommitMessage}
    (isCommit : stored ∈ engine.storage.passCommits mls engine.horizon) :
    stored.message.id ≠ record.id := by
  obtain ⟨_, otherMember, wire, kind, _⟩ := passCommits_row isCommit
  exact app_apart sound member isApp otherMember wire (by rw [kind]; simp)

theorem app_not_proposal (isPending : message ∈ engine.storage.pendingMessages mls engine.horizon)
    (proposal : mls.kindOf message = some .proposal) : message.id ≠ record.id := by
  obtain ⟨_, otherMember, row⟩ := mem_pendingMessages.mp isPending
  exact app_apart sound member isApp otherMember (rowPending_eq_some.mp row).1
    (by rw [proposal]; simp)

theorem app_not_on_path {path : CandidatePathProbe}
    (ended : path ∈ engine.storage.passPaths mls engine.horizon group) :
    record.id ∉ path.messages.map TransportMessage.id := by
  intro listed
  obtain ⟨message, onPath, same⟩ := mem_map.mp listed
  obtain ⟨_, stored, rfl⟩ := (passPaths_stored sound ended).2 message onPath
  exact app_not_commit sound member isApp stored same

theorem app_delivered (decision : engine.Decided mls nowMs group result)
    (accepted : record.id ∈ result.acceptedIds) : record.id ∈ result.acceptedAppMessages := by
  rw [acceptedIds, mem_append, mem_append] at accepted
  rcases accepted with (isCommit | isProposal) | isDelivered
  · obtain ⟨_, stored, same⟩ := (decision.outcome.acceptedCommits_stored sound).2 _ isCommit
    exact absurd same (app_not_commit sound member isApp stored)
  · obtain ⟨_, isPending, sameId, kind⟩ := decision.outcome.proposals _ isProposal
    exact absurd sameId (app_not_proposal sound member isApp isPending kind)
  · exact isDelivered

variable (reading : engine.Reading mls nowMs group result materialized peeled)

include reading

theorem app_undropped (laws : mls.EpochLaws) :
    record.id ∉ result.droppedMessages.map DroppedMessage.messageId := by
  intro listed
  obtain ⟨dropped, isDropped, same⟩ := mem_map.mp listed
  obtain ⟨_, rfl, origins⟩ := reading.decided
  have replayed := replayed_of_projected reading.projected engine.canonicalizationState []
    engine.policy nowMs
  rcases origins dropped isDropped with own | commits
  · rcases mem_droppedMessages replayed own with ⟨_, isCanonical, listed⟩ |
      ⟨entry, isEntry, named, kind⟩
    · obtain ⟨candidate, inMaterialized, rfl⟩ := mem_map.mp isCanonical
      obtain ⟨_, ended, replay⟩ := reading.replays.1 candidate inMaterialized
      obtain ⟨_, _, _, _, _, ids, _⟩ := materialize_spec laws replay
      rw [commitsOf_replay sound ended] at ids
      refine app_not_on_path sound member isApp ended ?_
      rw [← same, ← ids]
      exact listed
    · obtain ⟨message, isPending, sameId, kinds⟩ := projectPending_ok reading.projected entry isEntry
      have proposal : mls.kindOf message = some .proposal := by
        rcases kinds with ⟨_, proposal⟩ | ⟨isAppKind, _⟩
        · exact proposal
        · exact absurd isAppKind kind
      exact app_not_proposal sound member isApp isPending proposal (sameId.trans (named.trans same))
  · obtain ⟨_, otherMember, _, wire, kind, sameId, _⟩ :=
      commits dropped mem_cons_self
    exact app_apart sound member isApp otherMember wire (by rw [kind]; simp)
      ((sound.wire_id otherMember wire).trans (sameId.trans same))

variable {source : PeeledMessage}

omit isApp in
theorem app_peeled :
    source ∈ peeled ∧ source.messageId = record.id ↔
      (∃ message, mls.rowPending engine.horizon record = some message ∧
        mls.projectPendingMessage (proposalBranchById (canonicalCandidates materialized))
          (appMessagesById materialized) message = .ok (some source)) := by
  constructor
  · rintro ⟨isPeeled, named⟩
    obtain ⟨message, isPending, projected⟩ := (mem_projectPending reading.projected).mp isPeeled
    obtain ⟨_, otherMember, row⟩ := mem_pendingMessages.mp isPending
    obtain ⟨wire, _⟩ := rowPending_eq_some.mp row
    obtain rfl := sound.eq_of_id otherMember member (by
      rw [← sound.wire_id otherMember wire, (projectPendingMessage_ok projected).1, named])
    exact ⟨message, row, projected⟩
  · rintro ⟨message, row, projected⟩
    obtain ⟨wire, _⟩ := rowPending_eq_some.mp row
    refine ⟨(mem_projectPending reading.projected).mpr
      ⟨message, mem_pendingMessages.mpr ⟨record, member, row⟩, projected⟩, ?_⟩
    rw [← (projectPendingMessage_ok projected).1, sound.wire_id member wire]

omit isApp in
omit reading in
theorem peeledRow_of_projected {message : TransportMessage}
    (wire : record.wireMessage = some message) (kind : mls.kindOf message = some .application)
    (projected : mls.projectPendingMessage (proposalBranchById (canonicalCandidates materialized))
      (appMessagesById materialized) message = .ok (some source)) :
    PeeledRow materialized record (mls.rowEpoch record) source := by
  obtain ⟨_, decoded⟩ := kindOf_eq_some.mp kind
  rw [projectPendingMessage_app decoded] at projected
  cases projected
  rw [sound.wire_id member wire, OpenMls.rowEpoch, wire, Option.map_some, Option.getD_some,
    OpenMls.sourceEpochOf, decoded]
  exact ⟨rfl, rfl⟩

theorem app_unaccepted (decision : engine.Decided mls nowMs group result)
    {entry : InvalidatedAppMessage} (invalidated : entry ∈ result.invalidatedAppMessages)
    (named : entry.messageId = record.id) : record.id ∉ result.acceptedIds := by
  intro accepted
  have isDelivered := app_delivered sound member isApp decision accepted
  obtain ⟨_, rfl, _⟩ := reading.decided
  obtain ⟨_, unique, disposed⟩ := mem_invalidatedAppMessages.mp invalidated
  simp only [canonicalizeInternal_eq, (settle_sort_fields _).2.2.2.1, mem_sortBy] at isDelivered
  obtain ⟨_, kept, sameId⟩ := mem_map.mp isDelivered
  obtain ⟨otherUnique, delivered⟩ := mem_filter.mp kept
  have same := eq_of_messageId_eq CanonicalizationInput.uniqueMessages_nodup otherUnique unique
    (by rw [sameId, invalidated_messageId disposed, named])
  subst same
  rw [decide_eq_true_eq] at delivered
  rw [delivered] at disposed
  cases disposed

end Row

/-! ### Stranded messages -/

variable (mls engine) in
/-- The tip after a pass: that of the selected branch, or the one before. -/
def Engine.resultingTip (nowMs : Nat) : Nat :=
  match engine.decide mls nowMs with
  | .ok result => result.selectedTip.getD engine.epochState.epoch
  | .error _ => engine.epochState.epoch

variable (mls engine) in
/-- **A stranded message**: the application message of a row still to be placed, inside the payload
window, that no path of the pass decrypts although the group reaches its epoch. -/
structure Engine.Stranded (nowMs : Nat) (record : MessageRecord) : Prop where
  pending : ∃ message, mls.rowPending engine.horizon record = some message ∧
    mls.kindOf message = some .application
  unseen : record.id ∉ engine.canonicalizationState.seenMessageIds
  retained : appMessageExpired engine.epochState.epoch engine.policy (mls.rowEpoch record) = false
  undecrypted : ∀ group, engine.storage.StartsOn mls engine.horizon group →
    ∀ path ∈ engine.storage.passPaths mls engine.horizon group, ∀ candidate,
      mls.replayPath group (engine.storage.pendingMessages mls engine.horizon) path =
        .ok candidate →
      ∀ observation ∈ candidate.observations, observation.delivers record.id = false
  reached : mls.rowEpoch record ≤ engine.resultingTip mls nowMs

section Stranding

/-- A decrypted message has an entry, and the entry names a branch. -/
theorem undecrypted_iff (decision : engine.Decided mls nowMs group result)
    (reading : engine.Reading mls nowMs group result materialized peeled) (id : String) :
    (appMessagesById materialized)[id]? = none ↔
      ∀ other, engine.storage.StartsOn mls engine.horizon other →
        ∀ path ∈ engine.storage.passPaths mls engine.horizon other, ∀ candidate,
          mls.replayPath other (engine.storage.pendingMessages mls engine.horizon) path =
            .ok candidate →
          ∀ observation ∈ candidate.observations, observation.delivers id = false := by
  rw [(appMessagesById_tracks id materialized).1]
  constructor
  · intro none _ starts path ended candidate replay observation observed
    obtain rfl := startsOn_unique starts decision.starts
    obtain ⟨_, inMaterialized, replay'⟩ := reading.replays.2 path ended
    rw [replay] at replay'
    cases replay'
    by_contra delivers
    exact none ⟨candidate, inMaterialized, observation, observed, by simpa using delivers⟩
  · rintro silent ⟨candidate, inMaterialized, observation, observed, delivers⟩
    obtain ⟨path, ended, replay⟩ := reading.replays.1 candidate inMaterialized
    rw [silent group decision.starts path ended candidate replay observation observed] at delivers
    cases delivers

theorem Engine.Decided.resultingTip (decision : engine.Decided mls nowMs group result) :
    result.selectedTip.getD result.previousTip = engine.resultingTip mls nowMs := by
  rw [Engine.resultingTip, decision.decided, decision.outcome.previousTip]
  rfl

variable (reading : engine.Reading mls nowMs group result materialized peeled)

include reading

variable {entry : InvalidatedAppMessage}

theorem mem_invalidated_source (invalidated : entry ∈ result.invalidatedAppMessages) :
    ∃ source ∈ (engine.selectionInput nowMs peeled).uniqueMessages, ∃ epoch branches payloadRef,
      source.kind = .appMessage epoch branches payloadRef ∧
      source.messageId = entry.messageId ∧
      handleAppMessage (engine.selectionInput nowMs peeled)
        ((engine.selectionInput nowMs peeled).selectedBranch (canonicalCandidates materialized))
        epoch branches payloadRef =
          .invalidate entry.epoch entry.reason entry.decryptedPayloadRef := by
  obtain ⟨_, rfl, _⟩ := reading.decided
  obtain ⟨source, unique, disposed⟩ := mem_invalidatedAppMessages.mp invalidated
  refine ⟨source, unique, ?_⟩
  have kinds := projectPending_ok reading.projected source (dedupe_fst_subset _ _ unique)
  cases isApp : source.kind with
  | commit =>
    obtain ⟨_, _, _, ⟨kind, _⟩ | ⟨kind, _⟩⟩ := kinds <;>
      rw [PeeledMessage.kindName, isApp] at kind <;> cases kind
  | proposal =>
    rw [CanonicalizationInput.disposition, dispositionOf, isApp] at disposed
    simp only [handleProposal] at disposed
    split_ifs at disposed <;> cases disposed
  | appMessage epoch branches payloadRef =>
    refine ⟨epoch, branches, payloadRef, rfl, ?_⟩
    rw [CanonicalizationInput.disposition, dispositionOf, isApp] at disposed
    dsimp only at disposed
    cases decided : handleAppMessage (engine.selectionInput nowMs peeled)
        ((engine.selectionInput nowMs peeled).selectedBranch (canonicalCandidates materialized))
        epoch branches payloadRef with
    | invalidate lostEpoch reason lostRef =>
      rw [decided] at disposed
      cases disposed
      exact ⟨rfl, rfl⟩
    | acceptCommit | acceptProposal | acceptAppMessage | drop | undecided =>
      rw [decided] at disposed
      cases disposed

theorem invalidated_row (sound : SoundRows mls engine.storage.live.messages)
    (invalidated : entry ∈ result.invalidatedAppMessages) :
    ∃ record ∈ engine.storage.live.messages, record.id = entry.messageId ∧
      ∃ message, mls.rowPending engine.horizon record = some message ∧
        mls.kindOf message = some .application := by
  obtain ⟨source, unique, _, _, _, isApp, named, _⟩ :=
    mem_invalidated_source reading invalidated
  obtain ⟨message, isPending, sameId, kinds⟩ :=
    projectPending_ok reading.projected source (dedupe_fst_subset _ _ unique)
  obtain ⟨record, member, row⟩ := mem_pendingMessages.mp isPending
  obtain ⟨wire, _⟩ := rowPending_eq_some.mp row
  refine ⟨record, member, by rw [← sound.wire_id member wire, sameId, named], message, row, ?_⟩
  rcases kinds with ⟨kind, _⟩ | ⟨_, application⟩
  · rw [PeeledMessage.kindName, isApp] at kind
    cases kind
  · exact application

/-- **A message that is lost without an event is stranded.** -/
theorem stranded_of_lost (sound : SoundRows mls engine.storage.live.messages)
    (member : record ∈ engine.storage.live.messages)
    (decision : engine.Decided mls nowMs group result)
    (invalidated : entry ∈ result.invalidatedAppMessages) (named : entry.messageId = record.id)
    (undecryptable : entry.reason = .undecryptableInCanonicalState)
    (gone : result.lostState entry = .epochInvalidated) : engine.Stranded mls nowMs record := by
  obtain ⟨source, unique, epoch, _, _, isApp, sourceId, decided⟩ :=
    mem_invalidated_source reading invalidated
  obtain ⟨other, otherMember, otherId, message, row, kind⟩ :=
    invalidated_row reading sound invalidated
  obtain rfl := sound.eq_of_id otherMember member (otherId.trans named)
  obtain ⟨wire, _⟩ := rowPending_eq_some.mp row
  obtain ⟨_, row', projected⟩ := (app_peeled sound member reading).mp
    ⟨dedupe_fst_subset _ _ unique, sourceId.trans named⟩
  rw [row] at row'
  cases row'
  obtain ⟨_, sourceKind⟩ := peeledRow_of_projected sound member wire kind projected
  rw [isApp] at sourceKind
  injection sourceKind with epochs branchLists refs
  rw [handleAppMessage] at decided
  split_ifs at decided with below expired delivered empty
  · rw [undecryptable] at decided
    cases decided
  · rw [undecryptable] at decided
    cases decided
  · injection decided with lostEpoch _ _
    have unknown : (appMessagesById materialized)[other.id]? = none := by
      cases known : (appMessagesById materialized)[other.id]? with
      | none => rfl
      | some entry =>
        have named := (appMessagesById_tracks other.id materialized).2 entry known
        rw [known] at branchLists
        rw [branchLists] at empty
        exact absurd (isEmpty_iff.mp empty) named
    rw [unknown] at epochs
    have sameEpoch : epoch = mls.rowEpoch other := epochs
    refine ⟨⟨message, row, kind⟩, ?_, ?_, (undecrypted_iff decision reading _).mp unknown, ?_⟩
    · rw [← named, ← sourceId]
      exact dedupe_not_observed _ _ source unique
    · rw [← sameEpoch]
      exact Bool.eq_false_iff.mpr expired
    · rw [lostState, undecryptable, decision.resultingTip, messageStateForInvalidatedReason] at gone
      split_ifs at gone with later
      rw [← lostEpoch, sameEpoch] at later
      exact Nat.not_lt.mp later
  · rw [undecryptable] at decided
    cases decided

end Stranding

end Reading

/-! ### Passes -/

section Passes

/-- The events that told the application that a message is gone. -/
def Engine.invalidations (engine : Engine Group) (id : String) : Nat :=
  engine.events.countP (invalidates id)

variable (mls) in
/-- The row of an application message that is invalid. -/
def OpenMls.LostRow (records : List MessageRecord) (id : String) : Prop :=
  ∃ record ∈ records, record.id = id ∧ mls.IsApp record ∧ record.state = .epochInvalidated

variable (mls) in
/-- The row of an application message becomes invalid between two states of the rows. -/
def OpenMls.Loses (before after : List MessageRecord) (id : String) : Prop :=
  (∃ record ∈ before, record.id = id ∧ mls.IsApp record ∧ record.state ≠ .epochInvalidated) ∧
    mls.LostRow after id

variable {records work : List MessageRecord} {id : String}

theorem OpenMls.LostRow.not_loses (lost : mls.LostRow records id) (sound : SoundRows mls records) :
    ¬ mls.Loses records work id := by
  rintro ⟨⟨record, member, same, _, valid⟩, _⟩
  obtain ⟨other, otherMember, otherSame, _, invalid⟩ := lost
  obtain rfl := sound.eq_of_id member otherMember (same.trans otherSame.symm)
  exact valid invalid

theorem loses_settledRows (sound : SoundRows mls work) (kept : records ⊆ work)
    (result : CanonicalizationResult) {record : MessageRecord} (member : record ∈ records)
    (isApp : mls.IsApp record) :
    mls.Loses records (result.settledRows work) record.id ↔
      record.state ≠ .epochInvalidated ∧
        result.stateByMessageId[record.id]?.getD record.state = .epochInvalidated := by
  constructor
  · rintro ⟨⟨_, otherMember, same, _, valid⟩, _, nextMember, nextId, _, invalid⟩
    obtain rfl := sound.eq_of_id (kept otherMember) (kept member) same
    obtain ⟨_, oldMember, rfl⟩ := mem_map.mp nextMember
    obtain rfl := sound.eq_of_id oldMember (kept member) nextId
    exact ⟨valid, invalid⟩
  · rintro ⟨valid, invalid⟩
    exact ⟨⟨record, member, rfl, isApp, valid⟩, _, mem_map_of_mem (kept member), rfl, isApp, invalid⟩

variable (engine) in
theorem applied_invalidations (result : CanonicalizationResult)
    (observations : List OpenMlsReplayObservation) (storage : GroupStorage Group) (id : String) :
    (engine.applied result observations storage).invalidations id =
      engine.invalidations id + (invalidatedAppEvents result).countP (invalidates id) := by
  have replayed : (applicationReplayEvents observations).countP (invalidates id) = 0 := by
    rw [countP_eq_zero]
    intro event member
    obtain ⟨observation, _, emitted⟩ := mem_filterMap.mp member
    cases observation <;> simp only [Option.some.injEq, reduceCtorEq] at emitted
    rw [← emitted]
    exact Bool.false_ne_true
  have rolledBack : (rolledBackCommitEvents result).countP (invalidates id) = 0 := by
    rw [countP_eq_zero]
    intro event member
    obtain ⟨_, _, emitted⟩ := mem_filterMap.mp member
    split_ifs at emitted
    cases emitted
    exact Bool.false_ne_true
  simp only [Engine.invalidations, Engine.applied, countP_append, replayed, rolledBack,
    Nat.add_zero, Nat.add_right_cancel_iff, Nat.add_eq_left]
  cases result.selectedTip with
  | none => rfl
  | some =>
    simp only
    split_ifs <;> rfl

/-- **Agreement of a step on a message**: its row is lost, there is one event for it and no caller is
told to wait; or it is not lost and there is no event. -/
inductive Agrees (mls : OpenMls Group) (before after : Engine Group)
    (reported : Except OpenMlsProjectionError CanonicalizationResult) (id : String) : Prop
  | lost (loses : mls.Loses before.storage.live.messages after.storage.live.messages id)
      (announced : after.invalidations id = before.invalidations id + 1)
      (told : ∀ result, reported = .ok result → ∀ groupId epoch,
        (convergenceIngestOutcome result id groupId epoch).isBuffered = false)
  | kept (keeps : ¬ mls.Loses before.storage.live.messages after.storage.live.messages id)
      (silent : after.invalidations id = before.invalidations id)

/-- A decision that is applied agrees on every message that is not stranded. -/
theorem applied_agrees (laws : mls.EpochLaws) (sound : SoundRows mls engine.storage.live.messages)
    {nowMs : Nat} {group : Group} {result : CanonicalizationResult}
    (decision : engine.Decided mls nowMs group result)
    (observations : List OpenMlsReplayObservation) (storage : GroupStorage Group)
    (workSound : SoundRows mls work) (kept : engine.storage.live.messages ⊆ work)
    (rows : storage.live.messages = result.settledRows work)
    (free : ∀ record ∈ engine.storage.live.messages, record.id = id →
      ¬ engine.Stranded mls nowMs record) :
    Agrees mls engine (engine.applied result observations storage) (.ok result) id := by
  obtain ⟨_, _, reading⟩ := decision.reading sound
  have ids : (result.invalidatedAppMessages.map messageId).Nodup := by
    obtain ⟨_, rfl, _⟩ := reading.decided
    exact invalidatedIds_nodup
  by_cases known : ∃ record ∈ engine.storage.live.messages, record.id = id ∧ mls.IsApp record
  swap
  · have valid : id ∉ result.invalidatedAppMessages.map messageId := by
      intro listed
      obtain ⟨entry, invalidated, named⟩ := mem_map.mp listed
      obtain ⟨record, member, same, message, row, kind⟩ :=
        invalidated_row reading sound invalidated
      exact known ⟨record, member, same.trans named, message, (rowPending_eq_some.mp row).1, kind⟩
    refine .kept ?_ ?_
    · rintro ⟨⟨record, member, same, isApp, _⟩, _⟩
      exact known ⟨record, member, same, isApp⟩
    · rw [applied_invalidations, countP_events_valid valid, Nat.add_zero]
  obtain ⟨record, member, rfl, isApp⟩ := known
  have undropped := app_undropped sound member isApp reading laws
  have loses := loses_settledRows workSound kept result member isApp
  rw [← rows] at loses
  have events := applied_invalidations engine result observations storage record.id
  by_cases lost : record.id ∈ result.invalidatedAppMessages.map messageId
  swap
  · refine .kept (fun both => ?_) (by rw [events, countP_events_valid lost, Nat.add_zero])
    obtain ⟨valid, invalid⟩ := loses.mp both
    by_cases accepted : record.id ∈ result.acceptedIds
    · rw [stateByMessageId_accepted accepted] at invalid
      cases invalid
    · rw [stateByMessageId_none accepted lost undropped] at invalid
      exact valid invalid
  obtain ⟨entry, invalidated, named⟩ := mem_map.mp lost
  have state := stateByMessageId_lost ids invalidated
    (named ▸ app_unaccepted sound member isApp reading decision invalidated named)
  rw [named] at state
  rw [state, Option.getD_some] at loses
  rw [← named, countP_events_lost ids invalidated, named] at events
  by_cases waits : entry.reason = .undecryptableInCanonicalState
  · rw [if_pos waits] at events
    refine .kept (fun both => free record member rfl ?_) events
    exact stranded_of_lost reading sound member decision invalidated named waits (loses.mp both).2
  · rw [if_neg waits] at events
    obtain ⟨_, otherMember, otherId, message, row, _⟩ :=
      invalidated_row reading sound invalidated
    obtain rfl := sound.eq_of_id otherMember member (otherId.trans named)
    obtain ⟨_, input, _⟩ := rowPending_eq_some.mp row
    refine .lost (loses.mpr ⟨?_, ?_⟩) events fun decided same => ?_
    · intro invalid
      rw [invalid] at input
      cases input
    · rw [lostState]
      cases reason : entry.reason with
      | undecryptableInCanonicalState => exact absurd reason waits
      | losingBranch | beyondAnchor | beyondAppRetention => rfl
    · cases same
      exact named ▸ outcome_lost ids invalidated waits

end Passes

section Session

variable {net : Ingress Group} {transport outbox : String → Prop}

/-- **A pass agrees on every message that is not stranded.** -/
theorem pass_agrees (laws : net.EpochLaws) (sound : engine.SoundSession net transport) (nowMs : Nat)
    {id : String} (free : ∀ record ∈ engine.storage.live.messages, record.id = id →
      ¬ engine.Stranded net nowMs record) :
    Agrees net engine (convergeStoredOpenmlsMessages net engine nowMs).2
      (convergeStoredOpenmlsMessages net engine nowMs).1 id := by
  have effect := sound.converge_cases laws nowMs
  generalize (convergeStoredOpenmlsMessages net.toOpenMls engine nowMs).1 = reported at effect ⊢
  generalize engine.passObservations net nowMs = observed at effect
  generalize (convergeStoredOpenmlsMessages net.toOpenMls engine nowMs).2 = after at effect ⊢
  have rows := sound.live.rows
  have unchanged : ∀ {next : Engine Group}, next.storage.live.messages =
      engine.storage.live.messages → next.invalidations id = engine.invalidations id →
        Agrees net engine next reported id := by
    intro _ same events
    refine .kept (fun loses => ?_) events
    rw [same] at loses
    exact loses.2.not_loses rows loses
  cases effect with
  | halted | refused | waiting => exact unchanged rfl rfl
  | lost =>
    refine unchanged rfl ?_
    simp [Engine.invalidations, invalidates]
  | failed _ _ same => rcases same with rfl | rfl <;> exact unchanged rfl rfl
  | idle decision => exact applied_agrees laws rows decision [] _ rows (Subset.refl _) rfl free
  | moved decision =>
    obtain ⟨workSound, kept, _⟩ := startingAt_rows rows sound.anchors _
    exact applied_agrees laws rows decision _ _ workSound kept rfl free

/-! ### Sessions -/

variable (net) in
/-- A pass makes the row of an application message invalid. -/
def Move.Loses (engine : Engine Group) (id : String) : Move Group → Prop
  | .converge nowMs => net.Loses engine.storage.live.messages
    (convergeStoredOpenmlsMessages net engine nowMs).2.storage.live.messages id
  | _ => False

variable (net) in
/-- The ids under which a move stores a message of its own, whatever there is. -/
def Move.stores (engine : Engine Group) : Move Group → List String
  | .persistTransport message _ _ => [message.id]
  | .updateState id _ => [id]
  | .stage message mlsBytes _ _ | .send message mlsBytes =>
    [message.id, net.contentDedupId mlsBytes]
  | .confirm => (engine.pendingCommit.map fun pending => pending.record.storageId).toList
  | _ => []

variable (net) in
/-- **A move that keeps to what was said about a message**: a pass does not strand it, a recovery does
not take its invalid row back, and nothing else is stored under its id once it is lost. -/
def Move.KeepsVerdict (id : String) (engine : Engine Group) : Move Group → Prop
  | .converge nowMs => ∀ record ∈ engine.storage.live.messages, record.id = id →
    ¬ engine.Stranded net nowMs record
  | .recover _ record => engine.invalidations id ≠ 0 →
    ∀ snapshot ∈ engine.storage.snapshots record.snapshotName, net.LostRow snapshot.messages id
  | move => engine.invalidations id ≠ 0 → id ∉ move.stores net engine

/-- **What was said about a message** agrees with its row: one event if it was lost, and none else. -/
structure Engine.Told (net : Ingress Group) (engine : Engine Group) (id : String) (lost : Prop) :
    Prop where
  announced : lost → net.LostRow engine.storage.live.messages id ∧ engine.invalidations id = 1
  silent : ¬ lost → engine.invalidations id = 0

section Moves

variable {move : Move Group} {id : String} (laws : net.Laws)
  (sound : engine.SoundSession net transport)
  (allowed : move.Allowed net transport outbox engine)

include laws sound allowed

/-- **An invalid row stays.** -/
theorem OpenMls.LostRow.perform (lost : net.LostRow engine.storage.live.messages id)
    (announced : engine.invalidations id ≠ 0) (keeps : move.KeepsVerdict net id engine) :
    net.LostRow (move.perform net engine).storage.live.messages id := by
  have source : net.LostRow (move.rows engine) id := by
    cases move with
    | recover =>
      obtain ⟨_, _, _, _, snapshot, _, _, stored, _⟩ := allowed
      rw [Move.rows, stored]
      exact keeps announced snapshot stored
    | _ => exact lost
  have recorded : ¬ engine.Fresh id := by
    intro fresh
    obtain ⟨record, member, rfl, _, invalid⟩ := lost
    have unrecorded := fresh.unrecorded
    rw [Engine.recordedMessageOutcome, sound.live.rows.engine_getMessage member] at unrecorded
    simp only [invalid] at unrecorded
    cases unrecorded
  obtain ⟨old, member, rfl, isApp, invalid⟩ := source
  obtain ⟨new, isNew, same, rewrites⟩ := sound.rewrites laws allowed member
  refine ⟨new, isNew, same, ?_⟩
  cases rewrites with
  | kept => exact ⟨isApp, invalid⟩
  | transport named => exact absurd (mem_singleton.mpr named) (keeps announced)
  | updated => exact absurd (mem_singleton.mpr rfl) (keeps announced)
  | opened fresh => exact absurd fresh recorded
  | sent sends named =>
    refine absurd ?_ (show old.id ∉ move.stores net engine from ?_)
    · cases move <;> cases sends <;> simpa [Move.stores] using named
    · cases move <;> cases sends <;> exact keeps announced
  | passed decision =>
    have unread (message : TransportMessage) (wire : old.wireMessage = some message) :
        net.kindOf message ≠ some .commit ∧ ¬ recordStateIsCanonicalizationInput old.state := by
      obtain ⟨_, wire', kind⟩ := isApp
      rw [wire] at wire'
      cases wire'
      rw [kind, invalid]
      exact ⟨by simp, Bool.false_ne_true⟩
    rw [decision.spares sound member unread, Option.getD_none]
    exact ⟨isApp, invalid⟩
  | confirmed waits named =>
    refine absurd ?_ (keeps announced)
    simp [Move.stores, waits, named]
  | rolledBack => exact ⟨isApp, rfl⟩

/-- **A move keeps what was said about a message and its row in agreement.** -/
theorem Engine.Told.perform {lost : Prop} (keeps : move.KeepsVerdict net id engine)
    (told : engine.Told net id lost) :
    (move.perform net engine).Told net id (lost ∨ move.Loses net engine id) := by
  have stays (already : lost) :
      net.LostRow (move.perform net engine).storage.live.messages id := by
    obtain ⟨row, once⟩ := told.announced already
    exact row.perform laws sound allowed (by rw [once]; exact Nat.one_ne_zero) keeps
  by_cases isPass : ∃ nowMs, move = .converge nowMs
  · obtain ⟨nowMs, rfl⟩ := isPass
    cases pass_agrees laws.toEpochLaws sound nowMs keeps with
    | lost loses announced =>
      have first : ¬ lost := fun already =>
        (told.announced already).1.not_loses sound.live.rows loses
      refine ⟨fun _ => ⟨loses.2, ?_⟩, fun none => absurd (Or.inr loses) none⟩
      rw [Move.perform, announced, told.silent first]
    | kept spared same =>
      refine ⟨fun either => ?_, fun none => same.trans (told.silent fun lost => none (Or.inl lost))⟩
      have already := either.resolve_right spared
      exact ⟨stays already, same.trans (told.announced already).2⟩
  · have silent : (move.emits net engine).countP (invalidates id) = 0 := by
      cases move with
      | applyCommit _ _ _ _ recovery => cases recovery <;> rfl
      | confirm =>
        rw [Move.emits]
        split <;> rfl
      | _ => rfl
    have events : (move.perform net engine).invalidations id = engine.invalidations id := by
      rw [Engine.invalidations, allowed.events fun nowMs same => isPass ⟨nowMs, same⟩, countP_append,
        silent]
      rfl
    rw [show move.Loses net engine id ↔ False by
      cases move <;> first | exact Iff.rfl | exact absurd ⟨_, rfl⟩ isPass, or_false]
    exact ⟨fun already => ⟨stays already, events.trans (told.announced already).2⟩,
      fun none => events.trans (told.silent none)⟩

end Moves

theorem Engine.Told.follow (laws : net.Laws) {id : String} {lost : Prop} {last : Engine Group}
    {moves : List (Engine Group × Move Group)}
    (follows : Follows (Move.perform net) engine moves last)
    (sounds : ∀ move ∈ moves, move.1.SoundSession net transport ∧
      move.2.Allowed net transport outbox move.1)
    (keeps : ∀ move ∈ moves, move.2.KeepsVerdict net id move.1) (told : engine.Told net id lost) :
    last.Told net id (lost ∨ ∃ move ∈ moves, move.2.Loses net move.1 id) := by
  induction moves generalizing engine lost with
  | nil =>
    obtain rfl := follows
    simpa using told
  | cons step rest ih =>
    obtain ⟨state, move⟩ := step
    obtain ⟨rfl, later⟩ := follows
    rw [forall_mem_cons] at sounds keeps
    have next := told.perform laws sounds.1.1 sounds.1.2 keeps.1
    simpa only [exists_mem_cons_iff, or_assoc] using ih later sounds.2 keeps.2 next

/-- **Lost messages are announced.** In a session that keeps to what was said about a message, its row
becomes invalid by convergence exactly when one event is emitted for it, and the caller is then not told
to wait. -/
theorem invalidation_agrees (laws : net.Laws) (groupId : String) (policy : CanonicalizationPolicy)
    (group : Group) (steps : List SessionStep) (id : String)
    (keeps : ∀ move ∈ (Engine.joined net groupId policy group).moves net steps,
      move.2.KeepsVerdict net id move.1) :
    ((∃ move ∈ (Engine.joined net groupId policy group).moves net steps,
          move.2.Loses net move.1 id) ↔
        ((Engine.joined net groupId policy group).session net steps).invalidations id = 1) ∧
      ∀ move ∈ (Engine.joined net groupId policy group).moves net steps, move.2.Loses net move.1 id →
        ∀ nowMs result, move.2 = .converge nowMs →
          (convergeStoredOpenmlsMessages net move.1 nowMs).1 = .ok result →
          ∀ outcomeGroup epoch, convergenceIngestOutcome result id outcomeGroup epoch ≠
            .buffered outcomeGroup epoch := by
  have sound := joined_soundSession net (fun _ => True) groupId policy group
  obtain ⟨sounds, _⟩ := session_sound sound laws fun step _ => step.names_any
  have begins : (Engine.joined net groupId policy group).Told net id False :=
    ⟨False.elim, fun _ => rfl⟩
  obtain ⟨lost, kept⟩ := begins.follow laws (session_follows net _ steps) sounds keeps
  rw [false_or] at lost kept
  refine ⟨⟨fun loses => (lost loses).2, fun once => ?_⟩, ?_⟩
  · by_contra none
    rw [kept none] at once
    cases once
  · intro move member loses nowMs result isPass decided outcomeGroup epoch waits
    have keptHere := keeps move member
    rw [isPass] at loses keptHere
    cases pass_agrees laws.toEpochLaws (sounds move member).1 nowMs keptHere with
    | lost _ _ told =>
      have final := told result decided outcomeGroup epoch
      rw [waits] at final
      cases final
    | kept spared => exact spared loses

end Session

/-! ### Messages that are lost -/

section Checks

instance decidableIsApp (mls : OpenMls Group) (record : MessageRecord) :
    Decidable (mls.IsApp record) :=
  decidable_of_iff (record.wireMessage.any fun message => mls.kindOf message = some .application)
    (by rw [OpenMls.IsApp]; cases record.wireMessage <;> simp)

instance decidableLostRow (mls : OpenMls Group) (records : List MessageRecord) (id : String) :
    Decidable (mls.LostRow records id) := by
  unfold OpenMls.LostRow
  infer_instance

instance decidableMoveLoses (net : Ingress Group) (engine : Engine Group) (id : String)
    (move : Move Group) : Decidable (move.Loses net engine id) := by
  cases move <;> unfold Move.Loses <;> first | infer_instance | (unfold OpenMls.Loses; infer_instance)

/-- A pass that starts on the live state decrypts a message, if it waits. -/
def Engine.places (mls : OpenMls Group) (engine : Engine Group) (id : String) : Bool :=
  engine.storage.live.messages.all fun record =>
    record.id != id || (mls.rowPending engine.horizon record).isNone ||
      (engine.storage.passStart mls engine.horizon == engine.storage.live.epoch &&
        (engine.storage.passPaths mls engine.horizon engine.storage.live.mls).any fun path =>
          (mls.replayPath engine.storage.live.mls
              (engine.storage.pendingMessages mls engine.horizon) path).toOption.any
            fun candidate => candidate.observations.any (·.delivers id))

theorem Engine.places.not_stranded {nowMs : Nat} {id : String} (places : engine.places mls id)
    (record : MessageRecord) (member : record ∈ engine.storage.live.messages)
    (named : record.id = id) : ¬ engine.Stranded mls nowMs record := by
  intro stranded
  obtain ⟨message, row, _⟩ := stranded.pending
  have placed := all_eq_true.mp places record member
  simp only [named, bne_self_eq_false, row, Option.isNone_some, Bool.false_or, Bool.and_eq_true,
    beq_iff_eq] at placed
  obtain ⟨path, ended, replayed⟩ := any_eq_true.mp placed.2
  cases replay : mls.replayPath engine.storage.live.mls
      (engine.storage.pendingMessages mls engine.horizon) path with
  | error e =>
    rw [replay] at replayed
    cases replayed
  | ok candidate =>
    rw [replay] at replayed
    obtain ⟨observation, observed, delivers⟩ := any_eq_true.mp replayed
    have silent := stranded.undecrypted _ (Or.inl ⟨placed.1, rfl⟩) path ended candidate replay
      observation observed
    rw [named, delivers] at silent
    cases silent

/-- The checks of a move. -/
def Move.keepsVerdict (net : Ingress Group) (id : String) (engine : Engine Group) :
    Move Group → Bool
  | .converge _ => engine.places net id
  | .recover _ record => engine.invalidations id == 0 ||
    (engine.storage.snapshots record.snapshotName).all fun snapshot =>
      net.LostRow snapshot.messages id
  | move => engine.invalidations id == 0 || id ∉ move.stores net engine

theorem Move.keepsVerdict.sound {net : Ingress Group} {id : String} {move : Move Group}
    (checked : move.keepsVerdict net id engine) : move.KeepsVerdict net id engine := by
  cases move with
  | converge nowMs => exact Engine.places.not_stranded checked
  | recover =>
    intro announced snapshot stored
    rw [keepsVerdict, Bool.or_eq_true, beq_iff_eq] at checked
    have lost := checked.resolve_left announced
    rw [stored, Option.all_some] at lost
    exact of_decide_eq_true lost
  | _ =>
    intro announced
    have either := (Bool.or_eq_true _ _).mp checked
    exact of_decide_eq_true (either.resolve_left fun none => announced (beq_iff_eq.mp none))

end Checks

/-- The symbolic OpenMLS behind a transport whose envelopes everyone opens. -/
def openIngress : Ingress SymbolicGroup :=
  { symbolicIngress [9] with peelGroupMessage := fun _ message => .ok (.mlsMessage message.payload) }

theorem openIngress_laws : openIngress.Laws :=
  ⟨symbolicMls_publishLaws [9], (symbolicIngress_laws [9]).source, (symbolicIngress_laws [9]).created⟩

/-- The client sends a message, and a commit comes. -/
def sentSteps : List SessionStep :=
  [.send (symbolicMessage "sent" [2, 9]) [2, 9], ingestSymbolic "commit" [0, 1], .advance 1000]

/-- A message of epoch 2 comes that was made on a branch that never arrives, and two commits. -/
def strandedSteps : List SessionStep :=
  [ingestSymbolic "message" [2, 5, 7, 8], ingestSymbolic "first" [0, 1],
    ingestSymbolic "second" [0, 2, 1], .advance 1000]

/-- A pass makes the row invalid and no event is emitted for it, whether the client made the message
or it came; and the caller that brought it is told to wait. -/
theorem stranded_message_silent :
    ((∃ move ∈ (symbolicEngine [9]).moves (symbolicIngress [9]) sentSteps,
        move.2.Loses (symbolicIngress [9]) move.1 "sent") ∧
      ((symbolicEngine [9]).session (symbolicIngress [9]) sentSteps).invalidations "sent" = 0) ∧
    (∃ move ∈ (symbolicEngine [9]).moves openIngress strandedSteps,
        move.2.Loses openIngress move.1 "02050708") ∧
      ((symbolicEngine [9]).session openIngress strandedSteps).invalidations "02050708" = 0 ∧
      (((symbolicEngine [9]).moves openIngress strandedSteps).getLast?.bind fun move =>
        (convergeStoredOpenmlsMessages openIngress.toOpenMls move.1 1000).1.toOption.map fun result =>
          convergenceIngestOutcome result "02050708" "group" 2) = some (.buffered "group" 2) := by
  decide +kernel

/-- A branch of two commits, a shorter one, and a message made on the shorter one. Then a commit of the
client loses against another one, and the group goes back. -/
def announcedSteps : List SessionStep :=
  [ingestSymbolic "first" [0, 1], ingestSymbolic "second" [0, 2, 1], ingestSymbolic "other" [0, 3],
    ingestSymbolic "message" [2, 5, 3], .advance 1000, stageSymbolicCommit "own" 9 [2, 1],
    .confirmPublished 0, ingestSymbolic "winner" [0, 4, 2, 1]]

/-- The message of the losing branch is announced once, so its row became invalid. -/
theorem losing_message_announced :
    ((symbolicEngine [9]).session openIngress announcedSteps).storage.live.mls = [4, 2, 1] ∧
      ∃ move ∈ (symbolicEngine [9]).moves openIngress announcedSteps,
        move.2.Loses openIngress move.1 "020503" := by
  have checked : ((symbolicEngine [9]).moves openIngress announcedSteps).all
      (fun move => move.2.keepsVerdict openIngress "020503" move.1) = true := by
    decide +kernel
  refine ⟨by decide +kernel, ?_⟩
  exact (invalidation_agrees openIngress_laws "group" .default [] announcedSteps "020503"
    fun move member => Move.keepsVerdict.sound (all_eq_true.mp checked move member)).1.mpr
      (by decide +kernel)

end Darkmatter
