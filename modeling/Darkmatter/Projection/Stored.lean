/-
**Canonicalization of stored messages.**

The storage of a group holds its MLS state, its record, its messages and its outbound queue, and
named snapshots of all four. A pass reads the stored messages, replays the candidate paths from the
current state or from a retained anchor, and decides (`canonicalizeStoredOpenmlsMessages`). Applying
the decision (`applyOpenmlsCanonicalizationResult`) rolls back to the anchor the path starts from,
replays the path, and writes the dispositions back.

* `retainCurrentGroupEpochSnapshot` — the anchor of the current epoch is kept, and the anchors below
  the rewind horizon are released;
* `persistDispositions_eq` — the states a pass writes, as one function of the record.
-/

import Darkmatter.Lib.Keyed
import Darkmatter.Projection.Laws
import Darkmatter.Projection.Paths

namespace Darkmatter

open Std Lib List

/-! ### Storage -/

/-- An outbound intent that waits until the group has settled. -/
structure QueuedOutboundIntent where
  id : String
  intent : Bytes
  createdAtMs : Nat
deriving DecidableEq, Repr

/-- What a group snapshot captures: the MLS state, the epoch of the group record, the messages and
the queued outbound intents. -/
structure GroupSnapshot (Group : Type) where
  mls : Group
  epoch : Nat
  messages : List MessageRecord
  queue : List QueuedOutboundIntent

inductive SnapshotName
  | retainedAnchor (epoch : Nat)
  | forkRecovery (sourceEpoch counter : Nat)
deriving DecidableEq, Repr

/-- The storage of one group. The snapshots that a pass creates and releases itself are not listed:
a pass works on a copy instead. -/
structure GroupStorage (Group : Type) where
  live : GroupSnapshot Group
  snapshots : SnapshotName → Option (GroupSnapshot Group)

/-- A row is replaced in place, and a new row goes to the end. -/
def putMessage (records : List MessageRecord) (record : MessageRecord) : List MessageRecord :=
  put MessageRecord.id records record

def getMessage (records : List MessageRecord) (id : String) : Option MessageRecord :=
  records.find? fun record => record.id == id

/-- The state of a row; there must be one. -/
def updateMessageState (records : List MessageRecord) (id : String) (state : MessageState) :
    Option (List MessageRecord) :=
  match records with
  | [] => none
  | record :: rest =>
    if record.id = id then
      some ({ record with state } :: rest)
    else
      (updateMessageState rest id state).map (record :: ·)

/-- An intent is replaced in place, and a new intent goes to the end. -/
def putQueuedOutboundIntent (queue : List QueuedOutboundIntent) (queued : QueuedOutboundIntent) :
    List QueuedOutboundIntent :=
  put QueuedOutboundIntent.id queue queued

variable {Group : Type} (mls : OpenMls Group) (storage : GroupStorage Group)

namespace GroupStorage

def createGroupSnapshot (name : SnapshotName) : GroupStorage Group :=
  { storage with
    snapshots := fun other => if other = name then some storage.live else storage.snapshots other }

def releaseGroupSnapshot (name : SnapshotName) : GroupStorage Group :=
  { storage with
    snapshots := fun other => if other = name then none else storage.snapshots other }

/-- The anchors of epochs below the rewind horizon are released. -/
def pruneRetainedAnchorSnapshots
    (retainedEpoch maxRetainedAnchorRewind : Nat) : GroupStorage Group :=
  { storage with
    snapshots := fun name =>
      match name with
      | .retainedAnchor epoch =>
        if epoch < retainedEpoch - maxRetainedAnchorRewind then none else storage.snapshots name
      | .forkRecovery .. => storage.snapshots name }

def retainCurrentGroupEpochSnapshot (maxRetainedAnchorRewind : Nat) : GroupStorage Group :=
  (storage.createGroupSnapshot (.retainedAnchor storage.live.epoch)).pruneRetainedAnchorSnapshots
    storage.live.epoch maxRetainedAnchorRewind

def anchor (epoch : Nat) : Option (GroupSnapshot Group) :=
  storage.snapshots (.retainedAnchor epoch)

/-- The group rolled back to a snapshot, with the live messages and intents written over those of the
snapshot. -/
def restoreLiveMessageAndQueueRecords (snapshot : GroupSnapshot Group) : GroupSnapshot Group :=
  { snapshot with
    messages := storage.live.messages.foldl putMessage snapshot.messages
    queue := storage.live.queue.foldl putQueuedOutboundIntent snapshot.queue }

end GroupStorage

/-! ### The input of a pass over stored messages -/

def recordStateIsCanonicalizationInput : MessageState → Bool
  | .sent | .created | .retryable => true
  | _ => false

def recordStateCanContributeToOpenmlsGraph (state : MessageState) : Bool :=
  recordStateIsCanonicalizationInput state || state == .processed

def unresolvedCommitState : MessageState → Bool
  | .sent | .created | .retryable => true
  | _ => false

/-- What a pass reads from the stored messages. -/
structure CollectedMessages where
  commitMessages : List StoredCommitMessage := []
  pendingMessages : List TransportMessage := []
  staleCommitDrops : List DroppedMessage := []

/-- A commit, or a proposal or application message still to be placed, at or after the retained
anchor; an unresolved commit below the anchor is dropped. -/
def OpenMls.collectRecord {Group : Type} (mls : OpenMls Group) (retainedAnchorEpoch : Nat)
    (collected : CollectedMessages) (record : MessageRecord) :
    Except OpenMlsProjectionError CollectedMessages :=
  if !recordStateCanContributeToOpenmlsGraph record.state then
    .ok collected
  else
    match record.payload with
    | .rawTransport _ => .ok collected
    | .openmlsWire message =>
      if message.envelope.isWelcome then
        .ok collected
      else
        match mls.projectMlsMessage message.payload with
        | .error e => .error e
        | .ok projection =>
          match projection.kind, projection.sourceEpoch with
          | .commit, some sourceEpoch =>
            if sourceEpoch < retainedAnchorEpoch then
              if unresolvedCommitState record.state then
                .ok { collected with
                  staleCommitDrops :=
                    collected.staleCommitDrops ++ [⟨message.id, .commit, .beyondAnchor⟩] }
              else
                .ok collected
            else
              .ok { collected with
                commitMessages :=
                  collected.commitMessages ++
                    [⟨message, sourceEpoch, projection.messageDigest, record.state⟩] }
          | .proposal, some sourceEpoch | .application, some sourceEpoch =>
            if recordStateIsCanonicalizationInput record.state ∧
                retainedAnchorEpoch ≤ sourceEpoch then
              .ok { collected with pendingMessages := collected.pendingMessages ++ [message] }
            else
              .ok collected
          | _, _ => .ok collected

/-- The epoch of the oldest unresolved commit below the current epoch. -/
def historicalReplayStartEpoch (commits : List StoredCommitMessage) (currentEpoch : Nat) :
    Option Nat :=
  ((commits.filter fun commit =>
    unresolvedCommitState commit.state && commit.sourceEpoch < currentEpoch).map
      StoredCommitMessage.sourceEpoch).min?

def missingRetainedAnchorResult (state : CanonicalizationState)
    (outboundIntents : List OutboundIntent) (policy : CanonicalizationPolicy) (nowMs : Nat) :
    CanonicalizationResult where
  previousTip := state.currentTipEpoch
  selectedTip := none
  selectedForkEpoch := none
  selectedBranchId := none
  candidateCount := 0
  eligibleCount := 0
  convergenceStatus :=
    if policy.settlementQuiescenceMs ≤ nowMs - state.lastConvergenceRelevantInputMs then
      .blocked
    else
      .syncing
  acceptedCommits := []
  acceptedProposals := []
  acceptedAppMessages := []
  invalidatedAppMessages := []
  droppedMessages := []
  alreadySeen := []
  queuedOutboundIntents := outboundIntents
  publishableOutboundMessages := []
  errors := [.missingRetainedAnchor]
  selectionTrace := none

/-- Drops of messages that have none yet. -/
def CanonicalizationResult.appendDroppedMessages (result : CanonicalizationResult)
    (droppedMessages : List DroppedMessage) : CanonicalizationResult :=
  { result with
    droppedMessages :=
      sortBy compare <|
        droppedMessages.foldl
          (fun dropped entry =>
            if dropped.any fun existing => existing.messageId == entry.messageId then
              dropped
            else
              dropped ++ [entry])
          result.droppedMessages }

/-- The work of a pass once its start epoch is known. -/
structure StoredOpenMlsCanonicalizationWork where
  state : CanonicalizationState
  commitMessages : List StoredCommitMessage
  pendingMessages : List TransportMessage
  outboundIntents : List OutboundIntent
  policy : CanonicalizationPolicy
  nowMs : Nat
  replayStartEpoch : Nat

namespace OpenMls

/-- A pass from a given MLS state. The candidates replayed during the search are used again when no
application message is pending. -/
def canonicalizeStoredOpenmlsMessagesFromCurrent (group : Group)
    (work : StoredOpenMlsCanonicalizationWork) :
    Except OpenMlsProjectionError CanonicalizationResult :=
  match mls.buildStoredOpenmlsCandidatePaths group work.commitMessages work.pendingMessages
      work.replayStartEpoch work.policy.convergence.maxRewindCommits with
  | .error e => .error e
  | .ok pathResult =>
    match mls.pendingMessagesContainApplication work.pendingMessages with
    | .error e => .error e
    | .ok hasPendingApps =>
      let batch : OpenMlsCanonicalizationBatch :=
        { state := work.state
          candidatePaths := pathResult.candidatePaths
          pendingMessages := work.pendingMessages
          outboundIntents := work.outboundIntents
          policy := work.policy
          nowMs := work.nowMs }
      let canReuseMaterialized :=
        !hasPendingApps && pathResult.materialized.length == pathResult.candidatePaths.length
      let result :=
        if canReuseMaterialized then
          mls.canonicalizeOpenmlsBatchWithMaterialized batch
            (sortBy (compareOn OpenMlsMaterializedCandidate.branchId) pathResult.materialized)
        else
          mls.canonicalizeOpenmlsBatch group batch
      match result with
      | .error e => .error e
      | .ok result => .ok (result.appendDroppedMessages pathResult.invalidCommitDrops)

/-- A pass from the retained anchor of its start epoch. -/
def canonicalizeStoredOpenmlsMessagesFromRetainedAnchor (work : StoredOpenMlsCanonicalizationWork) :
    Except OpenMlsProjectionError CanonicalizationResult :=
  match storage.anchor work.replayStartEpoch with
  | some snapshot => mls.canonicalizeStoredOpenmlsMessagesFromCurrent snapshot.mls work
  | none =>
    .ok (missingRetainedAnchorResult work.state work.outboundIntents work.policy work.nowMs)

/-- The commits a pass replays: all of them when it starts in the past, and else only the
unresolved ones. -/
def replayedCommits (commits : List StoredCommitMessage) (currentEpoch : Nat) :
    List StoredCommitMessage :=
  if (historicalReplayStartEpoch commits currentEpoch).isSome then
    commits
  else
    commits.filter fun commit => unresolvedCommitState commit.state

/-- **The decision over the stored messages of a group.** -/
def canonicalizeStoredOpenmlsMessages
    (state : CanonicalizationState) (outboundIntents : List OutboundIntent)
    (policy : CanonicalizationPolicy) (nowMs : Nat) :
    Except OpenMlsProjectionError CanonicalizationResult :=
  let currentEpoch := storage.live.epoch
  match storage.live.messages.foldlM (mls.collectRecord state.retainedAnchorEpoch) {} with
  | .error e => .error e
  | .ok collected =>
    let replayStartEpoch :=
      (historicalReplayStartEpoch collected.commitMessages currentEpoch).getD currentEpoch
    let work : StoredOpenMlsCanonicalizationWork :=
      { state
        commitMessages := replayedCommits collected.commitMessages currentEpoch
        pendingMessages := collected.pendingMessages
        outboundIntents
        policy
        nowMs
        replayStartEpoch }
    let result :=
      if replayStartEpoch < currentEpoch then
        mls.canonicalizeStoredOpenmlsMessagesFromRetainedAnchor storage work
      else
        mls.canonicalizeStoredOpenmlsMessagesFromCurrent storage.live.mls work
    match result with
    | .error e => .error e
    | .ok result => .ok (result.appendDroppedMessages collected.staleCommitDrops)

end OpenMls

/-! ### Applying a decision -/

def messageStateForDroppedReason : DroppedMessageReason → MessageState
  | .malformed | .unsupportedPolicy => .failed
  | .beyondRollbackHorizon | .beyondAnchor | .beyondAppRetention
  | .invalidAgainstCandidateState => .epochInvalidated

/-- A message of a later epoch may still decrypt one day; every other loss is final. -/
def messageStateForInvalidatedReason (reason : InvalidatedAppMessageReason)
    (messageEpoch resultingTip : Nat) : MessageState :=
  match reason with
  | .undecryptableInCanonicalState =>
    if resultingTip < messageEpoch then .retryable else .epochInvalidated
  | .losingBranch | .beyondAnchor | .beyondAppRetention => .epochInvalidated

/-- The states a pass gives to messages; an accepted message is processed whatever else is said of
it. -/
def CanonicalizationResult.stateByMessageId (result : CanonicalizationResult) :
    ExtTreeMap String MessageState :=
  let resultingTip := result.selectedTip.getD result.previousTip
  let dropped := result.droppedMessages.foldl
    (fun states dropped =>
      states.insert dropped.messageId (messageStateForDroppedReason dropped.reason)) ∅
  let invalidated := result.invalidatedAppMessages.foldl
    (fun states invalidated =>
      states.insert invalidated.messageId
        (messageStateForInvalidatedReason invalidated.reason invalidated.epoch resultingTip))
    dropped
  result.acceptedIds.foldl (fun states accepted => states.insert accepted .processed) invalidated

def persistOpenmlsCanonicalizationDispositions (records : List MessageRecord)
    (result : CanonicalizationResult) : Except OpenMlsProjectionError (List MessageRecord) :=
  result.stateByMessageId.toList.foldlM
    (fun records entry =>
      match updateMessageState records entry.1 entry.2 with
      | some records => .ok records
      | none => .error .storage)
    records

/-- The accepted messages to replay: proposals, commits, application messages, each once. -/
def replayMessagesForCanonicalizationResult (records : List MessageRecord) (seen : List String) :
    List String → Except OpenMlsProjectionError (List TransportMessage)
  | [] => .ok []
  | id :: rest =>
    if id ∈ seen then
      replayMessagesForCanonicalizationResult records seen rest
    else
      match getMessage records id with
      | none => .error .storage
      | some record =>
        match record.payload with
        | .rawTransport _ => .error .decode
        | .openmlsWire message =>
          match replayMessagesForCanonicalizationResult records (id :: seen) rest with
          | .error e => .error e
          | .ok messages => .ok (message :: messages)

def CanonicalizationResult.replayIds (result : CanonicalizationResult) : List String :=
  result.acceptedProposals ++ result.acceptedCommits ++ result.acceptedAppMessages

/-- The epoch of the first accepted commit. -/
def applyStartEpochForCanonicalizationResult (records : List MessageRecord)
    (result : CanonicalizationResult) : Except OpenMlsProjectionError (Option Nat) :=
  match result.acceptedCommits with
  | [] => .ok none
  | first :: _ =>
    match getMessage records first with
    | none => .error .storage
    | some record => .ok (some record.epoch)

namespace OpenMls

/-- The replay of the accepted messages and the new states, as one transaction. -/
def applyOpenmlsCanonicalizationResultInner (live : GroupSnapshot Group)
    (result : CanonicalizationResult) (replayMessages : List TransportMessage) :
    Except OpenMlsProjectionError (List OpenMlsReplayObservation × GroupSnapshot Group) :=
  match mls.processOpenmlsMessagesInner live.mls replayMessages with
  | .error e => .error e
  | .ok output =>
    match persistOpenmlsCanonicalizationDispositions live.messages result with
    | .error e => .error e
    | .ok messages =>
      .ok (output.observations,
        { live with mls := output.group, epoch := mls.epoch output.group, messages })

/-- The storage a decision is applied to: with the current epoch retained when the path starts
here, and rolled back to the anchor, the live messages and intents written over its own, when it
starts in the past. -/
def prepareApply (result : CanonicalizationResult) (applyStartEpoch maxRetainedAnchorRewind : Nat) :
    Except OpenMlsProjectionError (GroupStorage Group) :=
  if result.acceptedCommits ≠ [] ∧ applyStartEpoch = storage.live.epoch then
    .ok (storage.retainCurrentGroupEpochSnapshot maxRetainedAnchorRewind)
  else if applyStartEpoch < storage.live.epoch then
    match storage.anchor applyStartEpoch with
    | none => .error .snapshot
    | some snapshot =>
      .ok { storage with live := storage.restoreLiveMessageAndQueueRecords snapshot }
  else
    .ok storage

/-- **A decision applied.** A failure restores the group as it was; the anchors keep what was
retained or released before the failure. -/
def applyOpenmlsCanonicalizationResult
    (result : CanonicalizationResult) (maxRetainedAnchorRewind : Nat) :
    Except OpenMlsProjectionError (List OpenMlsReplayObservation) × GroupStorage Group :=
  match replayMessagesForCanonicalizationResult storage.live.messages [] result.replayIds with
  | .error e => (.error e, storage)
  | .ok replayMessages =>
    match applyStartEpochForCanonicalizationResult storage.live.messages result with
    | .error e => (.error e, storage)
    | .ok applyStartEpoch =>
      match prepareApply storage result (applyStartEpoch.getD storage.live.epoch)
          maxRetainedAnchorRewind with
      | .error e => (.error e, storage)
      | .ok prepared =>
        match mls.applyOpenmlsCanonicalizationResultInner prepared.live result replayMessages with
        | .error e => (.error e, { prepared with live := storage.live })
        | .ok (observations, live) =>
          let applied : GroupStorage Group := { prepared with live }
          if result.selectedTip.isSome then
            (.ok observations, applied.retainCurrentGroupEpochSnapshot maxRetainedAnchorRewind)
          else
            (.ok observations, applied)

end OpenMls

/-! ### Rows under updates -/

section Updates

variable {records updated : List MessageRecord} {id : String} {state : MessageState}
  {entries : List (String × MessageState)} {result : CanonicalizationResult}

theorem updateMessageState_eq (distinct : (records.map MessageRecord.id).Nodup)
    (written : updateMessageState records id state = some updated) :
    updated = records.map fun record => if record.id = id then { record with state } else record := by
  induction records generalizing updated with
  | nil => cases written
  | cons record rest ih =>
    rw [map_cons, nodup_cons] at distinct
    rw [updateMessageState] at written
    split_ifs at written with here
    · cases written
      rw [map_cons, if_pos here]
      congr 1
      refine (map_id' rest).symm.trans (map_congr_left fun other member => ?_)
      rw [if_neg]
      rintro rfl
      exact distinct.1 (here ▸ mem_map_of_mem member)
    · obtain ⟨_, later, rfl⟩ := Option.map_eq_some_iff.mp written
      rw [map_cons, if_neg here, ← ih distinct.2 later]

/-- The last state a list of entries gives to an id. -/
def lastState (entries : List (String × MessageState)) (id : String) (state : MessageState) :
    MessageState :=
  entries.foldl (fun state entry => if id = entry.1 then entry.2 else state) state

theorem lastState_eq {final : MessageState}
    (named : ∀ entry ∈ entries, id = entry.1 → entry.2 = final)
    (last : state = final ∨ ∃ entry ∈ entries, id = entry.1) :
    lastState entries id state = final := by
  rw [lastState]
  induction entries generalizing state with
  | nil =>
    rcases last with same | ⟨_, member, _⟩
    · exact same
    · exact absurd member not_mem_nil
  | cons entry rest ih =>
    rw [foldl_cons]
    refine ih (fun other member => named other (mem_cons_of_mem _ member)) ?_
    by_cases here : id = entry.1
    · rw [if_pos here]
      exact Or.inl (named entry mem_cons_self here)
    · rw [if_neg here]
      refine last.imp_right ?_
      rintro ⟨other, member, same⟩
      rcases mem_cons.mp member with rfl | later
      · exact absurd same here
      · exact ⟨other, later, same⟩

theorem lastState_toList (states : ExtTreeMap String MessageState) (id : String)
    (state : MessageState) : lastState states.toList id state = states[id]?.getD state := by
  have listed : ∀ entry ∈ states.toList, states[entry.1]? = some entry.2 :=
    fun entry member => ExtTreeMap.mem_toList_iff_getElem?_eq_some.mp member
  cases known : states[id]? with
  | some final =>
    refine lastState_eq (fun entry member same => ?_)
      (Or.inr ⟨(id, final), ExtTreeMap.mem_toList_iff_getElem?_eq_some.mpr known, rfl⟩)
    have here := listed entry member
    rw [← same, known] at here
    exact (Option.some.inj here).symm
  | none =>
    refine lastState_eq (fun entry member same => ?_) (Or.inl rfl)
    have here := listed entry member
    rw [← same, known] at here
    cases here

theorem foldlM_updateMessageState (distinct : (records.map MessageRecord.id).Nodup)
    (written : entries.foldlM (fun records entry =>
      match updateMessageState records entry.1 entry.2 with
      | some records => .ok records
      | none => .error .storage) records =
        (.ok updated : Except OpenMlsProjectionError (List MessageRecord))) :
    updated = records.map fun record =>
      { record with state := lastState entries record.id record.state } := by
  induction entries generalizing records updated with
  | nil =>
    cases written
    exact (map_id' records).symm
  | cons entry rest ih =>
    rw [foldlM_cons] at written
    cases first : updateMessageState records entry.1 entry.2 with
    | none => rw [first] at written; cases written
    | some next =>
      rw [first] at written
      have next' := updateMessageState_eq distinct first
      have ids : next.map MessageRecord.id = records.map MessageRecord.id := by
        rw [next', map_map]
        refine map_congr_left fun record _ => ?_
        simp only [Function.comp_apply]
        split <;> rfl
      rw [ih (ids ▸ distinct) written, next', map_map]
      refine map_congr_left fun record _ => ?_
      simp only [Function.comp_apply, lastState, foldl_cons]
      split <;> rfl

/-- **The states a pass writes.** -/
theorem persistDispositions_eq (distinct : (records.map MessageRecord.id).Nodup)
    (written : persistOpenmlsCanonicalizationDispositions records result = .ok updated) :
    updated = records.map fun record =>
      { record with state := result.stateByMessageId[record.id]?.getD record.state } := by
  rw [foldlM_updateMessageState distinct written]
  refine map_congr_left fun record _ => ?_
  rw [lastState_toList]

theorem getElem?_foldl_insert {α : Type} (key : α → String) (value : α → MessageState)
    (entries : List α) (states : ExtTreeMap String MessageState) (id : String) :
    (entries.foldl (fun states entry => states.insert (key entry) (value entry)) states)[id]? =
      ((entries.reverse.find? (key · == id)).map value).or states[id]? := by
  induction entries generalizing states with
  | nil => rfl
  | cons entry rest ih =>
    rw [foldl_cons, ih, reverse_cons, find?_append, find?_singleton, ExtTreeMap.getElem?_insert]
    cases rest.reverse.find? (key · == id) with
    | some => rfl
    | none => by_cases here : key entry = id <;> simp [here]

/-- The state an invalidated message is given. -/
def CanonicalizationResult.lostState (result : CanonicalizationResult)
    (entry : InvalidatedAppMessage) : MessageState :=
  messageStateForInvalidatedReason entry.reason entry.epoch
    (result.selectedTip.getD result.previousTip)

/-- **The state that a pass gives**: what is accepted is processed, whatever else is said of it, and
what is invalidated is not dropped. -/
theorem stateByMessageId_eq (result : CanonicalizationResult) (id : String) :
    result.stateByMessageId[id]? =
      if id ∈ result.acceptedIds then some .processed
      else ((result.invalidatedAppMessages.reverse.find? (·.messageId == id)).map
        result.lostState).or ((result.droppedMessages.reverse.find? (·.messageId == id)).map
          fun dropped => messageStateForDroppedReason dropped.reason) := by
  rw [CanonicalizationResult.stateByMessageId, getElem?_foldl_insert fun accepted => accepted,
    getElem?_foldl_insert InvalidatedAppMessage.messageId,
    getElem?_foldl_insert DroppedMessage.messageId, ExtTreeMap.getElem?_empty, Option.or_none]
  split_ifs with accepted
  · cases found : result.acceptedIds.reverse.find? (· == id) with
    | none => simpa using find?_eq_none.mp found id (mem_reverse.mpr accepted)
    | some => rfl
  · rw [find?_eq_none.mpr fun other member => ?_]
    · rfl
    · rintro same
      exact accepted (beq_iff_eq.mp same ▸ mem_reverse.mp member)

/-- **Where a state that a pass gives comes from.** -/
theorem stateByMessageId_source (found : result.stateByMessageId[id]? = some state) :
    (id ∈ result.acceptedIds ∧ state = .processed) ∨
    (∃ invalidated ∈ result.invalidatedAppMessages, invalidated.messageId = id ∧
      state = messageStateForInvalidatedReason invalidated.reason invalidated.epoch
        (result.selectedTip.getD result.previousTip)) ∨
    ∃ dropped ∈ result.droppedMessages, dropped.messageId = id ∧
      state = messageStateForDroppedReason dropped.reason := by
  rw [stateByMessageId_eq] at found
  split_ifs at found with accepted
  · exact Or.inl ⟨accepted, (Option.some.inj found).symm⟩
  rcases Option.or_eq_some_iff.mp found with lost | ⟨_, lost⟩ <;>
    obtain ⟨entry, named, rfl⟩ := Option.map_eq_some_iff.mp lost <;>
    have member := mem_reverse.mp (mem_of_find?_eq_some named) <;>
    have same := find?_some named
  · exact Or.inr (Or.inl ⟨entry, member, beq_iff_eq.mp same, rfl⟩)
  · exact Or.inr (Or.inr ⟨entry, member, beq_iff_eq.mp same, rfl⟩)

theorem stateByMessageId_cases (found : result.stateByMessageId[id]? = some state) :
    (state = .processed ∧ id ∈ result.acceptedIds) ∨ state = .failed ∨ state = .epochInvalidated ∨
      state = .retryable := by
  rcases stateByMessageId_source found with
    ⟨accepted, rfl⟩ | ⟨invalidated, _, _, rfl⟩ | ⟨dropped, _, _, rfl⟩
  · exact Or.inl ⟨rfl, accepted⟩
  · cases invalidated.reason with
    | undecryptableInCanonicalState =>
      simp only [messageStateForInvalidatedReason]
      split <;> simp
    | losingBranch | beyondAnchor | beyondAppRetention => simp [messageStateForInvalidatedReason]
  · cases dropped.reason <;> simp [messageStateForDroppedReason]

end Updates

end Darkmatter
