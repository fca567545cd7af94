/-
**The engine of one group.**

The engine buffers inbound commits and application messages as stored records, converges on the
stored records once its input has been quiet, and merges its own commits when their publication is
confirmed:

* `bufferOpenmlsConvergenceMessage` — a message is stored once, under the hash of its MLS bytes;
* `convergeStoredOpenmlsMessages` — a pass decides over the stored messages, applies the decision
  and reports what happened;
* `stageCommit`, `confirmPublished` — a commit of the client is stored as sent, and merged when the
  transport took it.

`EngineStep` and `Engine.run` put them together to runs. A restart of the process and the recovery from
a fork are not among these steps; the sessions of `Engine.session` have them.
-/

import Darkmatter.Engine.BoundedIdSet
import Darkmatter.Projection.Stored

namespace Darkmatter

open Std Lib

/-! ### State -/

/-- The key that orders the commits of one epoch: the smaller key wins. -/
structure CommitOrderingKey where
  sourceEpoch : Nat
  priority : CommitOrderingPriority
  committer : Bytes
  commitDigest : Bytes
deriving DecidableEq, Repr

instance : Ord CommitOrderingKey :=
  ⟨compareLex (compareOn CommitOrderingKey.sourceEpoch) <|
    compareLex (compareOn CommitOrderingKey.priority) <|
    compareLex (compareOn CommitOrderingKey.committer) (compareOn CommitOrderingKey.commitDigest)⟩

/-- A commit that was merged, with the snapshot of the state before it. -/
structure CommitRecoveryRecord where
  sourceEpoch : Nat
  orderingKey : CommitOrderingKey
  storageId : String
  snapshotName : SnapshotName
deriving DecidableEq, Repr

inductive EpochState
  | stable (epoch : Nat)
  | pendingPublish (epoch : Nat)
  | merging (epoch : Nat)
  | recovering (lastStableEpoch : Nat)
  | unrecoverable (lastStableEpoch : Nat)
deriving DecidableEq, Repr

namespace EpochState

def epoch : EpochState → Nat
  | .stable epoch | .pendingPublish epoch | .merging epoch => epoch
  | .recovering lastStableEpoch | .unrecoverable lastStableEpoch => lastStableEpoch

def canIngest : EpochState → Bool
  | .stable _ | .recovering _ => true
  | _ => false

def isUnrecoverable : EpochState → Bool
  | .unrecoverable _ => true
  | _ => false

def detectFork (state : EpochState) : EpochState := .recovering state.epoch

def toUnrecoverable (state : EpochState) : EpochState := .unrecoverable state.epoch

end EpochState

inductive GroupEvent
  | epochChanged (previous current : Nat)
  | messageReceived (sender : Bytes) (epoch : Nat) (payload : Bytes)
  | appMessageInvalidated (messageId : String) (epoch : Nat) (reason : InvalidatedAppMessageReason)
      (decryptedPayloadRef : Option String)
  | commitRolledBack (invalidatedCommitId : String)
  | forkRecovered (sourceEpoch recoveredEpoch : Nat) (winner invalidated : CommitOrderingKey)
      (invalidatedCommitId : String)
  | groupUnrecoverable
deriving DecidableEq, Repr

/-- A commit the client staged and sent, until its publication is confirmed. -/
structure PendingCommit where
  bytes : Bytes
  record : CommitRecoveryRecord
deriving DecidableEq, Repr

/-- **What the engine keeps for a group.** `otherRows` are the message rows of the client's other
groups, which share the table the group's rows are in. -/
structure Engine (Group : Type) where
  groupId : String
  policy : CanonicalizationPolicy
  storage : GroupStorage Group
  otherRows : List MessageRecord
  epochState : EpochState
  committedFrom : List Nat
  pendingCommit : Option PendingCommit
  incumbents : List CommitRecoveryRecord
  snapshotCounter : Nat
  lastConvergenceRelevantInputMs : Option Nat
  seenMessageIds : BoundedIdSet String dedupCacheCapacity
  sentMessageIds : BoundedIdSet String dedupCacheCapacity
  events : List GroupEvent

/-- The row of an id, in whatever group it is. -/
def Engine.getMessage {Group : Type} (engine : Engine Group) (id : String) : Option MessageRecord :=
  Darkmatter.getMessage (engine.storage.live.messages ++ engine.otherRows) id

/-- A row of the group; a row that another group has under the same id is taken over. -/
def Engine.putMessage {Group : Type} (engine : Engine Group) (record : MessageRecord) :
    Engine Group :=
  { engine with
    storage :=
      { engine.storage with
        live :=
          { engine.storage.live with
            messages := Darkmatter.putMessage engine.storage.live.messages record } }
    otherRows := engine.otherRows.filter fun other => other.id != record.id }

/-- A row that is stored unless the group has it already with the same epoch and state. -/
def Engine.persistStoredMessagePayload {Group : Type} (engine : Engine Group) (id : String)
    (epoch : Nat) (state : MessageState) (payload : StoredMessagePayload) : Engine Group :=
  let record : MessageRecord := { id, groupId := engine.groupId, epoch, state, payload }
  match engine.getMessage id with
  | some previous =>
    if previous.groupId = engine.groupId ∧ previous.epoch = epoch ∧ previous.state = state then
      engine
    else
      engine.putMessage record
  | none => engine.putMessage record

/-- The id of a message, derived from its MLS bytes. -/
def OpenMls.contentDedupId {Group : Type} (mls : OpenMls Group) (mlsBytes : Bytes) : String :=
  hexEncode (mls.sha256 mlsBytes)

/-! ### Buffering -/

variable {Group : Type} (mls : OpenMls Group) (engine : Engine Group) (message : TransportMessage)
  (nowMs : Nat)

/-- A message that the table does not hold yet is stored as created. -/
def storeConvergenceMessage : Except OpenMlsProjectionError (Engine Group) :=
  match mls.projectMlsMessage message.payload with
  | .error e => .error e
  | .ok projection =>
    match projection.sourceEpoch with
    | none => .ok engine
    | some sourceEpoch =>
      match projection.kind with
      | .commit | .proposal | .application =>
        let contentId := mls.contentDedupId message.payload
        let stored := engine.putMessage
          { id := contentId
            groupId := engine.groupId
            epoch := sourceEpoch
            state := .created
            payload := .openmlsWire { message with id := contentId } }
        .ok { stored with lastConvergenceRelevantInputMs := some nowMs }
      | .welcome | .other => .ok engine

def bufferOpenmlsConvergenceMessage : Except OpenMlsProjectionError (Engine Group) :=
  match engine.getMessage (mls.contentDedupId message.payload) with
  | none => storeConvergenceMessage mls engine message nowMs
  | some record =>
    if record.state = .peelDeferred then
      storeConvergenceMessage mls engine message nowMs
    else
      .ok engine

/-! ### Convergence -/

def unrecoverableResult (currentTip : Nat) : CanonicalizationResult where
  previousTip := currentTip
  selectedTip := none
  selectedForkEpoch := none
  selectedBranchId := none
  candidateCount := 0
  eligibleCount := 0
  convergenceStatus := .blocked
  acceptedCommits := []
  acceptedProposals := []
  acceptedAppMessages := []
  invalidatedAppMessages := []
  droppedMessages := []
  alreadySeen := []
  queuedOutboundIntents := []
  publishableOutboundMessages := []
  errors := [.missingRetainedAnchor]
  selectionTrace := none

/-- The application messages a replay delivered. -/
def applicationReplayEvents (observations : List OpenMlsReplayObservation) : List GroupEvent :=
  observations.filterMap fun observation =>
    match observation with
    | .applicationProcessed _ sourceEpoch sender payload _ =>
      some (.messageReceived sender sourceEpoch payload)
    | _ => none

variable (result : CanonicalizationResult)

def invalidatedAppEvents : List GroupEvent :=
  result.invalidatedAppMessages.filterMap fun invalidated =>
    if invalidated.reason = .undecryptableInCanonicalState then
      none
    else
      some (.appMessageInvalidated invalidated.messageId invalidated.epoch invalidated.reason
        invalidated.decryptedPayloadRef)

/-- The commits that lost branch selection. -/
def rolledBackCommitEvents : List GroupEvent :=
  result.droppedMessages.filterMap fun dropped =>
    if dropped.kind = .commit ∧ dropped.reason = .invalidAgainstCandidateState then
      some (.commitRolledBack dropped.messageId)
    else
      none

/-- The ids a pass has settled. -/
def CanonicalizationResult.rememberedIds : List String :=
  result.acceptedIds ++
    (result.droppedMessages.filter fun dropped => dropped.reason != .malformed).map
      DroppedMessage.messageId ++
    (result.invalidatedAppMessages.filter fun invalidated =>
      invalidated.reason != .undecryptableInCanonicalState).map InvalidatedAppMessage.messageId

/-- What a pass starts from. -/
def Engine.canonicalizationState : CanonicalizationState where
  currentTipEpoch := engine.epochState.epoch
  retainedAnchorEpoch := engine.epochState.epoch - engine.policy.convergence.maxRewindCommits
  lastConvergenceRelevantInputMs := engine.lastConvergenceRelevantInputMs.getD 0
  seenMessageIds := .ofList engine.seenMessageIds.order

/-- What a pass decides. -/
def Engine.decide : Except OpenMlsProjectionError CanonicalizationResult :=
  match engine.policy.validate with
  | .error _ => .error .invalidPolicy
  | .ok () =>
    mls.canonicalizeStoredOpenmlsMessages engine.storage engine.canonicalizationState []
      engine.policy nowMs

/-- The engine after a decision was applied. -/
def Engine.applied
    (observations : List OpenMlsReplayObservation) (storage : GroupStorage Group) : Engine Group :=
  { engine with
    storage
    epochState := (result.selectedTip.map EpochState.stable).getD engine.epochState
    events := engine.events ++
      (match result.selectedTip with
        | some selectedTip =>
          if engine.epochState.epoch ≠ selectedTip then
            [.epochChanged engine.epochState.epoch selectedTip]
          else
            []
        | none => []) ++
      applicationReplayEvents observations ++ invalidatedAppEvents result ++
      rolledBackCommitEvents result
    seenMessageIds := result.rememberedIds.foldl BoundedIdSet.insert engine.seenMessageIds }

/-- **A convergence pass.** A decision is applied when the input has been quiet and nothing blocks
it; a missing anchor stops the group for good. -/
def convergeStoredOpenmlsMessages :
    Except OpenMlsProjectionError CanonicalizationResult × Engine Group :=
  if engine.epochState.isUnrecoverable then
    (.ok (unrecoverableResult engine.epochState.epoch), engine)
  else
    match engine.decide mls nowMs with
    | .error e => (.error e, engine)
    | .ok result =>
      if result.convergenceStatus = .syncing ∨ result.convergenceStatus = .resolving then
        (.ok result, engine)
      else if CanonicalizationError.missingRetainedAnchor ∈ result.errors then
        (.ok result,
          { engine with
            epochState := engine.epochState.toUnrecoverable
            events := engine.events ++ [.groupUnrecoverable] })
      else if result.convergenceStatus = .blocked then
        (.ok result, engine)
      else
        match mls.applyOpenmlsCanonicalizationResult engine.storage result
            engine.policy.convergence.maxRewindCommits with
        | (.error e, storage) => (.error e, { engine with storage })
        | (.ok observations, storage) => (.ok result, engine.applied result observations storage)

/-! ### Publishing -/

/-- The rows of a sent message: the MLS bytes under the transport id, and a marker under the content
id that keeps an echo from being taken for news. -/
def Engine.recordSentOpenmlsMessage (mlsBytes : Bytes) (epoch : Nat) : Engine Group :=
  let contentId := mls.contentDedupId mlsBytes
  let openmlsMessage : TransportMessage := { message with payload := mlsBytes }
  let sent := engine.persistStoredMessagePayload message.id epoch .sent (.openmlsWire openmlsMessage)
  let marked :=
    if contentId = message.id then
      sent
    else
      sent.persistStoredMessagePayload contentId epoch .sent
        (.rawTransport { openmlsMessage with id := contentId })
  { marked with
    sentMessageIds := (engine.sentMessageIds.insert message.id).insert contentId }

/-- **A commit of the client is staged and sent.** The state before it is kept for the case that the
commit loses to another one of its epoch. -/
def stageCommit (mlsBytes : Bytes) (priority : CommitOrderingPriority)
    (committer : Bytes) : Option (Engine Group) :=
  match engine.epochState with
  | .stable _ =>
    let epoch := mls.epoch engine.storage.live.mls
    let snapshotName := SnapshotName.forkRecovery epoch (engine.snapshotCounter + 1)
    let snapshotted : Engine Group :=
      { engine with storage := engine.storage.createGroupSnapshot snapshotName }
    let sent := snapshotted.recordSentOpenmlsMessage mls message mlsBytes epoch
    some { sent with
      snapshotCounter := engine.snapshotCounter + 1
      committedFrom := epoch :: engine.committedFrom
      epochState := .pendingPublish (epoch + 1)
      pendingCommit := some
        { bytes := mlsBytes
          record :=
            { sourceEpoch := epoch
              orderingKey := ⟨epoch, priority, committer, mls.sha256 mlsBytes⟩
              storageId := message.id
              snapshotName } } }
  | _ => none

/-- Recovery snapshots of epochs below the rewind horizon are released. -/
def Engine.pruneForkRecovery : Engine Group :=
  let oldestRetainedEpoch :=
    engine.storage.live.epoch - engine.policy.convergence.maxRewindCommits
  { engine with
    storage :=
      (engine.incumbents.filter fun record => record.sourceEpoch < oldestRetainedEpoch).foldl
        (fun storage record => storage.releaseGroupSnapshot record.snapshotName) engine.storage
    incumbents := engine.incumbents.filter fun record => oldestRetainedEpoch ≤ record.sourceEpoch
    committedFrom := engine.committedFrom.filter fun epoch => oldestRetainedEpoch ≤ epoch }

/-- The commit that counts as merged from its epoch. -/
def Engine.recordApplied (record : CommitRecoveryRecord) : Engine Group :=
  { engine with
    incumbents :=
      record :: engine.incumbents.filter fun other => other.sourceEpoch != record.sourceEpoch }

/-- **The staged commit is merged** once its publication is confirmed. The anchors before and after
the merge are retained. -/
def confirmPublished : Option (Engine Group) :=
  match engine.pendingCommit, engine.epochState with
  | some pending, .pendingPublish epoch =>
    let maxRewind := engine.policy.convergence.maxRewindCommits
    let retained := engine.storage.retainCurrentGroupEpochSnapshot maxRewind
    match mls.mergePendingCommit retained.live.mls pending.bytes,
        updateMessageState retained.live.messages pending.record.storageId .processed with
    | some merged, some messages =>
      let storage : GroupStorage Group :=
        { retained with
          live := { retained.live with mls := merged, epoch := mls.epoch merged, messages } }
      let confirmed : Engine Group :=
        { engine with
          storage := storage.retainCurrentGroupEpochSnapshot maxRewind
          epochState := .stable epoch
          pendingCommit := none
          events := engine.events ++ [.epochChanged (epoch - 1) epoch] }
      some (confirmed.recordApplied pending.record).pruneForkRecovery
    | _, _ => none
  | _, _ => none

/-! ### Runs -/

/-- A step of the engine: a message is buffered, a pass runs, or a commit of the client is published
and its publication confirmed. -/
inductive EngineStep
  | buffer (message : TransportMessage) (nowMs : Nat)
  | converge (nowMs : Nat)
  | publish (message : TransportMessage) (mlsBytes : Bytes) (priority : CommitOrderingPriority)
      (committer : Bytes)

/-- A step; a step that fails leaves what it had done before it failed. -/
def Engine.step (engine : Engine Group) : EngineStep → Engine Group
  | .buffer message nowMs =>
    match bufferOpenmlsConvergenceMessage mls engine message nowMs with
    | .ok next => next
    | .error _ => engine
  | .converge nowMs => (convergeStoredOpenmlsMessages mls engine nowMs).2
  | .publish message mlsBytes priority committer =>
    ((stageCommit mls engine message mlsBytes priority committer).bind
      (confirmPublished mls)).getD engine

/-- **A run of the engine.** -/
def Engine.run (engine : Engine Group) (steps : List EngineStep) : Engine Group :=
  steps.foldl (Engine.step mls) engine

end Darkmatter
