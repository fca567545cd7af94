/-
**A session of the engine.**

The engine takes messages in, publishes its own and queues what it cannot send yet. Every entry point
is a task over a few *moves*, the places where the state of the group changes:

* `Move`, `Move.perform` — what is written, delivered, merged, rolled back or forgotten;
* `ingestGroupMessage` — the way of an inbound message through peeling, deduplication, convergence
  and direct processing, with recovery from a fork at an epoch the client committed from;
* `replayBufferedMessages`, `retryDeferredPeels` — messages that were put aside are taken in again;
* `SessionStep`, `Engine.session` — sequences of entry points, with a restart of the process as one
  of them.
-/

import Darkmatter.Engine.EpochManager
import Darkmatter.Lib.Program

namespace Darkmatter

open Std Lib
open Lib.Task (act fail look)

/-! ### The outcome of an ingest -/

inductive StaleReason
  | alreadySeen
  | alreadyAtEpoch (current messageEpoch : Nat)
  | notForThisClient
  | unknownGroup
  | ownEcho
  | peelFailed
deriving DecidableEq, Repr

inductive IngestOutcome
  | processed
  | buffered (groupId : String) (epoch : Nat)
  | stale (reason : StaleReason)
deriving DecidableEq, Repr

def IngestOutcome.isBuffered : IngestOutcome → Bool
  | .buffered .. => true
  | _ => false

/-- What the caller is told about a message after a pass. -/
def convergenceIngestOutcome (result : CanonicalizationResult) (messageId groupId : String)
    (epoch : Nat) : IngestOutcome :=
  if messageId ∈ result.acceptedIds ∧ result.convergenceStatus = .settled then
    .processed
  else if messageId ∈ result.alreadySeen.map AlreadySeen.messageId then
    .stale .alreadySeen
  else if messageId ∈ result.droppedMessages.map DroppedMessage.messageId then
    .stale .peelFailed
  else
    match result.invalidatedAppMessages.find? fun invalidated =>
      invalidated.messageId == messageId with
    | some invalidated =>
      match invalidated.reason with
      | .undecryptableInCanonicalState => .buffered groupId epoch
      | .losingBranch | .beyondAnchor | .beyondAppRetention => .stale .peelFailed
    | none => .buffered groupId epoch

/-! ### Peeling -/

inductive PeeledContent
  | mlsMessage (bytes : Bytes)
  | welcome
deriving DecidableEq, Repr

/-- Why OpenMLS does not process a message. -/
inductive ProcessMessageError
  | tooDistantInThePast
  | wrongEpoch
  | useAfterEviction
  | other
deriving DecidableEq, Repr

/-- **What an inbound message meets before and beside replay.** The peeler opens the transport layer
with a secret of the group state. `processMessageError` is the error of OpenMLS, if it is OpenMLS
that refuses a message, `commitOrdering` reads the priority and the sender of a commit that OpenMLS
stages for a sender who may commit, and `createsMessage` says which bytes OpenMLS may make of an
application message of the client. -/
structure Ingress (Group : Type) extends OpenMls Group where
  isActive : Group → Bool
  peelGroupMessage : Group → TransportMessage → Except PeelerError PeeledContent
  processMessageError : Group → Bytes → Option ProcessMessageError
  commitOrdering : Group → Bytes → Option (CommitOrderingPriority × Bytes)
  createsMessage : Group → Bytes → Bool

instance Ingress.coeOpenMls {Group : Type} : Coe (Ingress Group) (OpenMls Group) :=
  ⟨Ingress.toOpenMls⟩

/-! ### Moves -/

/-- A fork that the client recovers from: the commit that wins, and the commit that it replaces. -/
structure PendingRecovery where
  sourceEpoch : Nat
  winner : CommitOrderingKey
  invalidated : CommitOrderingKey
  invalidatedCommitId : String
deriving DecidableEq, Repr

/-- **The places where a session changes the state.** -/
inductive Move (Group : Type)
  | persistTransport (message : TransportMessage) (epoch : Nat) (state : MessageState)
  | settle (message : TransportMessage) (state : MessageState)
  | discard (message : TransportMessage) (group : Group)
  | updateState (id : String) (state : MessageState)
  | buffer (message : TransportMessage) (nowMs : Nat)
  | converge (nowMs : Nat)
  | deliver (message : TransportMessage) (sender : Bytes) (epoch : Nat) (payload : Bytes)
      (group : Group)
  | applyCommit (message : TransportMessage) (priority : CommitOrderingPriority)
      (committer : Bytes) (merged : Group) (recovery : Option PendingRecovery)
  | detectFork (message : TransportMessage)
  | recover (message : TransportMessage) (record : CommitRecoveryRecord)
  | remember (id : String)
  | stage (message : TransportMessage) (mlsBytes : Bytes) (priority : CommitOrderingPriority)
      (committer : Bytes)
  | retain
  | confirm
  | abandon
  | send (message : TransportMessage) (mlsBytes : Bytes)
  | enqueue (queued : QueuedOutboundIntent)
  | dequeue (id : String)
  | restart

section Moves

variable {Group : Type} (mls : OpenMls Group) (engine : Engine Group) (id : String)

/-- The state of a row, in whatever group it is; there must be one. -/
def Engine.updateMessageState (state : MessageState) : Option (Engine Group) :=
  match Darkmatter.updateMessageState engine.storage.live.messages id state with
  | some messages =>
    some { engine with
      storage := { engine.storage with live := { engine.storage.live with messages } } }
  | none =>
    (Darkmatter.updateMessageState engine.otherRows id state).map fun otherRows =>
      { engine with otherRows }

variable (message : TransportMessage)

/-- The row of a message that is processed right away, with the epoch the group is at. -/
def Engine.persistOpenmlsWireMessage : Engine Group :=
  engine.persistStoredMessagePayload message.id (mls.epoch engine.storage.live.mls) .created
    (.openmlsWire message)

/-- A message that was processed right away, with the state it is left in. -/
def Engine.settleMessage (state : MessageState) : Engine Group :=
  let stored := engine.persistOpenmlsWireMessage mls message
  (stored.updateMessageState message.id state).getD stored

/-- The engine on another MLS state of the same epoch. -/
def Engine.withGroup (group : Group) : Engine Group :=
  { engine with
    storage := { engine.storage with live := { engine.storage.live with mls := group } } }

def Engine.deliverMessage (sender : Bytes) (epoch : Nat)
    (payload : Bytes) (group : Group) : Engine Group :=
  { (engine.settleMessage mls message .processed).withGroup group with
    events := engine.events ++ [.messageReceived sender epoch payload]
    seenMessageIds := engine.seenMessageIds.insert message.id }

/-- **A commit is merged right away.** The state before it is kept for the case that it loses to
another commit of its epoch. -/
def Engine.applyStagedCommit (priority : CommitOrderingPriority)
    (committer : Bytes) (merged : Group) (recovery : Option PendingRecovery) : Engine Group :=
  let before := mls.epoch engine.storage.live.mls
  let stored := engine.persistOpenmlsWireMessage mls message
  let snapshotName := SnapshotName.forkRecovery before (engine.snapshotCounter + 1)
  let retained := (stored.storage.createGroupSnapshot snapshotName).retainCurrentGroupEpochSnapshot
    engine.policy.convergence.maxRewindCommits
  let applied : Engine Group :=
    { stored with
      storage :=
        { retained with live := { retained.live with mls := merged, epoch := mls.epoch merged } }
      snapshotCounter := engine.snapshotCounter + 1
      epochState := .stable (mls.epoch merged) }
  let pruned := (applied.recordApplied
    { sourceEpoch := before
      orderingKey := ⟨before, priority, committer, mls.sha256 message.payload⟩
      storageId := message.id
      snapshotName }).pruneForkRecovery
  let settled := (pruned.updateMessageState message.id .processed).getD pruned
  { settled with
    events := engine.events ++
      (recovery.map fun recovery =>
        GroupEvent.forkRecovered recovery.sourceEpoch (mls.epoch merged) recovery.winner
          recovery.invalidated recovery.invalidatedCommitId).toList ++
      [.epochChanged before (mls.epoch merged)]
    seenMessageIds := engine.seenMessageIds.insert message.id }

/-- **A fork is resolved for the candidate.** The group goes back to the state before the commit that
loses, with the rows and the queue it had then. -/
def Engine.resolveForCandidate (record : CommitRecoveryRecord) : Engine Group :=
  let stored := engine.persistOpenmlsWireMessage mls message
  match stored.storage.snapshots record.snapshotName with
  | none => engine
  | some snapshot =>
    let rolledBack : Engine Group :=
      { stored with
        storage :=
          ({ stored.storage with live := snapshot } : GroupStorage Group).releaseGroupSnapshot
            record.snapshotName
        incumbents := engine.incumbents.filter fun other => other.sourceEpoch != record.sourceEpoch
        epochState := .stable record.sourceEpoch }
    (rolledBack.updateMessageState record.storageId .epochInvalidated).getD rolledBack

/-- A publication is given up: the staged commit is dropped and the group is where it was. -/
def Engine.abandonPublish : Engine Group :=
  match engine.pendingCommit with
  | none => engine
  | some pending =>
    { engine with
      storage :=
        ({ engine.storage with
          live :=
            { engine.storage.live with epoch := mls.epoch engine.storage.live.mls } } :
            GroupStorage Group).releaseGroupSnapshot pending.record.snapshotName
      epochState := .stable pending.record.sourceEpoch
      pendingCommit := none }

/-- The process ends and the group is loaded again: what is not in the storage is gone. (OpenMLS clears
a staged commit then, unless it removes a member; in both cases no publication waits for it.) -/
def Engine.hydrated : Engine Group :=
  { engine with
    epochState := .stable engine.storage.live.epoch
    committedFrom := []
    pendingCommit := none
    incumbents := []
    snapshotCounter := 0
    lastConvergenceRelevantInputMs := none
    seenMessageIds := .withCapacity _
    sentMessageIds := .withCapacity _ }

def Engine.withQueue (queue : List QueuedOutboundIntent) : Engine Group :=
  { engine with storage := { engine.storage with live := { engine.storage.live with queue } } }

end Moves

/-- **What a move does.** -/
def Move.perform {Group : Type} (mls : OpenMls Group) (move : Move Group) (engine : Engine Group) :
    Engine Group :=
  match move with
  | .persistTransport message epoch state =>
    engine.persistStoredMessagePayload message.id epoch state (.rawTransport message)
  | .settle message state => engine.settleMessage mls message state
  | .discard message group => (engine.settleMessage mls message .failed).withGroup group
  | .updateState id state => (engine.updateMessageState id state).getD engine
  | .buffer message nowMs =>
    match bufferOpenmlsConvergenceMessage mls engine message nowMs with
    | .ok next => next
    | .error _ => engine
  | .converge nowMs => (convergeStoredOpenmlsMessages mls engine nowMs).2
  | .deliver message sender epoch payload group =>
    engine.deliverMessage mls message sender epoch payload group
  | .applyCommit message priority committer merged recovery =>
    engine.applyStagedCommit mls message priority committer merged recovery
  | .detectFork message =>
    { engine.settleMessage mls message .epochInvalidated with
      epochState := engine.epochState.detectFork }
  | .recover message record => engine.resolveForCandidate mls message record
  | .remember id => { engine with seenMessageIds := engine.seenMessageIds.insert id }
  | .stage message mlsBytes priority committer =>
    (stageCommit mls engine message mlsBytes priority committer).getD engine
  | .retain =>
    { engine with
      storage := engine.storage.retainCurrentGroupEpochSnapshot
        engine.policy.convergence.maxRewindCommits }
  | .confirm => (Darkmatter.confirmPublished mls engine).getD engine
  | .abandon => engine.abandonPublish mls
  | .send message mlsBytes =>
    engine.recordSentOpenmlsMessage mls message mlsBytes (mls.epoch engine.storage.live.mls)
  | .enqueue queued => engine.withQueue (putQueuedOutboundIntent engine.storage.live.queue queued)
  | .dequeue id =>
    engine.withQueue (engine.storage.live.queue.filter fun queued => queued.id != id)
  | .restart => engine.hydrated

/-! ### Tasks -/

abbrev EngineTask (Group Result : Type) : Type :=
  Task (Engine Group) (Move Group) (EngineError String) Result

variable {Group : Type} (net : Ingress Group)

section Lookups

variable (engine : Engine Group) (id : String)

/-- What the row of a message says about a message that comes in again. -/
def Engine.recordedMessageOutcome : Option IngestOutcome :=
  match engine.getMessage id with
  | none => none
  | some record =>
    match record.state with
    | .sent => some (.stale .ownEcho)
    | .created | .retryable => some (.buffered record.groupId record.epoch)
    | .peelDeferred => none
    | .processed | .failed | .epochInvalidated => some (.stale .alreadySeen)

def Engine.shouldRememberIngestedMessage : Bool :=
  match engine.getMessage id with
  | none => true
  | some record =>
    match record.state with
    | .created | .retryable | .peelDeferred => false
    | _ => true

/-- The snapshots of earlier epochs a message may be peeled with, the latest epoch first; the name
of a recovery snapshot comes before the name of an anchor. -/
def Engine.availablePastPeelSnapshots (currentEpoch : Nat) : List SnapshotName :=
  (List.range currentEpoch).reverse.flatMap fun epoch =>
    ((engine.incumbents.filter fun record => record.sourceEpoch == epoch).map
      CommitRecoveryRecord.snapshotName) ++
    (if (engine.storage.anchor epoch).isSome then [.retainedAnchor epoch] else [])

/-- A message peeled with the first snapshot that opens it. -/
def Ingress.tryPeelFromSnapshots (message : TransportMessage) :
    List SnapshotName → Except (EngineError String) (Option PeeledContent)
  | [] => .ok none
  | name :: rest =>
    match engine.storage.snapshots name with
    | none => .error .storage
    | some snapshot =>
      match net.peelGroupMessage snapshot.mls message with
      | .ok content => .ok (some content)
      | .error .decryptFailed | .error (.staleEpoch _ _) => tryPeelFromSnapshots message rest
      | .error e => .error (.peeler e)

/-- A commit waits for convergence unless it comes too late for it, or from an epoch the client
committed from itself. -/
def Engine.commitShouldEnterConvergence (currentEpoch messageEpoch : Nat) : Bool :=
  if currentEpoch ≤ messageEpoch then
    true
  else
    currentEpoch - messageEpoch ≤ engine.policy.convergence.maxRewindCommits &&
      !engine.committedFrom.contains messageEpoch && (engine.storage.anchor messageEpoch).isSome

/-- The commit that counts as merged from an epoch. -/
def Engine.incumbent (epoch : Nat) : Option CommitRecoveryRecord :=
  engine.incumbents.find? fun record => record.sourceEpoch == epoch

end Lookups

/-- How a round of an ingest ends: for good, or with the group rolled back for another round. -/
inductive IngestRound
  | ended (outcome : IngestOutcome)
  | again (recovery : PendingRecovery)

/-- A message that waits for convergence is stored, and a pass runs. -/
def ingestThroughConvergence (message : TransportMessage) (nowMs currentEpoch : Nat) :
    EngineTask Group IngestRound := do
  let engine ← look
  match bufferOpenmlsConvergenceMessage net engine message nowMs with
  | .error _ => fail (.backend "buffer convergence")
  | .ok _ =>
    act (.buffer message nowMs)
    let buffered ← look
    act (.converge nowMs)
    match (convergeStoredOpenmlsMessages net buffered nowMs).1 with
    | .error _ => fail (.backend "converge")
    | .ok result =>
      pure (.ended (convergenceIngestOutcome result message.id engine.groupId currentEpoch))

/-- **A late commit from an epoch the client committed from.** It wins against the commit the group
is on when its key is smaller, and then the group goes back to where the two part. -/
def resolveForkCandidate (message : TransportMessage) (currentEpoch messageEpoch : Nat) :
    EngineTask Group IngestRound := do
  let engine ← look
  match engine.incumbent messageEpoch with
  | none =>
    act (.detectFork message)
    fail (.forkedEpoch engine.groupId messageEpoch currentEpoch)
  | some record =>
    match engine.storage.snapshots record.snapshotName with
    | none =>
      act (.settle message .created)
      fail .storage
    | some snapshot =>
      match net.commitOrdering snapshot.mls message.payload with
      | none =>
        act (.settle message .created)
        fail (.backend "fork probe process_message")
      | some (priority, committer) =>
        let candidateKey : CommitOrderingKey :=
          ⟨messageEpoch, priority, committer, net.sha256 message.payload⟩
        if compare candidateKey record.orderingKey = .lt then
          act (.recover message record)
          pure (.again ⟨messageEpoch, candidateKey, record.orderingKey, record.storageId⟩)
        else
          act (.settle message .epochInvalidated)
          pure (.ended (.stale (.alreadyAtEpoch currentEpoch messageEpoch)))

/-- What becomes of a message that OpenMLS does not process. -/
def settleUnprocessed (rawId : String) (message : TransportMessage) (protocol : ProtocolMessage)
    (currentEpoch : Nat) : ProcessMessageError → EngineTask Group IngestRound
  | .tooDistantInThePast => do
    act (.settle message .failed)
    let engine ← look
    match engine.getMessage rawId with
    | some record =>
      if record.state = .peelDeferred then
        act (.updateState rawId .failed)
        pure (.ended (.stale .peelFailed))
      else
        pure (.ended (.stale .peelFailed))
    | none => pure (.ended (.stale .peelFailed))
  | .wrongEpoch => do
    let engine ← look
    if protocol.contentType = .commit ∧ protocol.epoch ∈ engine.committedFrom ∧
        protocol.epoch < currentEpoch then
      resolveForkCandidate net message currentEpoch protocol.epoch
    else
      act (.settle message .failed)
      pure (.ended (.stale (.alreadyAtEpoch currentEpoch protocol.epoch)))
  | .useAfterEviction => do
    act (.settle message .failed)
    pure (.ended (.stale .peelFailed))
  | .other => do
    act (.settle message .retryable)
    fail (.backend "process_message")

/-- **A message processed right away**, on the current state of the group. -/
def processDirectly (rawId : String) (message : TransportMessage) (protocol : ProtocolMessage)
    (currentEpoch : Nat) (recovery : Option PendingRecovery) : EngineTask Group IngestRound := do
  let engine ← look
  let group := engine.storage.live.mls
  match net.processMessageError group message.payload with
  | some e => settleUnprocessed net rawId message protocol currentEpoch e
  | none =>
    match protocol.contentType with
    | .application =>
      match net.processApplication group message.payload with
      | .processed sender payload next =>
        act (.deliver message sender protocol.epoch payload next)
        pure (.ended .processed)
      | .ignored next =>
        act (.discard message next)
        pure (.ended (.stale .peelFailed))
      | .failed => settleUnprocessed net rawId message protocol currentEpoch .other
    | .commit =>
      match net.processCommit group message.payload with
      | .staged priority committer _ merged =>
        act (.applyCommit message priority committer merged recovery)
        pure (.ended .processed)
      | .unauthorized =>
        act (.settle message .failed)
        fail (.notGroupAdmin engine.groupId)
      | .invalid =>
        act (.settle message .failed)
        fail .invalidStagedCommit
      | .failed => settleUnprocessed net rawId message protocol currentEpoch .other
    | .proposal =>
      match net.processProposal group message.payload with
      | .stored _ _ =>
        act (.settle message .created)
        pure (.ended .processed)
      | .externalJoin _ =>
        act (.settle message .processed)
        pure (.ended .processed)
      | .failed => settleUnprocessed net rawId message protocol currentEpoch .other

/-- A message whose MLS bytes are known: it is looked up under the hash of the bytes, and news is
taken in through convergence or right away. -/
def ingestMlsMessage (message : TransportMessage) (nowMs currentEpoch : Nat)
    (recovery : Option PendingRecovery) (mlsBytes : Bytes) : EngineTask Group IngestRound := do
  let engine ← look
  let contentId := net.contentDedupId mlsBytes
  match engine.recordedMessageOutcome contentId with
  | some outcome => pure (.ended outcome)
  | none =>
    if contentId ∈ engine.seenMessageIds.members then
      pure (.ended (.stale .alreadySeen))
    else if contentId ∈ engine.sentMessageIds.members then
      pure (.ended (.stale .ownEcho))
    else
      let openmlsMessage : TransportMessage := { message with id := contentId, payload := mlsBytes }
      match net.decode mlsBytes with
      | .error _ => fail (.serialize "message deserialize")
      | .ok none =>
        act (.persistTransport openmlsMessage currentEpoch .failed)
        pure (.ended (.stale .peelFailed))
      | .ok (some protocol) =>
        if recovery.isNone ∧ protocol.contentType = .commit ∧
            engine.commitShouldEnterConvergence currentEpoch protocol.epoch then
          ingestThroughConvergence net openmlsMessage nowMs currentEpoch
        else if protocol.contentType = .application ∧ currentEpoch < protocol.epoch then
          ingestThroughConvergence net openmlsMessage nowMs currentEpoch
        else
          processDirectly net message.id openmlsMessage protocol currentEpoch recovery

/-- The content of a transport message, opened by the current state or by an earlier one. -/
def ingestPeeled (message : TransportMessage) (nowMs currentEpoch : Nat)
    (recovery : Option PendingRecovery) : PeeledContent → EngineTask Group IngestRound
  | .welcome => do
    act (.persistTransport message currentEpoch .failed)
    pure (.ended (.stale .peelFailed))
  | .mlsMessage bytes => ingestMlsMessage net message nowMs currentEpoch recovery bytes

/-- A message that the current state does not open is tried with the snapshots, and put aside in the
given state when none opens it. -/
def ingestFromSnapshots (message : TransportMessage) (nowMs currentEpoch : Nat)
    (recovery : Option PendingRecovery) (state : MessageState) : EngineTask Group IngestRound := do
  let engine ← look
  match net.tryPeelFromSnapshots engine message
      (engine.availablePastPeelSnapshots currentEpoch) with
  | .error e => fail e
  | .ok (some content) => ingestPeeled net message nowMs currentEpoch recovery content
  | .ok none =>
    act (.persistTransport message currentEpoch state)
    pure (.ended (.stale .peelFailed))

def ingestRound (message : TransportMessage) (nowMs : Nat) (recovery : Option PendingRecovery) :
    EngineTask Group IngestRound := do
  let engine ← look
  let group := engine.storage.live.mls
  let currentEpoch := net.epoch group
  if !net.isActive group then
    act (.persistTransport message currentEpoch .failed)
    pure (.ended (.stale .peelFailed))
  else if !engine.epochState.canIngest then
    act (.persistTransport message currentEpoch .retryable)
    pure (.ended (.buffered engine.groupId currentEpoch))
  else
    match net.peelGroupMessage group message with
    | .ok content => ingestPeeled net message nowMs currentEpoch recovery content
    | .error .decryptFailed =>
      ingestFromSnapshots net message nowMs currentEpoch recovery .peelDeferred
    | .error (.staleEpoch _ _) =>
      ingestFromSnapshots net message nowMs currentEpoch recovery .failed
    | .error e => fail (.peeler e)

/-- Rounds until one ends for good. -/
def ingestRounds (message : TransportMessage) (nowMs : Nat) :
    Nat → Option PendingRecovery → EngineTask Group IngestOutcome
  | 0, _ => fail (.backend "unreachable")
  | rounds + 1, recovery => do
    match ← ingestRound net message nowMs recovery with
    | .ended outcome => pure outcome
    | .again recovery => ingestRounds message nowMs rounds (some recovery)

/-- **An inbound message of the group.** Every further round follows a fork that was resolved against
one of the incumbents, and there are only so many of them. -/
def ingestGroupMessage (message : TransportMessage) (nowMs : Nat) :
    EngineTask Group IngestOutcome := do
  let engine ← look
  ingestRounds net message nowMs (engine.incumbents.length + 1) none

/-- The group id the envelope of a message names. -/
def TransportMessage.recordGroupId (message : TransportMessage) : String :=
  match message.envelope with
  | .groupMessage transportGroupId => hexEncode transportGroupId
  | .welcome _ => ""

/-- **An inbound message**, looked up under its transport id first. -/
def doIngest (message : TransportMessage) (nowMs : Nat) : EngineTask Group IngestOutcome := do
  let engine ← look
  match engine.recordedMessageOutcome message.id with
  | some outcome => pure outcome
  | none =>
    if message.id ∈ engine.seenMessageIds.members then
      pure (.stale .alreadySeen)
    else if message.id ∈ engine.sentMessageIds.members then
      if message.recordGroupId = engine.groupId then
        act (.persistTransport message 0 .sent)
        pure (.stale .ownEcho)
      else
        pure (.stale .ownEcho)
    else
      let outcome ← ingestGroupMessage net message nowMs
      let after ← look
      if !outcome.isBuffered && after.shouldRememberIngestedMessage message.id then
        act (.remember message.id)
        pure outcome
      else
        pure outcome

/-! ### Messages that were put aside -/

/-- A row is given a state; there must be one. -/
def updateStoredMessageState (id : String) (state : MessageState) : EngineTask Group Unit := do
  let engine ← look
  match engine.updateMessageState id state with
  | none => fail .storage
  | some _ => act (.updateState id state)

/-- A row whose message failed again: invalid when the group forked over it, and else to be tried
once more. -/
def settleFailedReplay {Result : Type} (id : String) : EngineError String → EngineTask Group Result
  | .forkedEpoch groupId lastStable conflictingEpoch => do
    updateStoredMessageState id .epochInvalidated
    fail (.forkedEpoch groupId lastStable conflictingEpoch)
  | e => do
    updateStoredMessageState id .retryable
    fail e

/-- **The rows that were put aside while the group waited for a publication** are taken in again. -/
def replayRows (nowMs : Nat) : List MessageRecord → EngineTask Group Unit
  | [] => pure ()
  | record :: rest => do
    if record.state = .created ∨ record.state = .retryable ∨ record.state = .peelDeferred then
      match record.payload.asRawTransport with
      | none => replayRows nowMs rest
      | some message =>
        match ← (ingestGroupMessage net message nowMs).attempt with
        | .ok (.buffered _ _) =>
          updateStoredMessageState record.id .retryable
          replayRows nowMs rest
        | .ok _ => replayRows nowMs rest
        | .error e => settleFailedReplay record.id e
    else
      replayRows nowMs rest

def replayBufferedMessages (nowMs : Nat) : EngineTask Group Unit := do
  let engine ← look
  replayRows net nowMs engine.storage.live.messages

/-- The rows of messages that could not be peeled are taken in again. -/
def retryRows (nowMs : Nat) : List MessageRecord → Nat → EngineTask Group Nat
  | [], progressed => pure progressed
  | record :: rest, progressed => do
    if record.state = .peelDeferred then
      match record.payload.asRawTransport with
      | none => retryRows nowMs rest progressed
      | some message =>
        match ← (ingestGroupMessage net message nowMs).attempt with
        | .ok (.stale .peelFailed) => retryRows nowMs rest progressed
        | .ok _ =>
          updateStoredMessageState record.id .processed
          retryRows nowMs rest (progressed + 1)
        | .error e => settleFailedReplay record.id e
    else
      retryRows nowMs rest progressed

def retryDeferredPeels (nowMs : Nat) : EngineTask Group Nat := do
  let engine ← look
  match engine.epochState with
  | .stable _ => retryRows net nowMs engine.storage.live.messages 0
  | _ => pure 0

/-- A row that keeps the group from sending: a commit or an application message that is not settled,
or a message that was not looked at yet. -/
def OpenMls.isUnresolvedInput (mls : OpenMls Group) (record : MessageRecord) : Bool :=
  (record.state == .created || record.state == .retryable) &&
    match record.payload with
    | .rawTransport _ => true
    | .openmlsWire message =>
      match mls.projectMlsMessage message.payload with
      | .error _ => true
      | .ok projection => projection.kind == .commit || projection.kind == .application

def Engine.hasUnresolvedConvergenceInputs (mls : OpenMls Group) (engine : Engine Group) : Bool :=
  let anchor := engine.storage.live.epoch - engine.policy.convergence.maxRewindCommits
  (engine.storage.live.messages.filter fun record => anchor ≤ record.epoch).any
    mls.isUnresolvedInput

/-- Passes and retries until nothing is left to do. -/
def advancePasses (nowMs : Nat) : Nat → EngineTask Group Bool
  | 0 => pure false
  | passes + 1 => do
    let engine ← look
    let settled ← (do
      if engine.hasUnresolvedConvergenceInputs net then
        act (.converge nowMs)
        match (convergeStoredOpenmlsMessages net engine nowMs).1 with
        | .error _ => fail (.backend "converge inputs")
        | .ok result =>
          let after ← look
          pure (result.convergenceStatus == .settled && !after.hasUnresolvedConvergenceInputs net)
      else
        pure true)
    if settled then
      let progressed ← retryDeferredPeels net nowMs
      if progressed = 0 then
        let after ← look
        pure (!after.hasUnresolvedConvergenceInputs net)
      else
        advancePasses nowMs passes
    else
      pure false

/-- **The group is brought up to date** before it sends. -/
def advanceConvergenceInputsUntilSettled (nowMs : Nat) : EngineTask Group Bool := do
  let engine ← look
  match engine.epochState with
  | .stable _ => advancePasses net nowMs 16
  | _ => pure false

/-! ### Publishing -/

def EpochState.name : EpochState → String
  | .stable _ => "Stable"
  | .pendingPublish _ => "PendingPublish"
  | .merging _ => "Merging"
  | .recovering _ => "Recovering"
  | .unrecoverable _ => "Unrecoverable"

/-- A commit that OpenMLS made on the current state is staged and sent. -/
def doStageCommit (message : TransportMessage) (mlsBytes : Bytes)
    (priority : CommitOrderingPriority) (committer : Bytes) : EngineTask Group Unit := do
  let engine ← look
  match stageCommit net engine message mlsBytes priority committer with
  | none =>
    fail (.invalidTransition
      ⟨engine.epochState.name, "PendingPublish", "begin_pending requires Stable"⟩)
  | some _ =>
    if (net.mergePendingCommit engine.storage.live.mls mlsBytes).isSome then
      act (.stage message mlsBytes priority committer)
    else
      fail (.backend "commit")

/-- **The publication is confirmed**: the commit is merged, and what was put aside is taken in. -/
def doConfirmPublished (nowMs : Nat) : EngineTask Group Unit := do
  let engine ← look
  match engine.pendingCommit with
  | none => fail .unknownPending
  | some _ =>
    match Darkmatter.confirmPublished net engine with
    | none =>
      act .retain
      fail (.backend "merge_pending")
    | some _ =>
      act .confirm
      replayBufferedMessages net nowMs

/-- **The publication failed**: the commit is dropped, and what was put aside is taken in. -/
def doPublishFailed (nowMs : Nat) : EngineTask Group Unit := do
  let engine ← look
  match engine.pendingCommit with
  | none => fail .unknownPending
  | some _ =>
    act .abandon
    replayBufferedMessages net nowMs

/-- An application message that OpenMLS made on the current state is sent. -/
def doSendAppMessage (message : TransportMessage) (mlsBytes : Bytes) : EngineTask Group Unit := do
  let engine ← look
  match engine.epochState with
  | .stable _ =>
    if net.createsMessage engine.storage.live.mls mlsBytes then
      act (.send message mlsBytes)
    else
      fail (.backend "create_message")
  | _ => fail (.invalidTransition ⟨engine.epochState.name, "send", "send requires Stable"⟩)

/-- An intent that was handed over leaves the queue. -/
def deleteQueuedOutboundIntent (id : String) : EngineTask Group Unit := do
  let engine ← look
  if engine.storage.live.queue.any fun queued => queued.id == id then
    act (.dequeue id)
  else
    fail .storage

/-! ### Sessions -/

/-- **An entry point of the engine**, with what it is called with. -/
inductive SessionStep
  | ingest (message : TransportMessage) (nowMs : Nat)
  | advance (nowMs : Nat)
  | stage (message : TransportMessage) (mlsBytes : Bytes) (priority : CommitOrderingPriority)
      (committer : Bytes)
  | confirmPublished (nowMs : Nat)
  | publishFailed (nowMs : Nat)
  | send (message : TransportMessage) (mlsBytes : Bytes)
  | enqueue (queued : QueuedOutboundIntent)
  | dequeue (id : String)
  | restart

def SessionStep.task : SessionStep → EngineTask Group Unit
  | .ingest message nowMs => do
    let _ ← doIngest net message nowMs
  | .advance nowMs => do
    let _ ← advanceConvergenceInputsUntilSettled net nowMs
  | .stage message mlsBytes priority committer =>
    doStageCommit net message mlsBytes priority committer
  | .confirmPublished nowMs => doConfirmPublished net nowMs
  | .publishFailed nowMs => doPublishFailed net nowMs
  | .send message mlsBytes => doSendAppMessage net message mlsBytes
  | .enqueue queued => act (.enqueue queued)
  | .dequeue id => deleteQueuedOutboundIntent id
  | .restart => act .restart

/-- The engine after a step; a step that fails leaves what it had done before it failed. -/
def Engine.sessionStep (engine : Engine Group) (step : SessionStep) : Engine Group :=
  ((step.task net).program.run (Move.perform net) engine).2

/-- **A session.** -/
def Engine.session (engine : Engine Group) (steps : List SessionStep) : Engine Group :=
  steps.foldl (Engine.sessionStep net) engine

/-- The moves of a session, each with the state it is made in. -/
def Engine.moves (engine : Engine Group) : List SessionStep → List (Engine Group × Move Group)
  | [] => []
  | step :: rest =>
    (step.task net).program.trace (Move.perform net) engine ++
      Engine.moves (engine.sessionStep net step) rest

end Darkmatter
