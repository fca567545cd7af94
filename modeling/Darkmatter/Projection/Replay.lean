/-
**Replaying stored MLS messages.**

OpenMLS is a parameter: `OpenMls Group` says what it returns for a message on a group state. Over it,

* `processOpenmlsMessagesInner` — messages are processed one after another, and every one leaves an
  observation;
* `materializeOpenmlsCandidatePath` — the replay of a candidate path is summed up as a candidate
  branch;
* `canonicalizeOpenmlsBatchWithMaterialized` — the candidates and the pending messages become the
  input of a canonicalization pass.

The code replays inside a snapshot and rolls it back, so a replay is a function of the group state.
A message id is carried as its hexadecimal text.
-/

import Darkmatter.Canonicalization.Model

namespace Darkmatter

open Std Lib

/-! ### Stored messages -/

inductive MessageState
  | sent
  | created
  | processed
  | failed
  | retryable
  | peelDeferred
  | epochInvalidated
deriving DecidableEq, Repr

inductive TransportEnvelope
  | groupMessage (transportGroupId : Bytes)
  | welcome (recipient : Bytes)
deriving DecidableEq, Repr

def TransportEnvelope.isWelcome : TransportEnvelope → Bool
  | .welcome _ => true
  | .groupMessage _ => false

structure TransportMessage where
  id : String
  payload : Bytes
  source : Bytes
  envelope : TransportEnvelope
deriving DecidableEq, Repr

inductive StoredMessagePayload
  | rawTransport (message : TransportMessage)
  | openmlsWire (message : TransportMessage)
deriving DecidableEq, Repr

def StoredMessagePayload.asOpenmlsWire : StoredMessagePayload → Option TransportMessage
  | .rawTransport _ => none
  | .openmlsWire message => some message

def StoredMessagePayload.asRawTransport : StoredMessagePayload → Option TransportMessage
  | .rawTransport message => some message
  | .openmlsWire _ => none

structure MessageRecord where
  id : String
  groupId : String
  epoch : Nat
  state : MessageState
  payload : StoredMessagePayload
deriving DecidableEq, Repr

/-! ### OpenMLS -/

inductive OpenMlsContentKind
  | application
  | proposal
  | commit
  | welcome
  | other
deriving DecidableEq, Repr

inductive OpenMlsProjectionError
  | decode
  | emptyCandidatePath (branchId : String)
  | candidatePathDidNotCommit (branchId : String)
  | unsupportedMessageKind (kind : OpenMlsContentKind)
  | missingGroup
  | snapshot
  | replay
  | unauthorizedCommit (messageId : String)
  | invalidCommit (messageId : String)
  | serialize
  | storage
  | invalidPolicy
  | replayBudgetExceeded
deriving DecidableEq, Repr

inductive ContentType
  | application
  | proposal
  | commit
deriving DecidableEq, Repr

structure ProtocolMessage where
  contentType : ContentType
  epoch : Nat
deriving DecidableEq, Repr

/-- What comes of a commit on a group state: it is staged and merged, or it is refused by
OpenMLS, by the admin check, or by the checks on leaves and account proofs. -/
inductive CommitOutcome (Group : Type)
  | staged (priority : CommitOrderingPriority) (committer : Bytes)
      (consumedProposalRefs : List String) (merged : Group)
  | unauthorized
  | invalid
  | failed

/-- What comes of a proposal on a group state. -/
inductive ProposalOutcome (Group : Type)
  | stored (proposalRef : String) (group : Group)
  | externalJoin (group : Group)
  | failed

/-- What comes of an application message on a group state: it decrypts to a payload the sender may
send, it does not, or processing breaks down. -/
inductive ApplicationOutcome (Group : Type)
  | processed (sender payload : Bytes) (group : Group)
  | ignored (group : Group)
  | failed

/-- **The operations of OpenMLS and of SHA-256** that replay rests on. `pathHash` is the first half
of the SHA-256 digest of a list of message digests under the path domain tag, and
`mergePendingCommit` merges the commit the client staged itself and sent out as the given bytes. -/
structure OpenMls (Group : Type) where
  sha256 : Bytes → Bytes
  pathHash : List Bytes → Bytes
  decode : Bytes → Except OpenMlsProjectionError (Option ProtocolMessage)
  epoch : Group → Nat
  processCommit : Group → Bytes → CommitOutcome Group
  processProposal : Group → Bytes → ProposalOutcome Group
  processApplication : Group → Bytes → ApplicationOutcome Group
  mergePendingCommit : Group → Bytes → Option Group

structure OpenMlsMessageProjection where
  kind : OpenMlsContentKind
  sourceEpoch : Option Nat
  messageDigest : Bytes
deriving DecidableEq, Repr

def kindFromContentType : ContentType → OpenMlsContentKind
  | .application => .application
  | .proposal => .proposal
  | .commit => .commit

inductive OpenMlsReplayObservation
  | proposalStored (messageId : String) (sourceEpoch : Nat) (proposalRef : String)
  | commitStaged (messageId : String) (sourceEpoch resultingEpoch : Nat)
      (priority : CommitOrderingPriority) (committer : Bytes)
      (consumedProposalRefs : List String)
  | applicationProcessed (messageId : String) (sourceEpoch : Nat) (sender payload : Bytes)
      (decryptedPayloadRef : String)
  | ignored (messageId : String) (kind : OpenMlsContentKind)
deriving DecidableEq, Repr

/-- What a replay leaves: its observations and the group state it reached. -/
structure OpenMlsReplayOutput (Group : Type) where
  observations : List OpenMlsReplayObservation
  group : Group

variable {Group : Type} (mls : OpenMls Group)

namespace OpenMls

def projectMlsMessage (bytes : Bytes) : Except OpenMlsProjectionError OpenMlsMessageProjection :=
  match mls.decode bytes with
  | .error e => .error e
  | .ok none => .ok { kind := .welcome, sourceEpoch := none, messageDigest := mls.sha256 bytes }
  | .ok (some protocol) =>
    .ok
      { kind := kindFromContentType protocol.contentType
        sourceEpoch := some protocol.epoch
        messageDigest := mls.sha256 bytes }

def processOpenmlsMessage (group : Group) (message : TransportMessage) :
    Except OpenMlsProjectionError (OpenMlsReplayObservation × Group) :=
  match mls.decode message.payload with
  | .error e => .error e
  | .ok none => .ok (.ignored message.id .welcome, group)
  | .ok (some ⟨.commit, sourceEpoch⟩) =>
    match mls.processCommit group message.payload with
    | .staged priority committer consumedProposalRefs merged =>
      .ok (.commitStaged message.id sourceEpoch (mls.epoch group + 1) priority committer
        (sortBy compare consumedProposalRefs), merged)
    | .unauthorized => .error (.unauthorizedCommit message.id)
    | .invalid => .error (.invalidCommit message.id)
    | .failed => .error .replay
  | .ok (some ⟨.proposal, sourceEpoch⟩) =>
    match mls.processProposal group message.payload with
    | .stored proposalRef group => .ok (.proposalStored message.id sourceEpoch proposalRef, group)
    | .externalJoin group => .ok (.ignored message.id .proposal, group)
    | .failed => .error .replay
  | .ok (some ⟨.application, sourceEpoch⟩) =>
    match mls.processApplication group message.payload with
    | .processed sender payload group =>
      .ok (.applicationProcessed message.id sourceEpoch sender payload
        ("sha256:" ++ hexEncode (mls.sha256 payload)), group)
    | .ignored group => .ok (.ignored message.id .application, group)
    | .failed => .error .replay

section Processed

variable (group : Group) (message : TransportMessage)

/-- **What a processed message leaves**, by its kind and by what OpenMLS makes of it. -/
inductive Processed : OpenMlsReplayObservation → Group → Prop
  | welcome (decoded : mls.decode message.payload = .ok none) :
      Processed (.ignored message.id .welcome) group
  | commit {epoch priority committer refs merged}
      (decoded : mls.decode message.payload = .ok (some ⟨.commit, epoch⟩))
      (staged : mls.processCommit group message.payload = .staged priority committer refs merged) :
      Processed (.commitStaged message.id epoch (mls.epoch group + 1) priority committer
        (sortBy compare refs)) merged
  | proposal {epoch proposalRef next}
      (decoded : mls.decode message.payload = .ok (some ⟨.proposal, epoch⟩))
      (stored : mls.processProposal group message.payload = .stored proposalRef next) :
      Processed (.proposalStored message.id epoch proposalRef) next
  | externalJoin {epoch next}
      (decoded : mls.decode message.payload = .ok (some ⟨.proposal, epoch⟩))
      (joined : mls.processProposal group message.payload = .externalJoin next) :
      Processed (.ignored message.id .proposal) next
  | application {epoch sender payload next}
      (decoded : mls.decode message.payload = .ok (some ⟨.application, epoch⟩))
      (decrypted : mls.processApplication group message.payload = .processed sender payload next) :
      Processed (.applicationProcessed message.id epoch sender payload
        ("sha256:" ++ hexEncode (mls.sha256 payload))) next
  | undecrypted {epoch next}
      (decoded : mls.decode message.payload = .ok (some ⟨.application, epoch⟩))
      (ignored : mls.processApplication group message.payload = .ignored next) :
      Processed (.ignored message.id .application) next

variable {mls group message}

theorem Processed.of_ok {observation : OpenMlsReplayObservation} {next : Group}
    (processed : mls.processOpenmlsMessage group message = .ok (observation, next)) :
    mls.Processed group message observation next := by
  rw [processOpenmlsMessage] at processed
  cases decoded : mls.decode message.payload with
  | error => simp only [decoded] at processed; cases processed
  | ok protocol =>
    rcases protocol with _ | ⟨contentType, _⟩
    · simp only [decoded] at processed
      cases processed
      exact .welcome decoded
    · cases contentType with
      | commit =>
        cases outcome : mls.processCommit group message.payload <;>
          simp only [decoded, outcome] at processed <;> cases processed
        exact .commit decoded outcome
      | proposal =>
        cases outcome : mls.processProposal group message.payload <;>
          simp only [decoded, outcome] at processed <;> cases processed
        · exact .proposal decoded outcome
        · exact .externalJoin decoded outcome
      | application =>
        cases outcome : mls.processApplication group message.payload <;>
          simp only [decoded, outcome] at processed <;> cases processed
        · exact .application decoded outcome
        · exact .undecrypted decoded outcome

end Processed

/-- **Messages processed one after another.** The first error ends the replay. -/
def processOpenmlsMessagesInner (group : Group) :
    List TransportMessage → Except OpenMlsProjectionError (OpenMlsReplayOutput Group)
  | [] => .ok { observations := [], group }
  | message :: rest =>
    match mls.processOpenmlsMessage group message with
    | .error e => .error e
    | .ok (observation, next) =>
      match processOpenmlsMessagesInner next rest with
      | .error e => .error e
      | .ok output => .ok { output with observations := observation :: output.observations }

variable {mls} {group : Group} {output : OpenMlsReplayOutput Group} {rest : List TransportMessage}

theorem processOpenmlsMessagesInner_cons_ok {message : TransportMessage} :
    mls.processOpenmlsMessagesInner group (message :: rest) = .ok output ↔
      ∃ observation next later, mls.processOpenmlsMessage group message = .ok (observation, next) ∧
        mls.processOpenmlsMessagesInner next rest = .ok later ∧
        output = ⟨observation :: later.observations, later.group⟩ := by
  rw [processOpenmlsMessagesInner]
  constructor
  · intro replayed
    cases first : mls.processOpenmlsMessage group message with
    | error => simp only [first] at replayed; cases replayed
    | ok step =>
      simp only [first] at replayed
      cases later : mls.processOpenmlsMessagesInner step.2 rest with
      | error => simp only [later] at replayed; cases replayed
      | ok output' =>
        simp only [later] at replayed
        cases replayed
        exact ⟨step.1, step.2, output', rfl, later, rfl⟩
  · rintro ⟨_, _, _, first, rest, rfl⟩
    simp only [first, rest]

theorem processOpenmlsMessagesInner_cons_error {message : TransportMessage}
    {e : OpenMlsProjectionError} :
    mls.processOpenmlsMessagesInner group (message :: rest) = .error e ↔
      mls.processOpenmlsMessage group message = .error e ∨
        ∃ observation next, mls.processOpenmlsMessage group message = .ok (observation, next) ∧
          mls.processOpenmlsMessagesInner next rest = .error e := by
  rw [processOpenmlsMessagesInner]
  constructor
  · intro replayed
    cases first : mls.processOpenmlsMessage group message with
    | error => simp only [first] at replayed; cases replayed; exact Or.inl rfl
    | ok step =>
      simp only [first] at replayed
      cases later : mls.processOpenmlsMessagesInner step.2 rest with
      | error =>
        simp only [later] at replayed
        cases replayed
        exact Or.inr ⟨step.1, step.2, rfl, later⟩
      | ok => simp only [later] at replayed; cases replayed
  · rintro (first | ⟨_, _, first, rest⟩)
    · simp only [first]
    · simp only [first, rest]

theorem processOpenmlsMessagesInner_append_ok {first second : List TransportMessage} :
    mls.processOpenmlsMessagesInner group (first ++ second) = .ok output ↔
      ∃ before after, mls.processOpenmlsMessagesInner group first = .ok before ∧
        mls.processOpenmlsMessagesInner before.group second = .ok after ∧
        output = ⟨before.observations ++ after.observations, after.group⟩ := by
  induction first generalizing group output with
  | nil =>
    constructor
    · exact fun replayed => ⟨⟨[], group⟩, output, rfl, replayed, rfl⟩
    · rintro ⟨before, after, start, replayed, rfl⟩
      cases start
      exact replayed
  | cons message rest ih =>
    rw [List.cons_append, processOpenmlsMessagesInner_cons_ok]
    constructor
    · rintro ⟨observation, next, later, here, replayed, rfl⟩
      obtain ⟨before, after, front, back, rfl⟩ := ih.mp replayed
      refine ⟨⟨observation :: before.observations, before.group⟩, after, ?_, back, rfl⟩
      exact processOpenmlsMessagesInner_cons_ok.mpr ⟨observation, next, before, here, front, rfl⟩
    · rintro ⟨_, after, front, back, rfl⟩
      obtain ⟨observation, next, later, here, replayed, rfl⟩ :=
        processOpenmlsMessagesInner_cons_ok.mp front
      refine ⟨observation, next, ⟨later.observations ++ after.observations, after.group⟩, here, ?_,
        rfl⟩
      exact ih.mpr ⟨later, after, replayed, back, rfl⟩

end OpenMls

/-! ### Candidate paths -/

structure OpenMlsCandidatePath where
  branchId : String
  messages : List TransportMessage
deriving DecidableEq, Repr

structure OpenMlsMaterializedCandidate where
  branchId : String
  forkEpoch : Nat
  tipEpoch : Nat
  tipPriority : CommitOrderingPriority
  tipCommitter : Bytes
  tipDigest : Bytes
  commitMessageIds : List String
  consumedProposalRefs : List String
  observations : List OpenMlsReplayObservation
deriving DecidableEq, Repr

/-- What the commits observed so far say about a path. -/
structure PathCommits where
  forkEpoch : Nat
  tipEpoch : Nat
  tipPriority : CommitOrderingPriority
  tipCommitter : Bytes
  tipDigest : Bytes
  commitMessageIds : List String
  consumedProposalRefs : List String
deriving DecidableEq, Repr

namespace OpenMls

/-- One more observation of the replay of a path. -/
def observePathCommit (messages : List TransportMessage) (commits : Option PathCommits) :
    OpenMlsReplayObservation → Option PathCommits
  | .commitStaged messageId sourceEpoch resultingEpoch priority committer consumedProposalRefs =>
    some
      { forkEpoch := (commits.map fun seen => min seen.forkEpoch sourceEpoch).getD sourceEpoch
        tipEpoch := resultingEpoch
        tipPriority := priority
        tipCommitter := committer
        tipDigest :=
          ((messages.find? fun message => message.id == messageId).map fun message =>
            mls.sha256 message.payload).getD []
        commitMessageIds := (commits.map PathCommits.commitMessageIds).getD [] ++ [messageId]
        consumedProposalRefs :=
          (commits.map PathCommits.consumedProposalRefs).getD [] ++ consumedProposalRefs }
  | _ => commits

/-- **The replay of a path, summed up as a candidate.** -/
def materializeOpenmlsCandidatePath (group : Group) (path : OpenMlsCandidatePath) :
    Except OpenMlsProjectionError OpenMlsMaterializedCandidate :=
  match mls.processOpenmlsMessagesInner group path.messages with
  | .error e => .error e
  | .ok output =>
    match output.observations.foldl (mls.observePathCommit path.messages) none with
    | none => .error (.candidatePathDidNotCommit path.branchId)
    | some commits =>
      .ok
        { branchId := path.branchId
          forkEpoch := commits.forkEpoch
          tipEpoch := commits.tipEpoch
          tipPriority := commits.tipPriority
          tipCommitter := commits.tipCommitter
          tipDigest := commits.tipDigest
          commitMessageIds := commits.commitMessageIds
          consumedProposalRefs := (sortBy compare commits.consumedProposalRefs).eraseReps
          observations := output.observations }

end OpenMls

/-- Unsigned 64-bit multiplication that stops at the largest value. -/
def saturatingMul (a b : Nat) : Nat := min (a * b) (2 ^ 64 - 1)

/-- The replays a pass may still perform. -/
structure ReplayBudget where
  remaining : Nat
deriving DecidableEq, Repr

namespace ReplayBudget

def unlimited : ReplayBudget := ⟨2 ^ 64 - 1⟩

def forPass (commitCount maxRewindCommits : Nat) : ReplayBudget :=
  ⟨saturatingAdd (saturatingMul (saturatingMul commitCount (saturatingAdd maxRewindCommits 1)) 4)
    32⟩

def consume (budget : ReplayBudget) : Option ReplayBudget :=
  if budget.remaining = 0 then none else some ⟨budget.remaining - 1⟩

end ReplayBudget

namespace OpenMls

/-- Paths replayed in turn, each at the price of one replay; the price of a replay that fails is
paid all the same. -/
def materializePaths (group : Group) :
    List OpenMlsCandidatePath → ReplayBudget →
      Except OpenMlsProjectionError (List OpenMlsMaterializedCandidate) × ReplayBudget
  | [], budget => (.ok [], budget)
  | path :: rest, budget =>
    if path.messages = [] then
      (.error (.emptyCandidatePath path.branchId), budget)
    else
      match budget.consume with
      | none => (.error .replayBudgetExceeded, budget)
      | some budget =>
        match mls.materializeOpenmlsCandidatePath group path with
        | .error e => (.error e, budget)
        | .ok candidate =>
          match materializePaths group rest budget with
          | (.error e, budget) => (.error e, budget)
          | (.ok candidates, budget) => (.ok (candidate :: candidates), budget)

def materializeOpenmlsCandidatePathsBudgeted (group : Group) (paths : List OpenMlsCandidatePath)
    (budget : ReplayBudget) :
    Except OpenMlsProjectionError (List OpenMlsMaterializedCandidate) × ReplayBudget :=
  match mls.materializePaths group paths budget with
  | (.error e, budget) => (.error e, budget)
  | (.ok candidates, budget) =>
    (.ok (sortBy (compareOn OpenMlsMaterializedCandidate.branchId) candidates), budget)

end OpenMls

/-! ### Pending messages -/

/-- The messages whose id was not met before. -/
def keepFirstById (seen : List String) : List TransportMessage → List TransportMessage
  | [] => []
  | message :: rest =>
    if message.id ∈ seen then
      keepFirstById seen rest
    else
      message :: keepFirstById (message.id :: seen) rest

namespace OpenMls

def messagesOfKind (kind : OpenMlsContentKind) :
    List TransportMessage → Except OpenMlsProjectionError (List TransportMessage)
  | [] => .ok []
  | message :: rest =>
    match mls.projectMlsMessage message.payload with
    | .error e => .error e
    | .ok projection =>
      match messagesOfKind kind rest with
      | .error e => .error e
      | .ok messages => .ok (if projection.kind = kind then message :: messages else messages)

def pendingProposalMessages (pendingMessages : List TransportMessage) :
    Except OpenMlsProjectionError (List TransportMessage) :=
  mls.messagesOfKind .proposal pendingMessages

def pendingMessagesContainApplication : List TransportMessage → Except OpenMlsProjectionError Bool
  | [] => .ok false
  | message :: rest =>
    match mls.projectMlsMessage message.payload with
    | .error e => .error e
    | .ok projection =>
      if projection.kind = .application then .ok true else pendingMessagesContainApplication rest

/-- Every path is replayed after the pending proposals and before the pending application
messages. -/
def candidatePathsWithPendingReplayMessages (candidatePaths : List OpenMlsCandidatePath)
    (pendingMessages : List TransportMessage) :
    Except OpenMlsProjectionError (List OpenMlsCandidatePath) :=
  match mls.messagesOfKind .proposal pendingMessages with
  | .error e => .error e
  | .ok proposals =>
    match mls.messagesOfKind .application pendingMessages with
    | .error e => .error e
    | .ok applications =>
      .ok (candidatePaths.map fun path =>
        { path with messages := keepFirstById [] (proposals ++ path.messages ++ applications) })

end OpenMls

/-! ### The input of a pass -/

def OpenMlsMaterializedCandidate.branchCandidate (candidate : OpenMlsMaterializedCandidate) :
    BranchCandidate where
  id := candidate.branchId
  forkEpoch := candidate.forkEpoch
  tipEpoch := candidate.tipEpoch
  tipPriority := candidate.tipPriority
  tipCommitter := candidate.tipCommitter
  tipDigest := candidate.tipDigest
  appWitnesses := []

def OpenMlsMaterializedCandidate.canonicalMaterializedCandidateWithProposalIds
    (proposalIdByRef : ExtTreeMap String String) (candidate : OpenMlsMaterializedCandidate) :
    MaterializedCandidate where
  branch := candidate.branchCandidate
  commitMessageIds := candidate.commitMessageIds
  consumedProposalIds :=
    candidate.consumedProposalRefs.map fun proposalRef =>
      proposalIdByRef[proposalRef]?.getD proposalRef

/-- The message that carried each observed proposal. -/
def proposalIdByRef (candidates : List OpenMlsMaterializedCandidate) : ExtTreeMap String String :=
  (candidates.flatMap OpenMlsMaterializedCandidate.observations).foldl
    (fun byRef observation =>
      match observation with
      | .proposalStored messageId _ proposalRef => byRef.insert proposalRef messageId
      | _ => byRef)
    ∅

/-- The first branch that consumes each proposal. -/
def proposalBranchById (candidates : List MaterializedCandidate) : ExtTreeMap String String :=
  candidates.foldl
    (fun byId candidate =>
      candidate.consumedProposalIds.foldl
        (fun byId proposalId => byId.insertIfNew proposalId candidate.branch.id) byId)
    ∅

structure AppMessageBranches where
  sourceEpoch : Nat
  sender : Bytes
  branchIds : ExtTreeSet String
  decryptedPayloadRef : String

/-- The branches each application message decrypts on. -/
def appMessagesById (candidates : List OpenMlsMaterializedCandidate) :
    ExtTreeMap String AppMessageBranches :=
  candidates.foldl
    (fun byId candidate =>
      candidate.observations.foldl
        (fun byId observation =>
          match observation with
          | .applicationProcessed messageId sourceEpoch sender _ decryptedPayloadRef =>
            byId.alter messageId fun known =>
              let entry := known.getD
                { sourceEpoch, sender, branchIds := ∅, decryptedPayloadRef }
              some { entry with branchIds := entry.branchIds.insert candidate.branchId }
          | _ => byId)
        byId)
    ∅

namespace OpenMls

/-- A pending message as a canonicalization pass sees it. -/
def projectPendingMessage (proposalBranchById : ExtTreeMap String String)
    (appMessagesById : ExtTreeMap String AppMessageBranches) (message : TransportMessage) :
    Except OpenMlsProjectionError (Option PeeledMessage) :=
  match mls.projectMlsMessage message.payload with
  | .error e => .error e
  | .ok projection =>
    match projection.sourceEpoch with
    | none => .ok none
    | some sourceEpoch =>
      let observed := appMessagesById[message.id]?
      let sender := (observed.map AppMessageBranches.sender).getD message.source
      match projection.kind with
      | .proposal =>
        .ok (some
          { messageId := message.id
            sender
            sourceEpoch
            kind := .proposal (proposalBranchById[message.id]?.getD
              ("pending-proposal:" ++ toString sourceEpoch ++ ":" ++ message.id)) })
      | .application =>
        .ok (some
          { messageId := message.id
            sender
            sourceEpoch
            kind := .appMessage ((observed.map AppMessageBranches.sourceEpoch).getD sourceEpoch)
              ((observed.map fun branches => branches.branchIds.toList).getD [])
              (observed.map AppMessageBranches.decryptedPayloadRef) })
      | _ => .ok none

def projectPendingCanonicalizationMessages (proposalBranchById : ExtTreeMap String String)
    (appMessagesById : ExtTreeMap String AppMessageBranches) :
    List TransportMessage → Except OpenMlsProjectionError (List PeeledMessage)
  | [] => .ok []
  | message :: rest =>
    match mls.projectPendingMessage proposalBranchById appMessagesById message with
    | .error e => .error e
    | .ok pending =>
      match projectPendingCanonicalizationMessages proposalBranchById appMessagesById rest with
      | .error e => .error e
      | .ok messages => .ok (pending.toList ++ messages)

end OpenMls

structure OpenMlsCanonicalizationBatch where
  state : CanonicalizationState
  candidatePaths : List OpenMlsCandidatePath
  pendingMessages : List TransportMessage
  outboundIntents : List OutboundIntent
  policy : CanonicalizationPolicy
  nowMs : Nat

namespace OpenMls

def canonicalizeOpenmlsBatchWithMaterialized (batch : OpenMlsCanonicalizationBatch)
    (materialized : List OpenMlsMaterializedCandidate) :
    Except OpenMlsProjectionError CanonicalizationResult :=
  let candidates := materialized.map
    (OpenMlsMaterializedCandidate.canonicalMaterializedCandidateWithProposalIds
      (proposalIdByRef materialized))
  match mls.projectPendingCanonicalizationMessages (proposalBranchById candidates)
      (appMessagesById materialized) batch.pendingMessages with
  | .error e => .error e
  | .ok pendingMessages =>
    .ok (canonicalizeWithMaterializedCandidates
      { state := batch.state
        pendingMessages
        outboundIntents := batch.outboundIntents
        candidateBranches := []
        policy := batch.policy
        nowMs := batch.nowMs }
      candidates)

def canonicalizeOpenmlsBatch (group : Group) (batch : OpenMlsCanonicalizationBatch) :
    Except OpenMlsProjectionError CanonicalizationResult :=
  match mls.candidatePathsWithPendingReplayMessages batch.candidatePaths batch.pendingMessages with
  | .error e => .error e
  | .ok candidatePaths =>
    match (mls.materializeOpenmlsCandidatePathsBudgeted group candidatePaths .unlimited).1 with
    | .error e => .error e
    | .ok materialized => mls.canonicalizeOpenmlsBatchWithMaterialized batch materialized

end OpenMls

end Darkmatter
