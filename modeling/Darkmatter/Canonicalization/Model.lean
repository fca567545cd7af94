/-
**The canonicalization contract.**

`canonicalizeInternal` takes the peeled messages a client still has to place, the branches it
already knows and the branches it could replay, and decides one canonical branch:

* `dedupe` — a message id is looked at once;
* `materializeCandidateGraph` — commits extend known branches until nothing more attaches;
* `attachAppWitnesses` — application messages count as witnesses of the branches they decrypt on;
* `selectCanonicalBranch` — the branch is chosen;
* `dispositionOf` — every message is accepted, dropped, invalidated or left undecided;
* `dropLosingMaterializedCandidateCommits` — the commits of the losing branches are dropped;
* `convergenceStatusForResult` — the pass is syncing, resolving, blocked or settled.
-/

import Darkmatter.Convergence

namespace Darkmatter

open Std Lib

/-! ### Data -/

structure CanonicalizationPolicy where
  convergence : ConvergencePolicy
  appMessagePastEpochLimit : Nat
  settlementQuiescenceMs : Nat
deriving DecidableEq, Repr

def CanonicalizationPolicy.default : CanonicalizationPolicy where
  convergence := .default
  appMessagePastEpochLimit := 5
  settlementQuiescenceMs := 1000

def CanonicalizationPolicy.validate (policy : CanonicalizationPolicy) :
    Except ConvergencePolicyError Unit :=
  policy.convergence.validate

structure CanonicalizationState where
  currentTipEpoch : Nat
  retainedAnchorEpoch : Nat
  lastConvergenceRelevantInputMs : Nat
  seenMessageIds : ExtTreeSet String

inductive ConvergenceStatus
  | syncing
  | resolving
  | settled
  | blocked
deriving DecidableEq, Repr

inductive PeeledMessageKind
  | commit (branchId : String) (parentBranchId : Option String) (forkEpoch resultingEpoch : Nat)
      (tipPriority : CommitOrderingPriority) (tipDigest : Bytes)
      (consumedProposalIds : List String)
  | proposal (branchId : String)
  | appMessage (epoch : Nat) (decryptsOnBranches : List String)
      (decryptedPayloadRef : Option String)
deriving DecidableEq, Repr

structure PeeledMessage where
  messageId : String
  sender : Bytes
  sourceEpoch : Nat
  kind : PeeledMessageKind
deriving DecidableEq, Repr

inductive MessageKind
  | commit
  | proposal
  | appMessage
deriving DecidableEq, Repr

variable (message : PeeledMessage)

def PeeledMessage.kindName : MessageKind :=
  match message.kind with
  | .commit .. => .commit
  | .proposal .. => .proposal
  | .appMessage .. => .appMessage

def PeeledMessage.isCommit : Bool := message.kindName == .commit

inductive OutboundIntent
  | sendAppMessage (payload : String)
  | createCommit (change : String)
  | publishProposal (proposal : String)
deriving DecidableEq, Repr

structure CanonicalizationInput where
  state : CanonicalizationState
  pendingMessages : List PeeledMessage
  outboundIntents : List OutboundIntent
  candidateBranches : List BranchCandidate
  policy : CanonicalizationPolicy
  nowMs : Nat

/-- A branch the client replayed, with the commits on its path. -/
structure MaterializedCandidate where
  branch : BranchCandidate
  commitMessageIds : List String
  consumedProposalIds : List String
deriving DecidableEq, Repr

inductive InvalidatedAppMessageReason
  | losingBranch
  | beyondAnchor
  | beyondAppRetention
  | undecryptableInCanonicalState
deriving DecidableEq, Repr

structure InvalidatedAppMessage where
  messageId : String
  epoch : Nat
  reason : InvalidatedAppMessageReason
  decryptedPayloadRef : Option String
deriving DecidableEq, Repr

inductive DroppedMessageReason
  | beyondRollbackHorizon
  | beyondAnchor
  | beyondAppRetention
  | invalidAgainstCandidateState
  | unsupportedPolicy
  | malformed
deriving DecidableEq, Repr

structure DroppedMessage where
  messageId : String
  kind : MessageKind
  reason : DroppedMessageReason
deriving DecidableEq, Repr

structure AlreadySeen where
  messageId : String
  kind : MessageKind
deriving DecidableEq, Repr

inductive CanonicalizationError
  | unsupportedPolicy
  | missingRetainedAnchor
  | candidateStateUnavailable
  | mlsValidationFailed
  | outboundIntentStale
  | storageUnavailable
deriving DecidableEq, Repr

structure CanonicalizationResult where
  previousTip : Nat
  selectedTip : Option Nat
  selectedForkEpoch : Option Nat
  selectedBranchId : Option String
  candidateCount : Nat
  eligibleCount : Nat
  convergenceStatus : ConvergenceStatus
  acceptedCommits : List String
  acceptedProposals : List String
  acceptedAppMessages : List String
  invalidatedAppMessages : List InvalidatedAppMessage
  droppedMessages : List DroppedMessage
  alreadySeen : List AlreadySeen
  queuedOutboundIntents : List OutboundIntent
  publishableOutboundMessages : List OutboundIntent
  errors : List CanonicalizationError
  selectionTrace : Option BranchSelectionTrace
deriving DecidableEq, Repr

/-! ### The orders in which a result lists its parts -/

variable (result : CanonicalizationResult)

instance : Ord MessageKind := ⟨compareOn MessageKind.ctorIdx⟩

instance : Ord InvalidatedAppMessageReason := ⟨compareOn InvalidatedAppMessageReason.ctorIdx⟩

instance : Ord DroppedMessageReason := ⟨compareOn DroppedMessageReason.ctorIdx⟩

instance : Ord CanonicalizationError := ⟨compareOn CanonicalizationError.ctorIdx⟩

instance : Ord AlreadySeen :=
  ⟨compareLex (compareOn AlreadySeen.messageId) (compareOn AlreadySeen.kind)⟩

instance : Ord DroppedMessage :=
  ⟨compareLex (compareOn DroppedMessage.messageId)
    (compareLex (compareOn DroppedMessage.kind) (compareOn DroppedMessage.reason))⟩

instance : Ord InvalidatedAppMessage :=
  ⟨compareLex (compareOn InvalidatedAppMessage.messageId)
    (compareLex (compareOn InvalidatedAppMessage.epoch)
      (compareLex (compareOn InvalidatedAppMessage.reason)
        (compareOn InvalidatedAppMessage.decryptedPayloadRef)))⟩

def OutboundIntent.text : OutboundIntent → String
  | .sendAppMessage payload => payload
  | .createCommit change => change
  | .publishProposal proposal => proposal

instance : Ord OutboundIntent :=
  ⟨compareLex (compareOn OutboundIntent.ctorIdx) (compareOn OutboundIntent.text)⟩

def CanonicalizationResult.sort : CanonicalizationResult :=
  { result with
    acceptedProposals := sortBy compare result.acceptedProposals
    acceptedAppMessages := sortBy compare result.acceptedAppMessages
    invalidatedAppMessages := sortBy compare result.invalidatedAppMessages
    droppedMessages := sortBy compare result.droppedMessages
    alreadySeen := sortBy compare result.alreadySeen
    queuedOutboundIntents := sortBy compare result.queuedOutboundIntents
    publishableOutboundMessages := sortBy compare result.publishableOutboundMessages
    errors := sortBy compare result.errors }

/-! ### Duplicates -/

/-- The messages whose id was not observed before, and the others as already seen. -/
def dedupe (observedIds : ExtTreeSet String) :
    List PeeledMessage → List PeeledMessage × List AlreadySeen
  | [] => ([], [])
  | message :: rest =>
    if message.messageId ∈ observedIds then
      let (uniqueMessages, alreadySeen) := dedupe observedIds rest
      (uniqueMessages, ⟨message.messageId, message.kindName⟩ :: alreadySeen)
    else
      let (uniqueMessages, alreadySeen) := dedupe (observedIds.insert message.messageId) rest
      (message :: uniqueMessages, alreadySeen)

/-! ### The candidate graph -/

structure MaterializedGraph where
  candidates : List BranchCandidate
  commitPathByBranch : ExtTreeMap String (List String)
  branchPathByBranch : ExtTreeMap String (ExtTreeSet String)
  consumedProposalIdsByBranch : ExtTreeMap String (ExtTreeSet String)
  materializedCommitIdsByBranch : ExtTreeMap String (ExtTreeSet String)
  branchIds : ExtTreeSet String

/-- The maps that grow while commits attach to branches. -/
@[ext]
structure GraphBuilder where
  candidates : ExtTreeMap String BranchCandidate := ∅
  commitPathByBranch : ExtTreeMap String (List String) := ∅
  branchPathByBranch : ExtTreeMap String (ExtTreeSet String) := ∅
  consumedProposalIdsByBranch : ExtTreeMap String (ExtTreeSet String) := ∅
  materializedCommitIdsByBranch : ExtTreeMap String (ExtTreeSet String) := ∅
  materializedCommitIds : ExtTreeSet String := ∅

structure ResolvedParent where
  forkEpoch : Nat
  commitPath : List String
  branchPath : ExtTreeSet String
  consumedProposalIds : ExtTreeSet String

namespace GraphBuilder

def insertBranch (builder : GraphBuilder) (branch : BranchCandidate) (commitPath : List String)
    (branchPath consumedProposalIds : ExtTreeSet String) : GraphBuilder :=
  { builder with
    candidates := builder.candidates.insert branch.id branch
    commitPathByBranch := builder.commitPathByBranch.insert branch.id commitPath
    branchPathByBranch := builder.branchPathByBranch.insert branch.id branchPath
    consumedProposalIdsByBranch :=
      builder.consumedProposalIdsByBranch.insert branch.id consumedProposalIds }

/-- A branch that is known without its commits. -/
def insertCandidate (builder : GraphBuilder) (candidate : BranchCandidate) : GraphBuilder :=
  builder.insertBranch candidate [] (ExtTreeSet.ofList [candidate.id]) ∅

/-- A branch that was replayed: it replaces a known branch of the same id. -/
def insertMaterialized (builder : GraphBuilder) (materialized : MaterializedCandidate) :
    GraphBuilder :=
  { builder.insertBranch materialized.branch materialized.commitMessageIds
      (ExtTreeSet.ofList [materialized.branch.id])
      (ExtTreeSet.ofList materialized.consumedProposalIds) with
    materializedCommitIdsByBranch :=
      builder.materializedCommitIdsByBranch.insert materialized.branch.id
        (ExtTreeSet.ofList materialized.commitMessageIds) }

def resolveParent (builder : GraphBuilder) (parentBranchId : Option String) (forkEpoch : Nat) :
    Option ResolvedParent :=
  match parentBranchId with
  | some parentId =>
    match builder.candidates[parentId]? with
    | none => none
    | some parent =>
      some
        { forkEpoch := parent.forkEpoch
          commitPath := builder.commitPathByBranch[parentId]?.getD []
          branchPath := builder.branchPathByBranch[parentId]?.getD ∅
          consumedProposalIds := builder.consumedProposalIdsByBranch[parentId]?.getD ∅ }
  | none => some { forkEpoch, commitPath := [], branchPath := ∅, consumedProposalIds := ∅ }

def sourceEpochMatchesParent (builder : GraphBuilder) (parentBranchId : Option String)
    (sourceEpoch forkEpoch : Nat) : Bool :=
  match parentBranchId with
  | some parentId =>
    match builder.candidates[parentId]? with
    | none => false
    | some parent => parent.tipEpoch == sourceEpoch
  | none => sourceEpoch == forkEpoch

/-- One commit attached to its parent branch, if it can be attached now. -/
def materializeCommit (input : CanonicalizationInput) (builder : GraphBuilder)
    (message : PeeledMessage) : Option GraphBuilder :=
  match message.kind with
  | .commit branchId parentBranchId forkEpoch resultingEpoch tipPriority tipDigest
      consumedProposalIds =>
    if message.messageId ∈ builder.materializedCommitIds
        ∨ branchId ∈ builder.candidates
        ∨ forkEpoch < input.state.retainedAnchorEpoch
        ∨ input.state.currentTipEpoch - forkEpoch > input.policy.convergence.maxRewindCommits
        ∨ resultingEpoch ≤ message.sourceEpoch then
      none
    else
      match builder.resolveParent parentBranchId forkEpoch with
      | none => none
      | some resolvedParent =>
        if builder.sourceEpochMatchesParent parentBranchId message.sourceEpoch forkEpoch then
          let branch : BranchCandidate :=
            { id := branchId
              forkEpoch := resolvedParent.forkEpoch
              tipEpoch := resultingEpoch
              tipPriority
              tipCommitter := message.sender
              tipDigest
              appWitnesses := [] }
          some
            { builder.insertBranch branch (resolvedParent.commitPath ++ [message.messageId])
                (resolvedParent.branchPath.insert branchId)
                (resolvedParent.consumedProposalIds.insertMany consumedProposalIds) with
              materializedCommitIds := builder.materializedCommitIds.insert message.messageId }
        else
          none
  | _ => none

def materializeStep (input : CanonicalizationInput) :
    GraphBuilder × Bool → PeeledMessage → GraphBuilder × Bool
  | (builder, progressed), message =>
    match builder.materializeCommit input message with
    | none => (builder, progressed)
    | some extended => (extended, true)

/-- One pass over the commits, and whether it attached any. -/
def materializeRound (input : CanonicalizationInput) (commitMessages : List PeeledMessage)
    (builder : GraphBuilder) : GraphBuilder × Bool :=
  commitMessages.foldl (materializeStep input) (builder, false)

/-- Passes over the commits until one attaches nothing. -/
def materializeRounds (input : CanonicalizationInput) (commitMessages : List PeeledMessage) :
    Nat → GraphBuilder → GraphBuilder
  | 0, builder => builder
  | rounds + 1, builder =>
    match builder.materializeRound input commitMessages with
    | (extended, true) => materializeRounds input commitMessages rounds extended
    | (extended, false) => extended

end GraphBuilder

/-- The order in which commits try to attach. -/
def compareCommitMessages (a b : PeeledMessage) : Ordering :=
  (compare a.sourceEpoch b.sourceEpoch).then (compare a.messageId b.messageId)

def materializeCandidateGraph (input : CanonicalizationInput)
    (uniqueMessages : List PeeledMessage) (materializedCandidates : List MaterializedCandidate) :
    MaterializedGraph :=
  let known := input.candidateBranches.foldl GraphBuilder.insertCandidate {}
  let replayed := materializedCandidates.foldl GraphBuilder.insertMaterialized known
  let commitMessages :=
    sortBy compareCommitMessages (uniqueMessages.filter PeeledMessage.isCommit)
  let builder := replayed.materializeRounds input commitMessages (commitMessages.length + 1)
  { candidates := builder.candidates.values
    commitPathByBranch := builder.commitPathByBranch
    branchPathByBranch := builder.branchPathByBranch
    consumedProposalIdsByBranch := builder.consumedProposalIdsByBranch
    materializedCommitIdsByBranch := builder.materializedCommitIdsByBranch
    branchIds := ExtTreeSet.ofList builder.candidates.keys }

/-! ### Witnesses -/

def appMessageExpired (referenceTipEpoch : Nat) (policy : CanonicalizationPolicy) (epoch : Nat) :
    Bool :=
  referenceTipEpoch - epoch > policy.appMessagePastEpochLimit

/-- A candidate gains a witness, unless the message is outside the payload window at the
candidate's own tip. -/
def BranchCandidate.gainWitness (policy : CanonicalizationPolicy) (witness : AppWitness)
    (candidate : BranchCandidate) : BranchCandidate :=
  if appMessageExpired candidate.tipEpoch policy witness.epoch then
    candidate
  else
    { candidate with appWitnesses := candidate.appWitnesses ++ [witness] }

/-- The first candidate named `branchId` gains a witness. -/
def attachAppWitness (policy : CanonicalizationPolicy) (witness : AppWitness)
    (candidates : List BranchCandidate) (branchId : String) : List BranchCandidate :=
  match candidates with
  | [] => []
  | candidate :: rest =>
    if candidate.id = branchId then
      candidate.gainWitness policy witness :: rest
    else
      candidate :: attachAppWitness policy witness rest branchId

def attachMessageWitnesses (policy : CanonicalizationPolicy) (candidates : List BranchCandidate)
    (message : PeeledMessage) : List BranchCandidate :=
  match message.kind with
  | .appMessage epoch decryptsOnBranches _ =>
    decryptsOnBranches.foldl (attachAppWitness policy ⟨epoch, message.sender⟩) candidates
  | _ => candidates

def attachAppWitnesses (candidates : List BranchCandidate) (uniqueMessages : List PeeledMessage)
    (policy : CanonicalizationPolicy) : List BranchCandidate :=
  uniqueMessages.foldl (attachMessageWitnesses policy) candidates

/-! ### Dispositions -/

/-- What a pass decides about one message. -/
inductive Disposition
  | acceptCommit
  | acceptProposal
  | acceptAppMessage
  | drop (reason : DroppedMessageReason)
  | invalidate (epoch : Nat) (reason : InvalidatedAppMessageReason)
      (decryptedPayloadRef : Option String)
  | undecided
deriving DecidableEq, Repr

/-- What the dispositions read about the selected branch. -/
structure SelectedBranch where
  branchId : Option String
  commitIds : List String
  branchPath : ExtTreeSet String
  consumedProposalIds : ExtTreeSet String

variable (input : CanonicalizationInput)

section Dispositions

variable (selected : SelectedBranch) (branchIds : ExtTreeSet String) (message : PeeledMessage)

def handleCommit (branchId : String) (forkEpoch : Nat) : Disposition :=
  if forkEpoch < input.state.retainedAnchorEpoch then
    .drop .beyondAnchor
  else if input.state.currentTipEpoch - forkEpoch > input.policy.convergence.maxRewindCommits then
    .drop .beyondRollbackHorizon
  else if message.messageId ∈ selected.commitIds then
    .undecided
  else if some branchId = selected.branchId then
    .acceptCommit
  else if branchId ∈ branchIds ∧ selected.branchId.isSome then
    .drop .invalidAgainstCandidateState
  else
    .undecided

def handleProposal (branchId : String) : Disposition :=
  if message.sourceEpoch < input.state.retainedAnchorEpoch then
    .drop .beyondAnchor
  else if message.messageId ∈ selected.consumedProposalIds then
    .acceptProposal
  else if branchId ∈ branchIds ∧ branchId ∉ selected.branchPath ∧ selected.branchId.isSome then
    .drop .invalidAgainstCandidateState
  else
    .undecided

def handleAppMessage (epoch : Nat) (decryptsOnBranches : List String)
    (decryptedPayloadRef : Option String) : Disposition :=
  if epoch < input.state.retainedAnchorEpoch then
    .invalidate epoch .beyondAnchor decryptedPayloadRef
  else if appMessageExpired input.state.currentTipEpoch input.policy epoch then
    .invalidate epoch .beyondAppRetention decryptedPayloadRef
  else if selected.branchId.any decryptsOnBranches.contains then
    .acceptAppMessage
  else if decryptsOnBranches.isEmpty then
    .invalidate epoch .undecryptableInCanonicalState decryptedPayloadRef
  else
    .invalidate epoch .losingBranch decryptedPayloadRef

def dispositionOf : Disposition :=
  match message.kind with
  | .commit branchId _ forkEpoch _ _ _ _ =>
    handleCommit input selected branchIds message branchId forkEpoch
  | .proposal branchId => handleProposal input selected branchIds message branchId
  | .appMessage epoch decryptsOnBranches decryptedPayloadRef =>
    handleAppMessage input selected epoch decryptsOnBranches decryptedPayloadRef

end Dispositions

namespace CanonicalizationResult

/-- A result gains the disposition of a message. -/
def record (message : PeeledMessage) : Disposition → CanonicalizationResult
  | .acceptCommit =>
    { result with acceptedCommits := result.acceptedCommits ++ [message.messageId] }
  | .acceptProposal =>
    { result with acceptedProposals := result.acceptedProposals ++ [message.messageId] }
  | .acceptAppMessage =>
    { result with acceptedAppMessages := result.acceptedAppMessages ++ [message.messageId] }
  | .drop reason =>
    { result with
      droppedMessages :=
        result.droppedMessages ++ [⟨message.messageId, message.kindName, reason⟩] }
  | .invalidate epoch reason decryptedPayloadRef =>
    { result with
      invalidatedAppMessages :=
        result.invalidatedAppMessages ++ [⟨message.messageId, epoch, reason, decryptedPayloadRef⟩] }
  | .undecided => result

/-- A losing commit is dropped unless it was dropped before. -/
def dropLosingCommit (dropped : List DroppedMessage) (messageId : String) : List DroppedMessage :=
  if dropped.any fun entry => entry.messageId == messageId then
    dropped
  else
    dropped ++ [⟨messageId, .commit, .invalidAgainstCandidateState⟩]

/-- The commits of the branches other than `selectedBranchId`, in branch-id order. -/
def losingCommitIds (materializedCommitIdsByBranch : ExtTreeMap String (ExtTreeSet String))
    (selectedBranchId : String) : List String :=
  (materializedCommitIdsByBranch.toList.filter fun entry => entry.1 != selectedBranchId).flatMap
    fun entry => entry.2.toList

def dropLosingMaterializedCandidateCommits
    (materializedCommitIdsByBranch : ExtTreeMap String (ExtTreeSet String)) :
    CanonicalizationResult :=
  match result.selectedBranchId with
  | none => result
  | some selectedBranchId =>
    { result with
      droppedMessages :=
        (losingCommitIds materializedCommitIdsByBranch selectedBranchId).foldl dropLosingCommit
          result.droppedMessages }

def acceptedIds : List String :=
  result.acceptedCommits ++ result.acceptedProposals ++ result.acceptedAppMessages

/-- The ids that were dropped or invalidated. -/
def rejectedIds : List String :=
  result.droppedMessages.map DroppedMessage.messageId ++
    result.invalidatedAppMessages.map InvalidatedAppMessage.messageId

def resolvedIds : List String :=
  result.acceptedIds ++ result.rejectedIds ++ result.alreadySeen.map AlreadySeen.messageId

end CanonicalizationResult

/-! ### The status of a pass -/

def hasBlockingConvergenceError : Bool :=
  result.errors.contains .missingRetainedAnchor

def convergenceStatusForResult (inputMessages : List PeeledMessage)
    (result : CanonicalizationResult) : ConvergenceStatus :=
  if input.nowMs - input.state.lastConvergenceRelevantInputMs <
      input.policy.settlementQuiescenceMs then
    .syncing
  else if inputMessages.any fun message =>
      message.kindName != .proposal && !result.resolvedIds.contains message.messageId then
    .resolving
  else if hasBlockingConvergenceError result then
    .blocked
  else
    .settled

/-! ### The pass -/

/-- The graph of a pass, with the witnesses attached. -/
def witnessedGraph (uniqueMessages : List PeeledMessage)
    (materializedCandidates : List MaterializedCandidate) : MaterializedGraph :=
  let graph := materializeCandidateGraph input uniqueMessages materializedCandidates
  { graph with candidates := attachAppWitnesses graph.candidates uniqueMessages input.policy }

/-- What a graph says about the branch selected in it. -/
def MaterializedGraph.selectedBranch (graph : MaterializedGraph)
    (selected : Option BranchCandidate) : SelectedBranch :=
  let branchId := selected.map BranchCandidate.id
  { branchId
    commitIds := (branchId.bind fun id => graph.commitPathByBranch[id]?).getD []
    branchPath := (branchId.bind fun id => graph.branchPathByBranch[id]?).getD ∅
    consumedProposalIds :=
      (branchId.bind fun id => graph.consumedProposalIdsByBranch[id]?).getD ∅ }

/-- The result before any message has a disposition. -/
def selectionResult (graph : MaterializedGraph) (alreadySeen : List AlreadySeen)
    (selected : Option BranchCandidate) :
    CanonicalizationResult where
  previousTip := input.state.currentTipEpoch
  selectedTip := selected.map BranchCandidate.tipEpoch
  selectedForkEpoch := selected.map BranchCandidate.forkEpoch
  selectedBranchId := selected.map BranchCandidate.id
  candidateCount := graph.candidates.length
  eligibleCount :=
    (graph.candidates.filter fun candidate =>
      isBranchEligible input.state.currentTipEpoch candidate input.policy.convergence).length
  convergenceStatus := .syncing
  acceptedCommits := (graph.selectedBranch selected).commitIds
  acceptedProposals := []
  acceptedAppMessages := []
  invalidatedAppMessages := []
  droppedMessages := []
  alreadySeen
  queuedOutboundIntents := []
  publishableOutboundMessages := []
  errors := if selected.isNone then [.candidateStateUnavailable] else []
  selectionTrace :=
    some (selectCanonicalBranchTraced input.state.currentTipEpoch graph.candidates
      input.policy.convergence)

/-- The result with its status, the outbound intents released only when it is settled. -/
def CanonicalizationResult.settle : CanonicalizationResult :=
  let convergenceStatus := convergenceStatusForResult input input.pendingMessages result
  if convergenceStatus = .settled then
    { result with convergenceStatus, publishableOutboundMessages := input.outboundIntents }
  else
    { result with convergenceStatus, queuedOutboundIntents := input.outboundIntents }

/-- **A canonicalization pass.** -/
def canonicalizeInternal (materializedCandidates : List MaterializedCandidate) :
    CanonicalizationResult :=
  let (uniqueMessages, alreadySeen) := dedupe input.state.seenMessageIds input.pendingMessages
  let graph := witnessedGraph input uniqueMessages materializedCandidates
  let selected :=
    selectCanonicalBranch input.state.currentTipEpoch graph.candidates input.policy.convergence
  let disposed :=
    uniqueMessages.foldl
      (fun result message =>
        result.record message
          (dispositionOf input (graph.selectedBranch selected) graph.branchIds message))
      (selectionResult input graph alreadySeen selected)
  ((disposed.dropLosingMaterializedCandidateCommits
    graph.materializedCommitIdsByBranch).settle input).sort

def canonicalize : CanonicalizationResult :=
  canonicalizeInternal input []

def canonicalizeWithMaterializedCandidates (materializedCandidates : List MaterializedCandidate) :
    CanonicalizationResult :=
  canonicalizeInternal input materializedCandidates

end Darkmatter
