/-
**What replay may assume of OpenMLS.**

* `EpochLaws` — a merged commit advances the epoch by one, and no other message moves it.
* `commit_replayed_iff` — a commit at the end of a list of messages replays exactly when the messages
  before it replay and it applies on the state they leave.
* `symbolicMls` — an OpenMLS in which the text of a commit names its parent state: a group state is
  the list of the commits merged so far, and a message carries the state it was made on.
-/

import Darkmatter.Projection.Replay

namespace Darkmatter

open Std Lib OpenMls

/-! ### Epochs -/

/-- **The epoch of a group state counts the merged commits.** -/
structure OpenMls.EpochLaws {Group : Type} (mls : OpenMls Group) : Prop where
  commit : ∀ {group merged : Group} {bytes committer : Bytes} {priority : CommitOrderingPriority}
    {refs : List String}, mls.processCommit group bytes = .staged priority committer refs merged →
      mls.epoch merged = mls.epoch group + 1
  proposalStored : ∀ {group next : Group} {bytes : Bytes} {proposalRef : String},
    mls.processProposal group bytes = .stored proposalRef next → mls.epoch next = mls.epoch group
  proposalJoin : ∀ {group next : Group} {bytes : Bytes},
    mls.processProposal group bytes = .externalJoin next → mls.epoch next = mls.epoch group
  applicationProcessed : ∀ {group next : Group} {bytes sender payload : Bytes},
    mls.processApplication group bytes = .processed sender payload next →
      mls.epoch next = mls.epoch group
  applicationIgnored : ∀ {group next : Group} {bytes : Bytes},
    mls.processApplication group bytes = .ignored next → mls.epoch next = mls.epoch group
  pendingMerged : ∀ {group merged : Group} {bytes : Bytes},
    mls.mergePendingCommit group bytes = some merged → mls.epoch merged = mls.epoch group + 1

section Replays

variable {Group : Type} {mls : OpenMls Group} {group : Group}
  {messages : List TransportMessage} {message : TransportMessage} {epoch : Nat}

/-- **A commit at the end of a replay.** -/
theorem commit_replayed_iff {output : OpenMlsReplayOutput Group}
    (decoded : mls.decode message.payload = .ok (some ⟨.commit, epoch⟩)) :
    mls.processOpenmlsMessagesInner group (messages ++ [message]) = .ok output ↔
      ∃ before priority committer refs merged,
        mls.processOpenmlsMessagesInner group messages = .ok before ∧
        mls.processCommit before.group message.payload = .staged priority committer refs merged ∧
        output = ⟨before.observations ++ [.commitStaged message.id epoch
          (mls.epoch before.group + 1) priority committer (sortBy compare refs)], merged⟩ := by
  rw [processOpenmlsMessagesInner_append_ok]
  constructor
  · rintro ⟨before, _, front, back, rfl⟩
    obtain ⟨_, next, _, here, rest, rfl⟩ :=
      processOpenmlsMessagesInner_cons_ok.mp back
    cases rest
    rw [processOpenmlsMessage, decoded] at here
    cases outcome : mls.processCommit before.group message.payload with
    | staged priority committer refs =>
      simp only [outcome] at here
      cases here
      exact ⟨before, priority, committer, refs, next, front, outcome, rfl⟩
    | unauthorized | invalid | failed => simp only [outcome] at here; cases here
  · rintro ⟨before, _, _, _, merged, front, applies, rfl⟩
    refine ⟨before, ⟨[_], merged⟩, front, ?_, rfl⟩
    refine processOpenmlsMessagesInner_cons_ok.mpr ⟨_, merged, ⟨[], merged⟩, ?_, rfl, rfl⟩
    rw [processOpenmlsMessage, decoded]
    simp only [applies]

theorem materialize_replays {path : OpenMlsCandidatePath} {candidate : OpenMlsMaterializedCandidate}
    (materialized : mls.materializeOpenmlsCandidatePath group path = .ok candidate) :
    ∃ output, mls.processOpenmlsMessagesInner group path.messages = .ok output := by
  rw [materializeOpenmlsCandidatePath] at materialized
  cases replayed : mls.processOpenmlsMessagesInner group path.messages with
  | error => simp only [replayed] at materialized; cases materialized
  | ok output => exact ⟨output, rfl⟩

end Replays

/-! ### A symbolic OpenMLS -/

/-- The state after the commits of a list, the last one first. -/
abbrev SymbolicGroup := List UInt8

/-- Messages by their first byte: a commit (0), a proposal (1) or an application message (2). The
second byte is the name of the message and the rest is the state it was made on. -/
def symbolicDecode : Bytes → Except OpenMlsProjectionError (Option ProtocolMessage)
  | 0 :: _ :: state => .ok (some ⟨.commit, state.length⟩)
  | 1 :: _ :: state => .ok (some ⟨.proposal, state.length⟩)
  | 2 :: _ :: state => .ok (some ⟨.application, state.length⟩)
  | _ => .error .decode

variable (own : List UInt8)

/-- A commit of another client applies on the state it was made on; a commit of one's own is not
accepted from the wire. -/
def symbolicCommit (group : SymbolicGroup) : Bytes → CommitOutcome SymbolicGroup
  | 0 :: name :: state =>
    if name ∉ own ∧ state = group then .staged .ordinary [] [] (name :: state) else .failed
  | _ => .failed

def symbolicProposal (group : SymbolicGroup) : Bytes → ProposalOutcome SymbolicGroup
  | 1 :: name :: state => if state = group then .stored (hexEncode [name]) group else .failed
  | _ => .failed

/-- An application message of another client is decrypted by every state that comes after the one it
was made on. -/
def symbolicApplication (group : SymbolicGroup) : Bytes → ApplicationOutcome SymbolicGroup
  | 2 :: name :: state =>
    if name ∉ own ∧ state <:+ group then .processed [name] [name] group else .ignored group
  | _ => .failed

def symbolicPendingCommit (group : SymbolicGroup) : Bytes → Option SymbolicGroup
  | 0 :: name :: state => if name ∈ own ∧ state = group then some (name :: state) else none
  | _ => none

/-- **OpenMLS with messages that name the state they were made on**, for a client that makes the
commits named in `own`. Digests are the messages themselves. -/
def symbolicMls : OpenMls SymbolicGroup where
  sha256 := id
  pathHash := fun digests =>
    digests.flatMap fun digest => digest.flatMap (fun byte => [1, byte]) ++ [0]
  decode := symbolicDecode
  epoch := List.length
  processCommit := symbolicCommit own
  processProposal := symbolicProposal
  processApplication := symbolicApplication own
  mergePendingCommit := symbolicPendingCommit own

def symbolicMessage (id : String) (payload : Bytes) : TransportMessage where
  id
  payload
  source := []
  envelope := .groupMessage []

theorem symbolicMls_wrongEpoch (group : SymbolicGroup) (bytes : Bytes)
    (epoch : Nat) (decoded : (symbolicMls own).decode bytes = .ok (some ⟨.proposal, epoch⟩))
    (differs : epoch ≠ (symbolicMls own).epoch group) :
    (symbolicMls own).processProposal group bytes = .failed := by
  simp only [symbolicMls, symbolicProposal] at decoded differs ⊢
  split
  · simp only [symbolicDecode, Except.ok.injEq, Option.some.injEq, ProtocolMessage.mk.injEq,
      true_and] at decoded
    rw [if_neg]
    rintro rfl
    exact differs decoded.symm
  · rfl

end Darkmatter
