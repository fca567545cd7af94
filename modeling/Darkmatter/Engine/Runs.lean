/-
**The moves of a session.**

* `Move.Rewrites`, `Engine.SoundSession.rewrites` — **what may become of a row in a move**;
* `SessionStep.Names` — the ids of the messages a step brings;
* `SessionStep.meets` — **every move of a step is allowed**;
* `session_sound` — a session stays sound, before every move and at its end;
* `session_follows` — the moves follow one another, so that what every move keeps is kept.
-/

import Darkmatter.Engine.Anchors
import Darkmatter.Engine.Soundness

namespace Darkmatter

open Std Lib List

section Runs

variable {Group : Type} {net : Ingress Group} {transport outbox : String → Prop}
  {engine : Engine Group}

/-! ### The record of the client's commits -/

/-- The moves that leave the record of the client's commits and of the incumbents alone. -/
def Move.sparesRegister : Move Group → Bool
  | .applyCommit .. | .recover .. | .stage .. | .confirm | .abandon | .restart => false
  | _ => true

/-- The record of the client's commits and of the incumbents is the same. -/
structure Engine.SameRegister (engine after : Engine Group) : Prop where
  committedFrom : after.committedFrom = engine.committedFrom
  pendingCommit : after.pendingCommit = engine.pendingCommit
  incumbents : after.incumbents = engine.incumbents
  snapshotCounter : after.snapshotCounter = engine.snapshotCounter

/-- Nothing but the rows of the group's messages and of what was seen changes. -/
structure Engine.SameBooks (engine after : Engine Group) : Prop
    extends engine.SameRegister after where
  mls : after.storage.live.mls = engine.storage.live.mls
  queue : after.storage.live.queue = engine.storage.live.queue
  snapshots : after.storage.snapshots = engine.storage.snapshots
  events : after.events = engine.events

theorem settleMessage_sameBooks (mls : OpenMls Group) (engine : Engine Group)
    (message : TransportMessage) (state : MessageState) :
    engine.SameBooks (engine.settleMessage mls message state) := by
  obtain ⟨_, _, settled⟩ := settleMessage_frame mls engine message state
  rw [settled]
  exact ⟨⟨rfl, rfl, rfl, rfl⟩, rfl, rfl, rfl, rfl⟩

variable {move : Move Group} {mls : OpenMls Group} {message : TransportMessage}

def Move.writesRows : Move Group → Bool
  | .persistTransport .. | .settle .. | .updateState .. | .buffer .. | .detectFork _ | .send ..
  | .remember .. => true
  | _ => false

theorem Move.sameBooks (rows : move.writesRows) : engine.SameBooks (move.perform net engine) := by
  cases move with
  | persistTransport message epoch state =>
    obtain ⟨_, _, stored⟩ := persist_frame engine message.id epoch state (.rawTransport message)
    rw [Move.perform, stored]
    exact ⟨⟨rfl, rfl, rfl, rfl⟩, rfl, rfl, rfl, rfl⟩
  | settle => exact settleMessage_sameBooks _ _ _ _
  | detectFork => exact { settleMessage_sameBooks _ _ _ _ with }
  | updateState id state =>
    obtain ⟨_, updated⟩ := updateMessageState_frame engine id state
    rw [Move.perform, updated]
    exact ⟨⟨rfl, rfl, rfl, rfl⟩, rfl, rfl, rfl, rfl⟩
  | buffer =>
    rw [Move.perform]
    split
    · rename_i buffered
      rcases buffer_cases buffered with rfl | ⟨_, _, _, _, rfl⟩ <;>
        exact ⟨⟨rfl, rfl, rfl, rfl⟩, rfl, rfl, rfl, rfl⟩
    · exact ⟨⟨rfl, rfl, rfl, rfl⟩, rfl, rfl, rfl, rfl⟩
  | send message mlsBytes =>
    obtain ⟨_, _, _, sent, _⟩ := recordSent_cases net engine message mlsBytes
      (net.epoch engine.storage.live.mls)
    rw [Move.perform, sent]
    exact ⟨⟨rfl, rfl, rfl, rfl⟩, rfl, rfl, rfl, rfl⟩
  | remember => exact ⟨⟨rfl, rfl, rfl, rfl⟩, rfl, rfl, rfl, rfl⟩
  | _ => cases rows

/-- The record of the commits and the snapshots to recover with are the same. -/
structure Engine.SameRecoveries (engine after : Engine Group) : Prop
    extends engine.SameRegister after where
  snapshots : ∀ sourceEpoch counter,
    after.storage.snapshots (.forkRecovery sourceEpoch counter) =
      engine.storage.snapshots (.forkRecovery sourceEpoch counter)

variable {after : Engine Group}

theorem Engine.SameBooks.sameRecoveries (books : engine.SameBooks after) :
    engine.SameRecoveries after :=
  { books with snapshots := fun _ _ => by rw [books.snapshots] }

/-- **Only commits are recorded.** -/
theorem Engine.SoundSession.sameRecoveries (laws : net.Laws)
    (sound : engine.SoundSession net transport) (spares : move.sparesRegister) :
    engine.SameRecoveries (move.perform net engine) := by
  by_cases rows : move.writesRows
  · exact (Move.sameBooks rows).sameRecoveries
  cases move with
  | converge nowMs =>
    have effect := sound.converge_cases laws.toEpochLaws nowMs
    rw [Move.perform]
    generalize convergeStoredOpenmlsMessages net engine nowMs = ended at effect ⊢
    generalize engine.passObservations net nowMs = observed at effect
    obtain ⟨_, _⟩ := ended
    dsimp only at effect ⊢
    cases effect with
    | failed _ _ same => rcases same with rfl | rfl <;> exact ⟨⟨rfl, rfl, rfl, rfl⟩, fun _ _ => rfl⟩
    | halted | refused | waiting | lost | idle => exact ⟨⟨rfl, rfl, rfl, rfl⟩, fun _ _ => rfl⟩
    | moved =>
      refine ⟨⟨rfl, rfl, rfl, rfl⟩, fun _ _ => ?_⟩
      rw [Engine.applied, GroupStorage.moved]
      dsimp only
      split_ifs <;> rfl
  | discard message =>
    exact { (settleMessage_sameBooks net.toOpenMls engine message .failed).sameRecoveries with }
  | deliver message =>
    exact { (settleMessage_sameBooks net.toOpenMls engine message .processed).sameRecoveries with }
  | retain | enqueue | dequeue => exact ⟨⟨rfl, rfl, rfl, rfl⟩, fun _ _ => rfl⟩
  | applyCommit | recover | stage | confirm | abandon | restart => cases spares
  | _ => exact absurd rfl rows

theorem stageCommit_register {mlsBytes : Bytes} {priority : CommitOrderingPriority}
    {committer : Bytes} {staged : Engine Group}
    (isStaged : stageCommit mls engine message mlsBytes priority committer = some staged) :
    staged.committedFrom = mls.epoch engine.storage.live.mls :: engine.committedFrom ∧
      staged.incumbents = engine.incumbents ∧
      ∃ pending, staged.pendingCommit = some pending ∧ pending.bytes = mlsBytes ∧
        pending.record.sourceEpoch = mls.epoch engine.storage.live.mls ∧
        pending.record.storageId = message.id := by
  obtain ⟨_, _, _, _, _, _, _, rfl⟩ := stageCommit_cases isStaged
  exact ⟨rfl, rfl, _, rfl, rfl, rfl, rfl⟩

/-- The record after a commit was merged: the commit counts from its epoch on, and what is too old is
forgotten. -/
structure Engine.Merges (engine after : Engine Group) (record : CommitRecoveryRecord)
    (oldestRetainedEpoch : Nat) : Prop where
  committedFrom : after.committedFrom =
    engine.committedFrom.filter fun epoch => oldestRetainedEpoch ≤ epoch
  incumbents : after.incumbents = (engine.recordApplied record).incumbents.filter fun other =>
    oldestRetainedEpoch ≤ other.sourceEpoch

theorem confirmPublished_register (isConfirmed : confirmPublished mls engine = some after) :
    after.pendingCommit = none ∧ ∃ pending, engine.pendingCommit = some pending ∧
      engine.Merges after pending.record
        (after.storage.live.epoch - engine.policy.convergence.maxRewindCommits) := by
  obtain ⟨pending, _, _, _, waits, _, _, _, rfl⟩ := confirmPublished_cases isConfirmed
  refine ⟨rfl, pending, waits, ?_, ?_⟩ <;>
    · simp only [Engine.pruneForkRecovery, (release_snapshots _ _).1]
      rfl

/-- A commit that was merged right away is not one of the client's. -/
theorem applyStagedCommit_register {protocol : ProtocolMessage}
    (admits : engine.Admits net message protocol) (priority : CommitOrderingPriority)
    (committer : Bytes) (merged : Group) (recovery : Option PendingRecovery) :
    (engine.applyStagedCommit net message priority committer merged
        recovery).pendingCommit = engine.pendingCommit ∧
      ∃ record, record.sourceEpoch = net.epoch engine.storage.live.mls ∧
        record.storageId = message.id ∧
        engine.Merges (engine.applyStagedCommit net message priority committer merged
          recovery) record (net.epoch merged - engine.policy.convergence.maxRewindCommits) := by
  rw [Engine.applyStagedCommit, admits.fresh.persisted]
  dsimp only
  obtain ⟨_, updated⟩ := updateMessageState_frame _ message.id .processed
  rw [updated]
  exact ⟨rfl, _, rfl, rfl, rfl, rfl⟩

theorem abandonPublish_register (mls : OpenMls Group) (engine : Engine Group) :
    (engine.abandonPublish mls).pendingCommit = none ∧
      (engine.abandonPublish mls).committedFrom = engine.committedFrom ∧
      (engine.abandonPublish mls).incumbents = engine.incumbents := by
  rw [Engine.abandonPublish]
  split
  · rename_i waits
    exact ⟨waits, rfl, rfl⟩
  · exact ⟨rfl, rfl, rfl⟩

/-! ### Events -/

/-- The events of a move that is no pass. -/
def Move.emits (mls : OpenMls Group) (engine : Engine Group) : Move Group → List GroupEvent
  | .deliver _ sender epoch payload _ => [.messageReceived sender epoch payload]
  | .applyCommit _ _ _ merged recovery =>
    (recovery.map fun recovery =>
      GroupEvent.forkRecovered recovery.sourceEpoch (mls.epoch merged) recovery.winner
        recovery.invalidated recovery.invalidatedCommitId).toList ++
      [.epochChanged (mls.epoch engine.storage.live.mls) (mls.epoch merged)]
  | .confirm =>
    match engine.epochState with
    | .pendingPublish epoch => [.epochChanged (epoch - 1) epoch]
    | _ => []
  | _ => []

theorem Move.Allowed.events (allowed : move.Allowed net transport outbox engine)
    (other : ∀ nowMs, move ≠ .converge nowMs) :
    (move.perform net engine).events = engine.events ++ move.emits net engine := by
  by_cases rows : move.writesRows
  · have silent : move.emits net engine = [] := by
      cases move <;> first | rfl | cases rows
    rw [(Move.sameBooks rows).events, silent, append_nil]
  cases move with
  | discard =>
    exact (settleMessage_sameBooks _ _ _ _).events.trans (append_nil _).symm
  | converge nowMs => exact absurd rfl (other nowMs)
  | deliver => rfl
  | applyCommit => exact append_assoc _ _ _
  | recover =>
    obtain ⟨_, _, _, _, recovered⟩ := allowed.recovered
    rw [recovered]
    exact (append_nil _).symm
  | stage =>
    obtain ⟨_, _, _, _, _, _, _, staged⟩ := stageCommit_cases allowed.staged
    rw [staged]
    exact (append_nil _).symm
  | confirm =>
    obtain ⟨_, _, _, _, _, waits, _, _, confirmed⟩ := confirmPublished_cases allowed.confirmed
    rw [confirmed, Move.emits, waits]
    rfl
  | abandon =>
    rw [Move.perform, Engine.abandonPublish]
    split <;> exact (append_nil _).symm
  | retain | enqueue | dequeue | restart => exact (append_nil _).symm
  | _ => exact absurd rfl rows

/-! ### What becomes of a row -/

section Rows

variable {records : List MessageRecord} {old : MessageRecord} {id : String} {epoch : Nat}
  {state : MessageState} {payload : StoredMessagePayload}

theorem updatedRow (distinct : (records.map MessageRecord.id).Nodup) (member : old ∈ records)
    (id : String) (state : MessageState) :
    ∃ new ∈ (updateMessageState records id state).getD records, new.id = old.id ∧
      (new = old ∨ old.id = id ∧ new = { old with state }) := by
  cases written : updateMessageState records id state with
  | none => exact ⟨old, member, rfl, Or.inl rfl⟩
  | some =>
    rw [Option.getD_some, updateMessageState_eq distinct written]
    refine ⟨_, mem_map_of_mem member, ?_⟩
    split_ifs with named
    · exact ⟨rfl, Or.inr ⟨named, rfl⟩⟩
    · exact ⟨rfl, Or.inl rfl⟩

variable (distinct : (engine.storage.live.messages.map MessageRecord.id).Nodup)

include distinct

theorem persist_nodup :
    ((engine.persistStoredMessagePayload id epoch state payload).storage.live.messages.map
      MessageRecord.id).Nodup := by
  rcases persist_rows engine id epoch state payload with ⟨same, _⟩ | put
  · rw [same]
    exact distinct
  · rw [put]
    exact put_nodup distinct _

variable (member : old ∈ engine.storage.live.messages)

include member

theorem putRow (record : MessageRecord) :
    ∃ new ∈ (engine.putMessage record).storage.live.messages, new.id = old.id ∧
      (new = old ∧ old.id ≠ record.id ∨ old.id = record.id ∧ new = record) := by
  by_cases named : old.id = record.id
  · exact ⟨record, (mem_putMessage distinct).mpr (Or.inl rfl), named.symm, Or.inr ⟨named, rfl⟩⟩
  · exact ⟨old, (mem_putMessage distinct).mpr (Or.inr ⟨member, named⟩), rfl, Or.inl ⟨rfl, named⟩⟩

theorem persistRow (id : String) (epoch : Nat) (state : MessageState)
    (payload : StoredMessagePayload) :
    ∃ new ∈ (engine.persistStoredMessagePayload id epoch state payload).storage.live.messages,
      new.id = old.id ∧ (new = old ∨ old.id = id ∧ new.state = state) := by
  rcases persist_rows engine id epoch state payload with ⟨same, _⟩ | put
  · rw [same]
    exact ⟨old, member, rfl, Or.inl rfl⟩
  · rw [put]
    obtain ⟨new, isNew, same, ⟨rfl, _⟩ | ⟨named, rfl⟩⟩ :=
      putRow distinct member ⟨id, engine.groupId, epoch, state, payload⟩
    · exact ⟨new, isNew, same, Or.inl rfl⟩
    · exact ⟨_, isNew, same, Or.inr ⟨named, rfl⟩⟩

theorem sentRecord (mls : OpenMls Group) (message : TransportMessage) (mlsBytes : Bytes) (epoch : Nat) :
    ∃ new ∈ (engine.recordSentOpenmlsMessage mls message mlsBytes epoch).storage.live.messages,
      new.id = old.id ∧ (new = old ∨
        (old.id = message.id ∨ old.id = mls.contentDedupId mlsBytes) ∧ new.state = .sent) := by
  obtain ⟨first, isFirst, same, changed⟩ := persistRow distinct member message.id epoch .sent
    (.openmlsWire { message with payload := mlsBytes })
  rw [Engine.recordSentOpenmlsMessage]
  dsimp only
  split_ifs
  · refine ⟨first, isFirst, same, ?_⟩
    rcases changed with rfl | ⟨named, sent⟩
    · exact Or.inl rfl
    · exact Or.inr ⟨Or.inl named, sent⟩
  · obtain ⟨second, isSecond, again, marked⟩ := persistRow (persist_nodup distinct) isFirst
      (mls.contentDedupId mlsBytes) epoch .sent
      (.rawTransport { message with payload := mlsBytes, id := mls.contentDedupId mlsBytes })
    refine ⟨second, isSecond, again.trans same, ?_⟩
    rcases marked with rfl | ⟨named, sent⟩
    · rcases changed with rfl | ⟨named, sent⟩
      · exact Or.inl rfl
      · exact Or.inr ⟨Or.inl named, sent⟩
    · exact Or.inr ⟨Or.inr (same ▸ named), sent⟩

end Rows

/-- The rows that a move starts from: a recovery goes back to those of its snapshot. -/
def Move.rows (engine : Engine Group) : Move Group → List MessageRecord
  | .recover _ record =>
    (engine.storage.snapshots record.snapshotName).elim engine.storage.live.messages
      GroupSnapshot.messages
  | _ => engine.storage.live.messages

/-- The message that a move sends, and its MLS bytes. -/
def Move.sends : Move Group → Option (TransportMessage × Bytes)
  | .stage message mlsBytes _ _ | .send message mlsBytes => some (message, mlsBytes)
  | _ => none

/-- **What a move may make of a row.** -/
inductive Move.Rewrites (net : Ingress Group) (engine : Engine Group) :
    Move Group → MessageRecord → MessageRecord → Prop
  | kept {move : Move Group} {old : MessageRecord} : Rewrites net engine move old old
  | transport {message : TransportMessage} {epoch : Nat} {old new : MessageRecord}
      (named : old.id = message.id) :
      Rewrites net engine (.persistTransport message epoch new.state) old new
  | updated {old : MessageRecord} {state : MessageState} :
      Rewrites net engine (.updateState old.id state) old { old with state }
  | opened {move : Move Group} {old new : MessageRecord} {message : TransportMessage}
      (fresh : engine.Fresh old.id) (payload : new.payload = .openmlsWire message) :
      Rewrites net engine move old new
  | sent {move : Move Group} {message : TransportMessage} {mlsBytes : Bytes}
      {old new : MessageRecord} (sends : move.sends = some (message, mlsBytes))
      (named : old.id = message.id ∨ old.id = net.contentDedupId mlsBytes)
      (state : new.state = .sent) : Rewrites net engine move old new
  | passed {nowMs : Nat} {group : Group} {result : CanonicalizationResult} {old : MessageRecord}
      (decision : engine.Decided net nowMs group result) :
      Rewrites net engine (.converge nowMs) old
        { old with state := result.stateByMessageId[old.id]?.getD old.state }
  | confirmed {pending : PendingCommit} {old : MessageRecord}
      (waits : engine.pendingCommit = some pending) (named : old.id = pending.record.storageId) :
      Rewrites net engine .confirm old { old with state := .processed }
  | rolledBack {message : TransportMessage} {record : CommitRecoveryRecord} {old : MessageRecord}
      (named : old.id = record.storageId) :
      Rewrites net engine (.recover message record) old { old with state := .epochInvalidated }

section Rewriting

variable {old : MessageRecord} (sound : engine.SoundSession net transport)

include sound

/-- **A pass writes no row that it does not read.** -/
theorem Engine.Decided.spares {nowMs : Nat} {group : Group} {result : CanonicalizationResult}
    (decision : engine.Decided net nowMs group result) (member : old ∈ engine.storage.live.messages)
    (unread : ∀ message, old.wireMessage = some message →
      net.kindOf message ≠ some .commit ∧ ¬ recordStateIsCanonicalizationInput old.state) :
    result.stateByMessageId[old.id]? = none := by
  by_contra given
  obtain ⟨other, isLive, same, _, wire, read⟩ := decision.touched old.id given
  obtain rfl := inj_on_of_nodup_map sound.live.rows.ids isLive member same
  obtain ⟨kind, resolved⟩ := unread _ wire
  exact read.elim (fun commit => kind commit.1) resolved

theorem Engine.SoundSession.passedRow (laws : net.Laws) (nowMs : Nat)
    (member : old ∈ engine.storage.live.messages) :
    ∃ new ∈ ((Move.converge nowMs).perform net engine).storage.live.messages,
      new.id = old.id ∧ (Move.converge nowMs).Rewrites net engine old new := by
  have effect := sound.converge_cases laws.toEpochLaws nowMs
  rw [Move.perform]
  generalize convergeStoredOpenmlsMessages net engine nowMs = ended at effect ⊢
  generalize engine.passObservations net nowMs = observed at effect
  obtain ⟨reported, after⟩ := ended
  dsimp only at effect ⊢
  have settles {group : Group} {result : CanonicalizationResult} (start : Nat)
      (decision : engine.Decided net nowMs group result) :
      ∃ new ∈ result.settledRows (engine.storage.startingAt start).messages,
        new.id = old.id ∧ (Move.converge nowMs).Rewrites net engine old new := by
    obtain ⟨_, kept, _⟩ := startingAt_rows sound.live.rows sound.anchors start
    exact ⟨_, mem_map_of_mem (kept old member), rfl, .passed decision⟩
  cases effect with
  | halted | refused | waiting | lost => exact ⟨old, member, rfl, .kept⟩
  | failed _ _ same => rcases same with rfl | rfl <;> exact ⟨old, member, rfl, .kept⟩
  | idle decision =>
    have settled := settles engine.storage.live.epoch decision
    rw [startingAt_live _ (Nat.lt_irrefl _)] at settled
    exact settled
  | moved decision => exact settles _ decision

/-- **A row stays**, and is rewritten by a move in few ways. -/
theorem Engine.SoundSession.rewrites (laws : net.Laws)
    (allowed : move.Allowed net transport outbox engine) (member : old ∈ move.rows engine) :
    ∃ new ∈ (move.perform net engine).storage.live.messages,
      new.id = old.id ∧ move.Rewrites net engine old new := by
  have ids := sound.live.rows.ids
  have opens {record : MessageRecord} {message : TransportMessage} (fresh : engine.Fresh record.id)
      (payload : record.payload = .openmlsWire message)
      (live : old ∈ engine.storage.live.messages) :
      ∃ new ∈ (engine.putMessage record).storage.live.messages,
        new.id = old.id ∧ move.Rewrites net engine old new := by
    obtain ⟨new, isNew, same, ⟨rfl, _⟩ | ⟨named, rfl⟩⟩ := putRow ids live record
    · exact ⟨new, isNew, same, .kept⟩
    · exact ⟨_, isNew, same, .opened (named ▸ fresh) payload⟩
  have settles {message : TransportMessage} {protocol : ProtocolMessage}
      (admits : engine.Admits net message protocol) (state : MessageState)
      (live : old ∈ engine.storage.live.messages) :
      ∃ new ∈ (engine.settleMessage net message state).storage.live.messages,
        new.id = old.id ∧ move.Rewrites net engine old new := by
    rw [admits.fresh.settled]
    exact opens admits.fresh rfl live
  cases move with
  | persistTransport message epoch state =>
    obtain ⟨new, isNew, same, rfl | ⟨named, rfl⟩⟩ :=
      persistRow ids member message.id epoch state (.rawTransport message)
    · exact ⟨new, isNew, same, .kept⟩
    · exact ⟨new, isNew, same, .transport named⟩
  | settle message state => exact settles allowed.choose_spec state member
  | discard => exact settles allowed.choose_spec.1 .failed member
  | updateState id state =>
    obtain ⟨_, written⟩ := updateMessageState_frame engine id state
    rw [Move.perform, written]
    obtain ⟨new, isNew, same, rfl | ⟨rfl, rfl⟩⟩ := updatedRow ids member id state
    · exact ⟨new, isNew, same, .kept⟩
    · exact ⟨_, isNew, same, .updated⟩
  | buffer message nowMs =>
    obtain ⟨_, admits⟩ := allowed
    rw [Move.perform]
    split
    · rename_i buffered
      rcases buffer_cases buffered with rfl | ⟨_, _, _, _, rfl⟩
      · exact ⟨old, member, rfl, .kept⟩
      · exact opens (admits.named ▸ admits.fresh) rfl member
    · exact ⟨old, member, rfl, .kept⟩
  | converge nowMs => exact sound.passedRow laws nowMs member
  | deliver => exact settles allowed.1 .processed member
  | applyCommit message priority committer merged recovery =>
    obtain ⟨_, _, admits, _⟩ := allowed
    let row : MessageRecord := ⟨message.id, engine.groupId, net.epoch engine.storage.live.mls,
      .created, .openmlsWire message⟩
    obtain ⟨first, isFirst, same, changed⟩ := putRow ids member row
    obtain ⟨new, isNew, again, updated⟩ :=
      updatedRow (put_nodup ids row) isFirst message.id .processed
    refine ⟨new, ?_, again.trans same, ?_⟩
    · rw [Move.perform, Engine.applyStagedCommit, admits.fresh.persisted]
      obtain ⟨_, written⟩ := updateMessageState_frame _ message.id .processed
      rw [written, pruneForkRecovery_live]
      exact isNew
    · rcases changed with ⟨rfl, other⟩ | ⟨named, rfl⟩
      · rcases updated with rfl | ⟨here, _⟩
        · exact .kept
        · exact absurd here other
      · have wire : new.payload = .openmlsWire message := by
          rcases updated with rfl | ⟨_, rfl⟩ <;> rfl
        exact .opened (named ▸ admits.fresh) wire
  | detectFork => exact settles allowed.choose_spec.1 .epochInvalidated member
  | recover message record =>
    obtain ⟨_, _, _, _, snapshot, _, _, stored, _⟩ := allowed
    obtain ⟨messages, _, recovered, rows⟩ := resolveForCandidate_frame net message stored
    rw [Move.rows, stored] at member
    obtain ⟨new, isNew, same, updated⟩ := updatedRow (sound.snapshots _ snapshot stored).1.rows.ids
      member record.storageId .epochInvalidated
    rw [← rows] at isNew
    rw [Move.perform, recovered]
    refine ⟨new, isNew, same, ?_⟩
    rcases updated with rfl | ⟨named, rfl⟩
    · exact .kept
    · exact .rolledBack named
  | stage message mlsBytes priority committer =>
    obtain ⟨_, _, _, _, _, _, sent, staged⟩ := stageCommit_cases allowed.staged
    obtain ⟨new, isNew, same, changed⟩ := @sentRecord _ (engine.captured net) _ ids member net message
      mlsBytes (net.epoch engine.storage.live.mls)
    rw [sent] at isNew
    rw [staged]
    refine ⟨new, isNew, same, ?_⟩
    rcases changed with rfl | ⟨named, isSent⟩
    · exact .kept
    · exact .sent rfl named isSent
  | confirm =>
    obtain ⟨pending, _, _, _, waits, _, _, written, confirmed⟩ :=
      confirmPublished_cases allowed.confirmed
    obtain ⟨new, isNew, same, updated⟩ :=
      updatedRow ids member pending.record.storageId .processed
    rw [written] at isNew
    rw [confirmed, pruneForkRecovery_live]
    refine ⟨new, isNew, same, ?_⟩
    rcases updated with rfl | ⟨named, rfl⟩
    · exact .kept
    · exact .confirmed waits named
  | abandon =>
    rw [Move.perform, Engine.abandonPublish]
    split <;> exact ⟨old, member, rfl, .kept⟩
  | send message mlsBytes =>
    obtain ⟨new, isNew, same, rfl | ⟨named, sent⟩⟩ :=
      sentRecord ids member net.toOpenMls message mlsBytes (net.epoch engine.storage.live.mls)
    · exact ⟨new, isNew, same, .kept⟩
    · exact ⟨new, isNew, same, .sent rfl named sent⟩
  | remember | retain | enqueue | dequeue | restart => exact ⟨old, member, rfl, .kept⟩

end Rewriting

/-! ### Moves that publish nothing -/

theorem Move.Allowed.mono (allowed : move.Allowed net transport (fun _ => False) engine) :
    move.Allowed net transport outbox engine := by
  cases move with
  | stage | send => exact absurd allowed.1 not_false
  | _ => exact allowed

section Sound

variable (sound : engine.SoundSession net transport)

include sound

theorem Engine.SoundSession.stays_unpending (laws : net.Laws)
    (unpending : engine.pendingCommit = none)
    (allowed : move.Allowed net transport (fun _ => False) engine) :
    (move.perform net engine).pendingCommit = none := by
  by_cases spares : move.sparesRegister
  · rw [(sound.sameRecoveries laws spares).pendingCommit, unpending]
  cases move with
  | applyCommit message priority committer merged recovery =>
    obtain ⟨_, _, admits, _⟩ := allowed
    exact (applyStagedCommit_register admits priority committer merged recovery).1.trans unpending
  | recover =>
    obtain ⟨_, _, _, _, recovered⟩ := allowed.recovered
    rw [recovered]
    exact unpending
  | stage => exact absurd allowed.1 not_false
  | confirm => exact (confirmPublished_register allowed.confirmed).1
  | abandon => exact (abandonPublish_register net engine).1
  | restart => rfl
  | _ => exact absurd rfl spares

theorem Allows.staysSound {Result : Type} {task : EngineTask Group Result}
    {post : Except (EngineError String) Result → Engine Group → Prop} (laws : net.Laws)
    (unpending : engine.pendingCommit = none)
    (allows : Allows net transport (fun _ => False) engine task post) :
    Allows net transport (fun _ => False) engine task fun _ after =>
      after.SoundSession net transport ∧ after.pendingCommit = none := by
  have invariant := Program.Meets.invariant
    (fun after => after.SoundSession net transport ∧ after.pendingCommit = none)
    allows ⟨sound, unpending⟩ fun after move inv allowed =>
      ⟨inv.1.perform laws allowed, inv.1.stays_unpending laws inv.2 allowed⟩
  exact invariant.mono (fun _ _ allowed => allowed.2) fun _ _ ended => ended.1

/-! ### Bringing the group up to date -/

theorem advancePasses_meets (laws : net.Laws) (nowMs passes : Nat)
    (unpending : engine.pendingCommit = none) :
    Allows net transport (fun _ => False) engine (advancePasses net nowMs passes)
      fun _ _ => True := by
  induction passes generalizing engine with
  | zero => trivial
  | succ passes ih =>
    have passAllowed : (Move.converge nowMs).Allowed net transport (fun _ => False) engine :=
      sound.unpended_iff.mp unpending
    have retries (after : Engine Group) (isSound : after.SoundSession net transport)
        (isUnpending : after.pendingCommit = none) :
        Allows net transport (fun _ => False) after
          (do
            let progressed ← retryDeferredPeels net nowMs
            if progressed = 0 then
              let after ← Task.look
              pure (!after.hasUnresolvedConvergenceInputs net)
            else
              advancePasses net nowMs passes) fun _ _ => True := by
      rw [Allows, Task.meets_bind]
      refine ((retryDeferredPeels_meets nowMs isSound.live.replayable).staysSound isSound laws
        isUnpending).mono (fun _ _ allowed => allowed) ?_
      rintro (e | _) _ ⟨lastSound, lastUnpending⟩
      · trivial
      · dsimp only
        split_ifs
        · trivial
        · exact ih lastSound lastUnpending
    rw [advancePasses, Allows, Task.meets_look_bind, Task.meets_bind]
    split_ifs
    · rw [Task.meets_act_bind]
      refine ⟨passAllowed, ?_⟩
      generalize (convergeStoredOpenmlsMessages net engine nowMs).1 = reported
      cases reported with
      | error => trivial
      | ok =>
        rw [Task.meets_look_bind, Task.meets_pure]
        dsimp only
        split_ifs
        · exact retries _ (sound.perform laws passAllowed)
            (sound.stays_unpending laws unpending passAllowed)
        · trivial
    · exact retries engine sound unpending

theorem advanceConvergenceInputsUntilSettled_meets (laws : net.Laws) (nowMs : Nat) :
    Allows net transport (fun _ => False) engine (advanceConvergenceInputsUntilSettled net nowMs)
      fun _ _ => True := by
  rw [advanceConvergenceInputsUntilSettled, Allows, Task.meets_look_bind]
  split
  · rename_i epoch stable
    exact advancePasses_meets sound laws nowMs 16 (sound.unpending (by rw [stable]; rfl))
  · trivial

/-! ### Steps -/

/-- The ids of the messages a step brings: inbound ones, and those the client sends. -/
def SessionStep.Names (transport outbox : String → Prop) : SessionStep → Prop
  | .ingest message _ => transport message.id
  | .stage message _ _ _ | .send message _ => outbox message.id
  | _ => True

theorem replayBufferedMessages_meets (nowMs : Nat) :
    Allows net transport outbox engine (replayBufferedMessages net nowMs) fun _ _ => True :=
  replayRows_meets nowMs sound.live.replayable

/-- **The moves of a step are allowed.** -/
theorem SessionStep.meets (laws : net.Laws)
    {step : SessionStep} (named : step.Names transport outbox) :
    Allows net transport outbox engine (step.task net) fun _ _ => True := by
  cases step with
  | ingest message nowMs =>
    rw [SessionStep.task, Allows, Task.meets_bind]
    refine (doIngest_meets named nowMs).mono (fun _ _ allowed => allowed) ?_
    rintro (e | _) _ _ <;> trivial
  | advance nowMs =>
    rw [SessionStep.task, Allows, Task.meets_bind]
    refine (advanceConvergenceInputsUntilSettled_meets sound laws nowMs).mono
      (fun _ _ allowed => Move.Allowed.mono allowed) ?_
    rintro (e | _) _ _ <;> trivial
  | stage message mlsBytes priority committer =>
    rw [SessionStep.task, doStageCommit, Allows, Task.meets_look_bind]
    cases staged : stageCommit net engine message mlsBytes priority committer with
    | none => trivial
    | some =>
      dsimp only
      split_ifs with made
      · exact ⟨⟨named, by rw [staged]; rfl, made⟩, trivial⟩
      · trivial
  | confirmPublished nowMs =>
    rw [SessionStep.task, doConfirmPublished, Allows, Task.meets_look_bind]
    cases engine.pendingCommit with
    | none => trivial
    | some =>
      dsimp only
      cases confirmed : Darkmatter.confirmPublished net engine with
      | none => exact ⟨trivial, trivial⟩
      | some =>
        have allowed : Move.confirm.Allowed net transport outbox engine := by
          rw [Move.Allowed, confirmed]
          rfl
        exact ⟨allowed, replayBufferedMessages_meets (sound.perform laws allowed) nowMs⟩
  | publishFailed nowMs =>
    rw [SessionStep.task, doPublishFailed, Allows, Task.meets_look_bind]
    cases waits : engine.pendingCommit with
    | none => trivial
    | some =>
      have allowed : Move.abandon.Allowed net transport outbox engine := by
        rw [Move.Allowed, waits]
        rfl
      exact ⟨allowed, replayBufferedMessages_meets (sound.perform laws allowed) nowMs⟩
  | send =>
    rw [SessionStep.task, doSendAppMessage, Allows, Task.meets_look_bind]
    split
    · rename_i epoch stable
      split_ifs with made
      · exact ⟨⟨named, ⟨epoch, stable⟩, made⟩, trivial⟩
      · trivial
    · trivial
  | enqueue => exact ⟨trivial, trivial⟩
  | dequeue =>
    rw [SessionStep.task, deleteQueuedOutboundIntent, Allows, Task.meets_look_bind]
    split_ifs
    · exact ⟨trivial, trivial⟩
    · trivial
  | restart => exact ⟨trivial, trivial⟩

theorem Engine.SoundSession.step (laws : net.Laws)
    {step : SessionStep} (named : step.Names transport outbox) :
    (∀ move ∈ (step.task net).program.trace (Move.perform net) engine,
        move.1.SoundSession net transport ∧ move.2.Allowed net transport outbox move.1) ∧
      (engine.sessionStep net step).SoundSession net transport := by
  have invariant := Program.Meets.invariant (fun after => after.SoundSession net transport)
    (SessionStep.meets sound laws named) sound fun after move inv allowed =>
      inv.perform laws allowed
  obtain ⟨moves, ended, _⟩ := Program.meets_iff.mp invariant
  exact ⟨moves, ended⟩

/-! ### Sessions -/

variable {steps : List SessionStep}

/-- **A session stays sound**, and makes allowed moves only. -/
theorem session_sound (laws : net.Laws) (named : ∀ step ∈ steps, step.Names transport outbox) :
    (∀ move ∈ engine.moves net steps,
        move.1.SoundSession net transport ∧ move.2.Allowed net transport outbox move.1) ∧
      (engine.session net steps).SoundSession net transport := by
  induction steps generalizing engine with
  | nil => exact ⟨fun _ member => absurd member not_mem_nil, sound⟩
  | cons step rest ih =>
    obtain ⟨first, after⟩ := sound.step laws (named step mem_cons_self)
    obtain ⟨later, last⟩ := ih after fun other member => named other (mem_cons_of_mem _ member)
    refine ⟨fun move member => ?_, last⟩
    rcases mem_append.mp member with here | there
    · exact first move here
    · exact later move there

end Sound

theorem session_follows (net : Ingress Group) (engine : Engine Group) (steps : List SessionStep) :
    Follows (Move.perform net) engine (engine.moves net steps) (engine.session net steps) := by
  induction steps generalizing engine with
  | nil => rfl
  | cons step rest ih =>
    rw [Engine.moves]
    exact ((step.task net).program.follows engine).append (ih (engine.sessionStep net step))

theorem joined_soundSession (net : Ingress Group) (transport : String → Prop) (groupId : String)
    (policy : CanonicalizationPolicy) (group : Group) :
    (Engine.joined net groupId policy group).SoundSession net transport := by
  have live : SoundSnapshot net transport ⟨group, net.epoch group, [], []⟩ :=
    ⟨⟨⟨by simp, nodup_nil⟩, by simp [ReplayableRows], by simp⟩, rfl, nodup_nil⟩
  refine ⟨live, fun name snapshot stored => ?_, fun _ => ⟨rfl, nofun⟩, nofun, ?_, nodup_nil⟩
  · rw [Engine.joined] at stored
    dsimp only at stored
    split_ifs at stored with anchor
    cases stored
    exact ⟨live, anchor ▸ rfl⟩
  · intro _ member
    cases member

theorem SessionStep.names_any (step : SessionStep) : step.Names (fun _ => True) fun _ => True := by
  cases step <;> trivial

end Runs

/-! ### A symbolic network -/

section Symbolic

/-- The envelope of a symbolic message is opened by the state the message was made on. -/
def symbolicPeel (group : SymbolicGroup) (message : TransportMessage) :
    Except PeelerError PeeledContent :=
  if message.payload.drop 2 = group then .ok (.mlsMessage message.payload) else .error .decryptFailed

/-- A commit or a proposal is processed in its epoch, an application message by a state that comes
after the one it was made on. -/
def symbolicProcessError (group : SymbolicGroup) : Bytes → Option ProcessMessageError
  | 2 :: _ :: state =>
    if state <:+ group then none
    else if state.length ≤ group.length then some .other
    else some .wrongEpoch
  | _ :: _ :: state => if state.length = group.length then none else some .wrongEpoch
  | _ => some .other

variable (own : List UInt8)

def symbolicOrdering (group : SymbolicGroup) : Bytes → Option (CommitOrderingPriority × Bytes)
  | 0 :: name :: state => if name ∉ own ∧ state = group then some (.ordinary, []) else none
  | _ => none

def symbolicCreates (group : SymbolicGroup) : Bytes → Bool
  | 2 :: name :: state => name ∈ own ∧ state = group
  | _ => false

/-- **The symbolic OpenMLS behind a transport.** -/
def symbolicIngress : Ingress SymbolicGroup where
  toOpenMls := symbolicMls own
  isActive _ := true
  peelGroupMessage := symbolicPeel
  processMessageError := symbolicProcessError
  commitOrdering := symbolicOrdering own
  createsMessage := symbolicCreates own

theorem symbolicIngress_laws : (symbolicIngress own).Laws where
  toPublishLaws := symbolicMls_publishLaws own
  source := by
    intro _ _ _ _ _ _ _ staged decoded
    simp only [symbolicIngress, symbolicMls, symbolicCommit] at staged
    split at staged
    · split at staged
      · rename_i made
        simp only [symbolicIngress, symbolicMls, symbolicDecode, Except.ok.injEq,
          Option.some.injEq, ProtocolMessage.mk.injEq] at decoded
        rw [← decoded.2, made.2]
        rfl
      · cases staged
    · cases staged
  created := by
    intro _ _ made
    simp only [symbolicIngress, symbolicCreates] at made
    split at made
    · simp only [Bool.decide_and, Bool.and_eq_true, decide_eq_true_eq] at made
      rw [made.2]
      rfl
    · cases made

theorem symbolicEngine_soundSession (transport : String → Prop) :
    (symbolicEngine own).SoundSession (symbolicIngress own) transport :=
  joined_soundSession (symbolicIngress own) transport _ _ _

def stageSymbolicCommit (id : String) (name : UInt8) (state : SymbolicGroup) : SessionStep :=
  .stage (symbolicMessage id (0 :: name :: state)) (0 :: name :: state) .ordinary []

def ingestSymbolic (id : String) (payload : Bytes) : SessionStep :=
  .ingest (symbolicMessage id payload) 0

end Symbolic

end Darkmatter
