/-
**What a session demands of its moves.**

* `Move.Allowed` — the state a move is made in: a message that is settled, delivered or merged is news
  and was opened, a group that is rolled back has an incumbent that the candidate beats, and so on;
* `ingestGroupMessage_meets`, `replayRows_meets`, `retryRows_meets` — **the moves of the tasks that
  take messages in are allowed**;
* `ingest_rounds_end` — **an ingest ends**, after a round for every incumbent at most.
-/

import Darkmatter.Engine.Session
import Darkmatter.Engine.Step

namespace Darkmatter

open Std Lib Move Task

section Guards

variable {Group : Type} (net : Ingress Group) (transport outbox : String → Prop)
  (engine : Engine Group)

/-- Nothing is known of a message: no row that says what became of it, and no id in memory. -/
structure Engine.Fresh (id : String) : Prop where
  unrecorded : engine.recordedMessageOutcome id = none
  unseen : id ∉ engine.seenMessageIds.members
  unsent : id ∉ engine.sentMessageIds.members

/-- A message that is news and goes under the hash of its MLS bytes. -/
structure Engine.Admits (message : TransportMessage) (protocol : ProtocolMessage) : Prop where
  ready : engine.epochState.canIngest
  fresh : engine.Fresh message.id
  named : message.id = net.contentDedupId message.payload
  decoded : net.decode message.payload = .ok (some protocol)

/-- The states in which a row of a transport message is taken in again. -/
def MessageState.isReplayed : MessageState → Bool
  | .created | .retryable | .peelDeferred => true
  | _ => false

/-- **When a move may be made.** Rows of transport messages go under ids of `transport`, and the
messages the client sends have ids of `outbox`. -/
def Move.Allowed : Move Group → Prop
  | .persistTransport message _ state =>
    transport message.id ∨ state.isReplayed = false ∧ engine.Fresh message.id
  | .settle message _ => ∃ protocol, engine.Admits net message protocol
  | .discard message group =>
    ∃ epoch, engine.Admits net message ⟨.application, epoch⟩ ∧
      net.processApplication engine.storage.live.mls message.payload = .ignored group
  | .updateState id _ => transport id
  | .buffer message _ => ∃ protocol, engine.Admits net message protocol
  | .converge _ => ∀ epoch, engine.epochState ≠ .pendingPublish epoch
  | .deliver message sender epoch payload group =>
    engine.Admits net message ⟨.application, epoch⟩ ∧
      net.processApplication engine.storage.live.mls message.payload =
        .processed sender payload group
  | .applyCommit message priority committer merged recovery =>
    ∃ epoch refs, engine.Admits net message ⟨.commit, epoch⟩ ∧
      net.processCommit engine.storage.live.mls message.payload =
        .staged priority committer refs merged ∧
      (recovery = none → ¬ engine.commitShouldEnterConvergence
        (net.epoch engine.storage.live.mls) epoch)
  | .detectFork message =>
    ∃ epoch, engine.Admits net message ⟨.commit, epoch⟩ ∧ epoch ∈ engine.committedFrom ∧
      epoch < net.epoch engine.storage.live.mls ∧ engine.incumbent epoch = none
  | .recover message record =>
    engine.Admits net message ⟨.commit, record.sourceEpoch⟩ ∧
      record ∈ engine.incumbents ∧ record.sourceEpoch ∈ engine.committedFrom ∧
      record.sourceEpoch < net.epoch engine.storage.live.mls ∧
      ∃ snapshot priority committer,
        engine.storage.snapshots record.snapshotName = some snapshot ∧
        net.commitOrdering snapshot.mls message.payload = some (priority, committer) ∧
        compare (⟨record.sourceEpoch, priority, committer, net.sha256 message.payload⟩ :
          CommitOrderingKey) record.orderingKey = .lt
  | .stage message mlsBytes priority committer =>
    outbox message.id ∧
      (stageCommit net engine message mlsBytes priority committer).isSome ∧
      (net.mergePendingCommit engine.storage.live.mls mlsBytes).isSome
  | .confirm => (Darkmatter.confirmPublished net engine).isSome
  | .abandon => engine.pendingCommit.isSome
  | .send message mlsBytes =>
    outbox message.id ∧ (∃ epoch, engine.epochState = .stable epoch) ∧
      net.createsMessage engine.storage.live.mls mlsBytes
  | .remember _ | .retain | .enqueue _ | .dequeue _ | .restart => True

theorem EpochState.canIngest.unpending {state : EpochState} (ready : state.canIngest) (epoch : Nat) :
    state ≠ .pendingPublish epoch := by
  rintro rfl
  cases ready

/-- A task whose moves are all allowed. -/
abbrev Allows {Result : Type} (task : EngineTask Group Result)
    (post : Except (EngineError String) Result → Engine Group → Prop) : Prop :=
  task.Meets (perform net) (Move.Allowed net transport outbox) post engine

/-- A round that has to be followed by another one has used up an incumbent. -/
def Engine.Spends (outcome : Except (EngineError String) IngestRound) (after : Engine Group) :
    Prop :=
  ∀ recovery, outcome = .ok (.again recovery) → after.incumbents.length < engine.incumbents.length

variable {net transport outbox engine} {after : Engine Group}

theorem spends_error {e : EngineError String} : engine.Spends (.error e) after := by
  intro _ again
  cases again

theorem spends_ended {outcome : IngestOutcome} : engine.Spends (.ok (.ended outcome)) after := by
  intro _ again
  cases again

/-! ### Frames -/

variable {record : CommitRecoveryRecord}

section Frames

variable {mls : OpenMls Group}

theorem persist_frame (engine : Engine Group) (id : String) (epoch : Nat) (state : MessageState)
    (payload : StoredMessagePayload) :
    ∃ messages otherRows, engine.persistStoredMessagePayload id epoch state payload =
      engine.withRows messages otherRows := by
  rcases persist_rows engine id epoch state payload with ⟨same, _⟩ | put
  · exact ⟨_, _, same⟩
  · exact ⟨_, _, put⟩

/-- A row is updated in the table of the group, or in that of another one. -/
theorem updateMessageState_frame (engine : Engine Group) (id : String) (state : MessageState) :
    ∃ otherRows, (engine.updateMessageState id state).getD engine =
      engine.withRows ((Darkmatter.updateMessageState engine.storage.live.messages id state).getD
        engine.storage.live.messages) otherRows := by
  rw [Engine.updateMessageState]
  cases Darkmatter.updateMessageState engine.storage.live.messages id state with
  | some => exact ⟨engine.otherRows, rfl⟩
  | none =>
    cases Darkmatter.updateMessageState engine.otherRows id state with
    | some otherRows => exact ⟨otherRows, rfl⟩
    | none => exact ⟨engine.otherRows, rfl⟩

theorem settleMessage_frame (mls : OpenMls Group) (engine : Engine Group) (message : TransportMessage)
    (state : MessageState) :
    ∃ messages otherRows, engine.settleMessage mls message state =
      engine.withRows messages otherRows := by
  obtain ⟨messages, otherRows, stored⟩ := persist_frame engine message.id
    (mls.epoch engine.storage.live.mls) .created (.openmlsWire message)
  obtain ⟨otherRows', updated⟩ :=
    updateMessageState_frame (engine.withRows messages otherRows) message.id state
  rw [Engine.settleMessage, Engine.persistOpenmlsWireMessage, stored]
  exact ⟨_, otherRows', updated⟩

/-- The engine with the group back at the snapshot before a commit that lost. -/
def Engine.rolledBackTo (engine : Engine Group) (record : CommitRecoveryRecord)
    (snapshot : GroupSnapshot Group) (messages otherRows : List MessageRecord) : Engine Group :=
  ({ engine with
    storage :=
      ({ engine.storage with live := snapshot } : GroupStorage Group).releaseGroupSnapshot
        record.snapshotName
    incumbents := engine.incumbents.filter fun other => other.sourceEpoch != record.sourceEpoch
    epochState := .stable record.sourceEpoch } : Engine Group).withRows messages otherRows

/-- A group that is rolled back has the rows and the queue of the snapshot, but for the row of the
commit that lost. -/
theorem resolveForCandidate_frame (mls : OpenMls Group) (message : TransportMessage)
    {snapshot : GroupSnapshot Group}
    (stored : engine.storage.snapshots record.snapshotName = some snapshot) :
    ∃ messages otherRows, engine.resolveForCandidate mls message record =
      engine.rolledBackTo record snapshot messages otherRows ∧
      messages = (Darkmatter.updateMessageState snapshot.messages record.storageId
        .epochInvalidated).getD snapshot.messages := by
  obtain ⟨_, otherRows, persisted⟩ := persist_frame engine message.id
    (mls.epoch engine.storage.live.mls) .created (.openmlsWire message)
  rw [Engine.resolveForCandidate, Engine.persistOpenmlsWireMessage, persisted]
  simp only [Engine.withRows, stored]
  obtain ⟨otherRows', updated⟩ := updateMessageState_frame
    (engine.rolledBackTo record snapshot snapshot.messages otherRows) record.storageId
    .epochInvalidated
  exact ⟨_, otherRows', updated, rfl⟩

end Frames

/-! ### Allowed moves that rest on a call -/

theorem Move.Allowed.staged {message : TransportMessage} {mlsBytes : Bytes}
    {priority : CommitOrderingPriority} {committer : Bytes}
    (allowed : (stage message mlsBytes priority committer).Allowed net transport outbox engine) :
    stageCommit net engine message mlsBytes priority committer =
      some ((stage message mlsBytes priority committer).perform net engine) := by
  obtain ⟨_, isStaged⟩ := Option.isSome_iff_exists.mp allowed.2.1
  rw [perform, isStaged, Option.getD_some]

theorem Move.Allowed.confirmed (allowed : confirm.Allowed net transport outbox engine) :
    confirmPublished net engine = some (confirm.perform net engine) := by
  obtain ⟨_, isConfirmed⟩ := Option.isSome_iff_exists.mp allowed
  rw [perform, isConfirmed, Option.getD_some]

/-- A group that is rolled back has what the snapshot has, but for its rows. -/
theorem Move.Allowed.recovered {message : TransportMessage}
    (allowed : (recover message record).Allowed net transport outbox engine) :
    ∃ snapshot messages otherRows, engine.storage.snapshots record.snapshotName = some snapshot ∧
      (recover message record).perform net engine =
        engine.rolledBackTo record snapshot messages otherRows := by
  obtain ⟨_, _, _, _, snapshot, _, _, stored, _⟩ := allowed
  obtain ⟨messages, otherRows, recovered, _⟩ :=
    resolveForCandidate_frame net message stored
  exact ⟨snapshot, messages, otherRows, stored, recovered⟩

/-! ### Ingest -/

section Ingest

variable {message : TransportMessage} {protocol : ProtocolMessage} {currentEpoch : Nat}

theorem ingestThroughConvergence_meets (admits : engine.Admits net message protocol)
    (nowMs currentEpoch : Nat) :
    Allows net transport outbox engine (ingestThroughConvergence net message nowMs currentEpoch)
      engine.Spends := by
  rw [ingestThroughConvergence, Allows, meets_look_bind]
  cases buffered : bufferOpenmlsConvergenceMessage net engine message nowMs with
  | error => exact spends_error
  | ok next =>
    simp only [meets_act_bind, meets_look_bind, perform, buffered]
    have ready : next.epochState.canIngest := by
      rcases buffer_cases buffered with rfl | ⟨_, _, _, _, rfl⟩ <;> exact admits.ready
    refine ⟨⟨protocol, admits⟩, EpochState.canIngest.unpending ready, ?_⟩
    split
    · exact spends_error
    · exact spends_ended

theorem resolveForkCandidate_meets {epoch : Nat} (admits : engine.Admits net message ⟨.commit, epoch⟩)
    (committed : epoch ∈ engine.committedFrom) (late : epoch < net.epoch engine.storage.live.mls) :
    Allows net transport outbox engine (resolveForkCandidate net message currentEpoch epoch)
      engine.Spends := by
  rw [resolveForkCandidate, Allows, meets_look_bind]
  cases found : engine.incumbent epoch with
  | none => exact ⟨⟨epoch, admits, committed, late, found⟩, spends_error⟩
  | some record =>
    have member : record ∈ engine.incumbents := List.mem_of_find?_eq_some found
    obtain rfl : record.sourceEpoch = epoch := by
      have := List.find?_some found
      simpa using this
    dsimp only
    cases stored : engine.storage.snapshots record.snapshotName with
    | none => exact ⟨⟨_, admits⟩, spends_error⟩
    | some snapshot =>
      dsimp only
      cases ordering : net.commitOrdering snapshot.mls message.payload with
      | none => exact ⟨⟨_, admits⟩, spends_error⟩
      | some metadata =>
        obtain ⟨priority, committer⟩ := metadata
        dsimp only
        split_ifs with smaller
        · refine ⟨⟨admits, member, committed, late, snapshot, priority, committer, stored, ordering,
            smaller⟩, fun recovery _ => ?_⟩
          obtain ⟨_, _, rolledBack, _⟩ := resolveForCandidate_frame net message stored
          rw [perform, rolledBack]
          exact List.length_filter_lt_length_iff_exists.mpr ⟨record, member, by simp⟩
        · exact ⟨⟨_, admits⟩, spends_ended⟩

variable {rawId : String}

section Current

variable (current : currentEpoch = net.epoch engine.storage.live.mls)

include current

theorem settleUnprocessed_meets (raw : transport rawId)
    (admits : engine.Admits net message protocol) (e : ProcessMessageError) :
    Allows net transport outbox engine (settleUnprocessed net rawId message protocol currentEpoch e)
      engine.Spends := by
  cases e with
  | tooDistantInThePast =>
    rw [settleUnprocessed, Allows, meets_act_bind, meets_look_bind]
    refine ⟨⟨protocol, admits⟩, ?_⟩
    split
    · split_ifs
      · exact ⟨raw, spends_ended⟩
      · exact spends_ended
    · exact spends_ended
  | wrongEpoch =>
    rw [settleUnprocessed, Allows, meets_look_bind]
    split_ifs with late
    · obtain ⟨_, _⟩ := protocol
      obtain ⟨rfl, committed, older⟩ := late
      exact resolveForkCandidate_meets admits committed (current ▸ older)
    · exact ⟨⟨protocol, admits⟩, spends_ended⟩
  | useAfterEviction => exact ⟨⟨protocol, admits⟩, spends_ended⟩
  | other => exact ⟨⟨protocol, admits⟩, spends_error⟩

theorem processDirectly_meets (raw : transport rawId) (admits : engine.Admits net message protocol)
    {recovery : Option PendingRecovery}
    (direct : recovery = none → protocol.contentType = .commit →
      ¬ engine.commitShouldEnterConvergence currentEpoch protocol.epoch) :
    Allows net transport outbox engine
      (processDirectly net rawId message protocol currentEpoch recovery) engine.Spends := by
  rw [processDirectly, Allows, meets_look_bind]
  dsimp only
  cases net.processMessageError engine.storage.live.mls message.payload with
  | some e => exact settleUnprocessed_meets current raw admits e
  | none =>
    obtain ⟨kind, epoch⟩ := protocol
    cases kind with
    | application =>
      dsimp only
      cases outcome : net.processApplication engine.storage.live.mls message.payload with
      | processed => exact ⟨⟨admits, outcome⟩, spends_ended⟩
      | ignored => exact ⟨⟨epoch, admits, outcome⟩, spends_ended⟩
      | failed => exact settleUnprocessed_meets current raw admits _
    | commit =>
      dsimp only
      cases outcome : net.processCommit engine.storage.live.mls message.payload with
      | staged priority committer refs =>
        exact ⟨⟨epoch, refs, admits, outcome, fun none => current ▸ direct none rfl⟩, spends_ended⟩
      | unauthorized | invalid => exact ⟨⟨_, admits⟩, spends_error⟩
      | failed => exact settleUnprocessed_meets current raw admits _
    | proposal =>
      dsimp only
      cases net.processProposal engine.storage.live.mls message.payload with
      | stored | externalJoin => exact ⟨⟨_, admits⟩, spends_ended⟩
      | failed => exact settleUnprocessed_meets current raw admits _

variable (raw : transport message.id) (ready : engine.epochState.canIngest) (nowMs : Nat)
  (recovery : Option PendingRecovery)

include raw ready

theorem ingestMlsMessage_meets (mlsBytes : Bytes) :
    Allows net transport outbox engine
      (ingestMlsMessage net message nowMs currentEpoch recovery mlsBytes) engine.Spends := by
  rw [ingestMlsMessage, Allows, meets_look_bind]
  dsimp only
  cases unrecorded : engine.recordedMessageOutcome (net.contentDedupId mlsBytes) with
  | some => exact spends_ended
  | none =>
    dsimp only
    split_ifs with seen sent
    · exact spends_ended
    · exact spends_ended
    have fresh : engine.Fresh (net.contentDedupId mlsBytes) := ⟨unrecorded, seen, sent⟩
    cases decoded : net.decode mlsBytes with
    | error => exact spends_error
    | ok protocol =>
      cases protocol with
      | none => exact ⟨Or.inr ⟨rfl, fresh⟩, spends_ended⟩
      | some protocol =>
        have admits : engine.Admits net
            { message with id := net.contentDedupId mlsBytes, payload := mlsBytes } protocol :=
          ⟨ready, fresh, rfl, decoded⟩
        dsimp only
        split_ifs with waits early
        · exact ingestThroughConvergence_meets admits _ _
        · exact ingestThroughConvergence_meets admits _ _
        · refine processDirectly_meets current raw admits fun none isCommit enters => waits ?_
          exact ⟨by rw [none]; rfl, isCommit, enters⟩

theorem ingestPeeled_meets (content : PeeledContent) :
    Allows net transport outbox engine
      (ingestPeeled net message nowMs currentEpoch recovery content) engine.Spends := by
  cases content with
  | welcome => exact ⟨Or.inl raw, spends_ended⟩
  | mlsMessage bytes => exact ingestMlsMessage_meets current raw ready nowMs recovery bytes

theorem ingestFromSnapshots_meets (state : MessageState) :
    Allows net transport outbox engine
      (ingestFromSnapshots net message nowMs currentEpoch recovery state) engine.Spends := by
  rw [ingestFromSnapshots, Allows, meets_look_bind]
  cases net.tryPeelFromSnapshots engine message
      (engine.availablePastPeelSnapshots currentEpoch) with
  | error e => exact spends_error
  | ok content =>
    cases content with
    | none => exact ⟨Or.inl raw, spends_ended⟩
    | some content => exact ingestPeeled_meets current raw ready nowMs recovery content

end Current

/-- **The moves of a round are allowed.** -/
theorem ingestRound_meets (raw : transport message.id) (nowMs : Nat)
    (recovery : Option PendingRecovery) :
    Allows net transport outbox engine (ingestRound net message nowMs recovery) engine.Spends := by
  rw [ingestRound, Allows, meets_look_bind]
  dsimp only
  split_ifs with inactive unready
  · exact ⟨Or.inl raw, spends_ended⟩
  · exact ⟨Or.inl raw, spends_ended⟩
  have ready : engine.epochState.canIngest := by simpa using unready
  cases net.peelGroupMessage engine.storage.live.mls message with
  | ok content => exact ingestPeeled_meets rfl raw ready nowMs recovery content
  | error e =>
    cases e with
    | decryptFailed => exact ingestFromSnapshots_meets rfl raw ready nowMs recovery _
    | staleEpoch => exact ingestFromSnapshots_meets rfl raw ready nowMs recovery _
    | malformed | missingContext | backend => exact spends_error

theorem ingestRounds_meets (raw : transport message.id) (nowMs rounds : Nat)
    (recovery : Option PendingRecovery) :
    Allows net transport outbox engine (ingestRounds net message nowMs rounds recovery)
      fun _ _ => True := by
  induction rounds generalizing engine recovery with
  | zero => trivial
  | succ rounds ih =>
    rw [ingestRounds, Allows, meets_bind]
    refine (ingestRound_meets raw nowMs recovery).mono (fun _ _ allowed => allowed) ?_
    intro outcome _ _
    cases outcome with
    | error => trivial
    | ok round =>
      cases round with
      | ended => trivial
      | again recovery => exact ih (some recovery)

/-- **The loop of an ingest**, with the number of its rounds: it goes on while rounds end with a
resolved fork, each of which leaves fewer incumbents, and gives the outcome of the last round. -/
inductive IngestLoop (net : Ingress Group) (message : TransportMessage) (nowMs : Nat) :
    Nat → Option PendingRecovery → Engine Group →
      Except (EngineError String) IngestOutcome × Engine Group → Prop
  | failed {recovery : Option PendingRecovery} {engine after : Engine Group}
      {e : EngineError String} :
    (ingestRound net message nowMs recovery).program.run (perform net) engine = (.error e, after) →
      IngestLoop net message nowMs 1 recovery engine (.error e, after)
  | ended {recovery : Option PendingRecovery} {engine after : Engine Group}
      {outcome : IngestOutcome} :
    (ingestRound net message nowMs recovery).program.run (perform net) engine =
        (.ok (.ended outcome), after) →
      IngestLoop net message nowMs 1 recovery engine (.ok outcome, after)
  | again {rounds : Nat} {recovery : Option PendingRecovery} {next : PendingRecovery}
      {engine between : Engine Group}
      {result : Except (EngineError String) IngestOutcome × Engine Group} :
    (ingestRound net message nowMs recovery).program.run (perform net) engine =
        (.ok (.again next), between) →
      between.incumbents.length < engine.incumbents.length →
      IngestLoop net message nowMs rounds (some next) between result →
      IngestLoop net message nowMs (rounds + 1) recovery engine result

theorem ingestRounds_loop (nowMs : Nat) {rounds : Nat} (enough : engine.incumbents.length < rounds)
    (recovery : Option PendingRecovery) :
    ∃ count ≤ engine.incumbents.length + 1, IngestLoop net message nowMs count recovery engine
      ((ingestRounds net message nowMs rounds recovery).program.run (perform net) engine) := by
  induction rounds generalizing engine recovery with
  | zero => cases enough
  | succ rounds ih =>
    have meets : Allows net (fun _ => True) (fun _ => True) engine
        (ingestRound net message nowMs recovery) engine.Spends :=
      ingestRound_meets trivial nowMs recovery
    have spends := (Program.meets_iff.mp meets).2
    rw [ingestRounds, Task.run_bind]
    rcases ran : (ingestRound net message nowMs recovery).program.run (perform net) engine with
      ⟨e | round, after⟩ <;> rw [ran] at spends <;> rw [ran]
    · exact ⟨1, Nat.le_add_left _ _, .failed ran⟩
    · cases round with
      | ended => exact ⟨1, Nat.le_add_left _ _, .ended ran⟩
      | again next =>
        have fewer : after.incumbents.length < engine.incumbents.length := spends next rfl
        obtain ⟨count, few, loop⟩ :=
          ih (Nat.lt_of_lt_of_le fewer (Nat.le_of_lt_succ enough)) (some next)
        exact ⟨count + 1, Nat.succ_le_succ (few.trans fewer), .again ran fewer loop⟩

/-- **An ingest ends.** The loop over the rounds ends after a round for every incumbent and one more at
most, and its outcome is that of the ingest. -/
theorem ingest_rounds_end (net : Ingress Group) (message : TransportMessage) (nowMs : Nat)
    (engine : Engine Group) :
    ∃ rounds ≤ engine.incumbents.length + 1, IngestLoop net message nowMs rounds none engine
      ((ingestGroupMessage net message nowMs).program.run (perform net) engine) :=
  ingestRounds_loop nowMs (Nat.lt_succ_self _) none

/-- **The moves of an ingest are allowed.** -/
theorem ingestGroupMessage_meets (raw : transport message.id) (nowMs : Nat) :
    Allows net transport outbox engine (ingestGroupMessage net message nowMs) fun _ _ => True :=
  ingestRounds_meets raw nowMs _ none

/-- **An inbound message of a session.** -/
theorem doIngest_meets (raw : transport message.id) (nowMs : Nat) :
    Allows net transport outbox engine (doIngest net message nowMs) fun _ _ => True := by
  rw [doIngest, Allows, meets_look_bind]
  cases engine.recordedMessageOutcome message.id with
  | some => trivial
  | none =>
    dsimp only
    split_ifs
    · trivial
    · exact ⟨Or.inl raw, trivial⟩
    · trivial
    rw [meets_bind]
    refine (ingestGroupMessage_meets raw nowMs).mono (fun _ _ allowed => allowed) ?_
    intro outcome _ _
    cases outcome with
    | error => trivial
    | ok =>
      dsimp only
      rw [meets_look_bind]
      split_ifs
      · exact ⟨trivial, trivial⟩
      · trivial

end Ingest

/-! ### Messages that were put aside -/

section Replay

variable {id : String} {Result : Type} {records : List MessageRecord}

/-- The state of a row is written, and the task goes on. -/
theorem updateStoredMessageState_meets {next : Unit → EngineTask Group Result} (raw : transport id)
    (state : MessageState)
    (rest : ∀ after, Allows net transport outbox after (next ()) fun _ _ => True) :
    Allows net transport outbox engine (updateStoredMessageState id state >>= next)
      fun _ _ => True := by
  rw [Allows, meets_bind, updateStoredMessageState, meets_look_bind]
  split
  · trivial
  · exact ⟨raw, rest _⟩

theorem settleFailedReplay_meets (raw : transport id) (e : EngineError String) :
    Allows net transport outbox engine (settleFailedReplay id e : EngineTask Group Result)
      fun _ _ => True := by
  cases e <;> exact updateStoredMessageState_meets raw _ fun _ => trivial

/-- The rows of transport messages that are taken in again. -/
def ReplayableRows (transport : String → Prop) (records : List MessageRecord) : Prop :=
  ∀ record ∈ records, ∀ message, record.payload = .rawTransport message →
    message.id = record.id ∧ (record.state.isReplayed → transport record.id)

/-- A row of a transport message is taken in again, and what is done with its row and with the rows
after it depends on the outcome. -/
theorem replayed_meets {message : TransportMessage} {nowMs : Nat}
    {next : Except (EngineError String) IngestOutcome → EngineTask Group Result}
    (raw : transport message.id)
    (rest : ∀ outcome after, Allows net transport outbox after (next outcome) fun _ _ => True) :
    Allows net transport outbox engine ((ingestGroupMessage net message nowMs).attempt >>= next)
      fun _ _ => True := by
  refine meets_bind.mpr (Program.meets_bind.mpr ?_)
  exact (ingestGroupMessage_meets raw nowMs).mono (fun _ _ allowed => allowed)
    fun outcome after _ => rest outcome after

theorem replayRows_meets (nowMs : Nat) (replayable : ReplayableRows transport records) :
    Allows net transport outbox engine (replayRows net nowMs records) fun _ _ => True := by
  induction records generalizing engine with
  | nil => trivial
  | cons record rest ih =>
    have later : ReplayableRows transport rest :=
      fun other member => replayable other (List.mem_cons_of_mem _ member)
    rw [replayRows]
    split_ifs with put
    · cases payload : record.payload with
      | openmlsWire => exact ih later
      | rawTransport message =>
        obtain ⟨named, known⟩ := replayable record List.mem_cons_self message payload
        have raw : transport record.id := by
          refine known ?_
          rcases put with state | state | state <;> rw [state] <;> rfl
        refine replayed_meets (named ▸ raw) fun outcome after => ?_
        cases outcome with
        | error e => exact settleFailedReplay_meets raw e
        | ok outcome =>
          cases outcome with
          | processed | stale => exact ih later
          | buffered => exact updateStoredMessageState_meets raw _ fun _ => ih later
    · exact ih later

theorem retryRows_meets (nowMs progressed : Nat) (replayable : ReplayableRows transport records) :
    Allows net transport outbox engine (retryRows net nowMs records progressed) fun _ _ => True := by
  induction records generalizing engine progressed with
  | nil => trivial
  | cons record rest ih =>
    have later : ReplayableRows transport rest :=
      fun other member => replayable other (List.mem_cons_of_mem _ member)
    rw [retryRows]
    split_ifs with put
    · cases payload : record.payload with
      | openmlsWire => exact ih progressed later
      | rawTransport message =>
        obtain ⟨named, known⟩ := replayable record List.mem_cons_self message payload
        have raw : transport record.id := known (by rw [put]; rfl)
        refine replayed_meets (named ▸ raw) fun outcome after => ?_
        cases outcome with
        | error e => exact settleFailedReplay_meets raw e
        | ok outcome =>
          cases outcome with
          | processed | buffered => exact updateStoredMessageState_meets raw _ fun _ => ih _ later
          | stale reason =>
            cases reason with
            | peelFailed => exact ih progressed later
            | alreadySeen | alreadyAtEpoch | notForThisClient | unknownGroup | ownEcho =>
              exact updateStoredMessageState_meets raw _ fun _ => ih _ later
    · exact ih progressed later

theorem retryDeferredPeels_meets (nowMs : Nat)
    (replayable : ReplayableRows transport engine.storage.live.messages) :
    Allows net transport outbox engine (retryDeferredPeels net nowMs) fun _ _ => True := by
  rw [retryDeferredPeels, Allows, meets_look_bind]
  split
  · exact retryRows_meets nowMs 0 replayable
  · trivial

end Replay

end Guards

end Darkmatter
