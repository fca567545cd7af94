/-
**Messages are delivered once.**

An application message is delivered right away, or by a pass. What keeps it from being delivered again
is its row: the row of a delivered message is settled, and a message that the client sent has a marker.
The rows outlive a restart, but a fork recovery takes the rows of its snapshot.

* `Move.deliveries` — the messages that a move delivers, and the events that say so;
* `DeliveryHistory` — what was delivered and sent in a session;
* `Move.KeepsRecords` — a rollback that leaves the rows of delivered and sent messages alone;
* `delivered_once` — **no message is delivered twice**, in sessions whose rollbacks do.
-/

import Darkmatter.Engine.Invalidation
import Darkmatter.Engine.Runs

namespace Darkmatter

open Std Lib GroupEvent OpenMls List Prod

/-! ### Deliveries -/

def GroupEvent.isReceived : GroupEvent → Bool
  | .messageReceived .. => true
  | _ => false

/-- The delivery of an application message: the id of its row, and the event. -/
def OpenMlsReplayObservation.delivery : OpenMlsReplayObservation → Option (String × GroupEvent)
  | .applicationProcessed messageId sourceEpoch sender payload _ =>
    some (messageId, .messageReceived sender sourceEpoch payload)
  | _ => none

/-- The MLS bytes of a row, or those of its transport message. -/
def StoredMessagePayload.bytes : StoredMessagePayload → Bytes
  | .openmlsWire message | .rawTransport message => message.payload

open OpenMlsReplayObservation (delivery)

section Model

variable {Group : Type} (mls : OpenMls Group)

/-- **The messages that a move delivers.** -/
def Move.deliveries (engine : Engine Group) : Move Group → List (String × GroupEvent)
  | .deliver message sender epoch payload _ => [(message.id, .messageReceived sender epoch payload)]
  | .converge nowMs =>
    (engine.passObservations mls nowMs).filterMap delivery
  | _ => []

/-- The application messages that a move sends. -/
def Move.sentContents : Move Group → List String
  | .send _ mlsBytes => [mls.contentDedupId mlsBytes]
  | _ => []

/-- What was delivered and sent, under the hashes of the MLS bytes. -/
structure DeliveryHistory where
  delivered : List (String × GroupEvent)
  sent : List String
deriving DecidableEq, Repr

def DeliveryHistory.record (history : DeliveryHistory) (step : Engine Group × Move Group) :
    DeliveryHistory where
  delivered := history.delivered ++ step.2.deliveries mls step.1
  sent := history.sent ++ step.2.sentContents mls

/-- The history of the moves of a session. -/
def deliveryHistory (moves : List (Engine Group × Move Group)) : DeliveryHistory :=
  moves.foldl (DeliveryHistory.record mls) ⟨[], []⟩

def OpenMls.isApplication (bytes : Bytes) : Bool :=
  match mls.decode bytes with
  | .ok (some ⟨.application, _⟩) => true
  | _ => false

/-- The row of an application message that was delivered, or the marker of one that was sent. -/
def OpenMls.marksContent (record : MessageRecord) : Bool :=
  mls.isApplication record.payload.bytes &&
    match record.payload with
    | .openmlsWire _ => record.state == .processed
    | .rawTransport _ => record.state == .sent

/-- **When a rollback keeps the records**: the snapshot that a fork recovery goes back to has the rows
of all messages that were delivered or sent. -/
def Move.KeepsRecords (engine : Engine Group) : Move Group → Prop
  | .recover _ record =>
    ∀ snapshot ∈ engine.storage.snapshots record.snapshotName,
      ∀ row ∈ engine.storage.live.messages, mls.marksContent row → row ∈ snapshot.messages
  | _ => True

/-- The condition as a check. -/
def Move.keepsRecords (engine : Engine Group) : Move Group → Bool
  | .recover _ record => (engine.storage.snapshots record.snapshotName).all fun snapshot =>
    engine.storage.live.messages.all fun row => !mls.marksContent row || row ∈ snapshot.messages
  | _ => true

variable {mls} {engine : Engine Group} {move : Move Group}

theorem Move.keepsRecords.sound (checked : move.keepsRecords mls engine) :
    move.KeepsRecords mls engine := by
  cases move with
  | recover =>
    intro snapshot stored row member marks
    have kept := all_eq_true.mp ((Option.all_eq_true _ _).mp checked snapshot stored) row member
    rw [marks] at kept
    exact of_decide_eq_true kept
  | _ => trivial

end Model

/-! ### The events of deliveries -/

variable {Group : Type} {transport outbox : String → Prop}

section Events

variable {net : Ingress Group} {engine : Engine Group}

theorem filter_applicationReplayEvents (observations : List OpenMlsReplayObservation) :
    (applicationReplayEvents observations).filter isReceived =
      (observations.filterMap delivery).map snd := by
  rw [applicationReplayEvents, map_filterMap, filter_eq_self.mpr]
  · congr 1
    funext observation
    cases observation <;> rfl
  · intro _ member
    obtain ⟨observation, _, emitted⟩ := mem_filterMap.mp member
    cases observation <;> cases emitted
    rfl

theorem applied_received (engine : Engine Group) (result : CanonicalizationResult)
    (observations : List OpenMlsReplayObservation) (storage : GroupStorage Group) :
    (engine.applied result observations storage).events.filter isReceived =
      engine.events.filter isReceived ++ (observations.filterMap delivery).map snd := by
  have invalidated : (invalidatedAppEvents result).filter isReceived = [] := by
    refine filter_eq_nil_iff.mpr fun event member => ?_
    obtain ⟨_, _, emitted⟩ := mem_filterMap.mp member
    split_ifs at emitted
    cases emitted
    simp [isReceived]
  have rolledBack : (rolledBackCommitEvents result).filter isReceived = [] := by
    refine filter_eq_nil_iff.mpr fun event member => ?_
    obtain ⟨_, _, emitted⟩ := mem_filterMap.mp member
    split_ifs at emitted
    cases emitted
    simp [isReceived]
  rw [Engine.applied]
  simp only [filter_append, filter_applicationReplayEvents, invalidated, rolledBack, append_nil]
  split
  · split_ifs <;> simp [isReceived]
  · simp

variable {mls : OpenMls Group}

/-- **The events say what was delivered.** -/
theorem Engine.SoundSession.perform_received (laws : net.Laws)
    (sound : engine.SoundSession net transport) {move : Move Group}
    (allowed : move.Allowed net transport outbox engine) :
    (move.perform net engine).events.filter isReceived =
      engine.events.filter isReceived ++ (move.deliveries net engine).map snd := by
  by_cases isPass : ∃ nowMs, move = .converge nowMs
  · obtain ⟨nowMs, rfl⟩ := isPass
    have effect := sound.converge_cases laws.toEpochLaws nowMs
    rw [Move.perform, Move.deliveries]
    generalize convergeStoredOpenmlsMessages net engine nowMs = ended at effect ⊢
    generalize engine.passObservations net nowMs = observed at effect ⊢
    obtain ⟨_, _⟩ := ended
    dsimp only at effect ⊢
    cases effect with
    | halted | refused | waiting => simp
    | lost => simp [isReceived]
    | failed _ _ kept => rcases kept with rfl | rfl <;> simp
    | idle | moved => exact applied_received _ _ _ _
  · rw [allowed.events fun nowMs same => isPass ⟨nowMs, same⟩, filter_append]
    congr 1
    cases move with
    | converge nowMs => exact absurd ⟨nowMs, rfl⟩ isPass
    | applyCommit _ _ _ _ recovery => cases recovery <;> rfl
    | confirm =>
      rw [Move.emits]
      split <;> rfl
    | _ => rfl

end Events

/-! ### What a pass delivers -/

section Passes

variable {mls : OpenMls Group}

/-- A replay delivers application messages that OpenMLS decrypts, each of them once. -/
theorem replay_deliveries {group : Group} {messages : List TransportMessage}
    {output : OpenMlsReplayOutput Group}
    (replayed : mls.processOpenmlsMessagesInner group messages = .ok output) :
    ((output.observations.filterMap delivery).map fst).Sublist
        (messages.map TransportMessage.id) ∧
      ∀ id ∈ (output.observations.filterMap delivery).map fst,
        ∃ message ∈ messages, message.id = id ∧ mls.isApplication message.payload ∧
          ∃ state sender payload next,
            mls.processApplication state message.payload = .processed sender payload next := by
  induction messages generalizing group output with
  | nil =>
    cases replayed
    exact ⟨List.Sublist.refl _, by simp⟩
  | cons message rest ih =>
    obtain ⟨_, next, later, first, replays, rfl⟩ :=
      processOpenmlsMessagesInner_cons_ok.mp replayed
    obtain ⟨sublist, decrypted⟩ := ih replays
    have widened : ∀ id ∈ (later.observations.filterMap
        delivery).map fst,
        ∃ other ∈ message :: rest, other.id = id ∧ mls.isApplication other.payload ∧
          ∃ state sender payload next,
            mls.processApplication state other.payload = .processed sender payload next := by
      intro id member
      obtain ⟨other, known, facts⟩ := decrypted id member
      exact ⟨other, mem_cons_of_mem _ known, facts⟩
    cases OpenMls.Processed.of_ok first with
    | application decoded decrypts =>
      refine ⟨sublist.cons_cons _, fun id member => ?_⟩
      rcases mem_cons.mp member with rfl | old
      · exact ⟨message, mem_cons_self, rfl, by rw [OpenMls.isApplication, decoded],
          _, _, _, _, decrypts⟩
      · exact widened id old
    | _ => exact ⟨sublist.cons _, widened⟩

end Passes

/-! ### The records of contents -/

variable {reported : Except OpenMlsProjectionError CanonicalizationResult}
  {observed : List OpenMlsReplayObservation}

section Records

variable (net : Ingress Group) (wire : Bytes → Prop)

/-- **What deliveries rest on**: the hashes of the contents that occur do not collide, and OpenMLS does
not decrypt what the client made itself. -/
structure Ingress.DeliveryLaws : Prop extends net.Laws where
  collisionFree : ∀ {first second : Bytes}, wire first → wire second →
    net.contentDedupId first = net.contentDedupId second → first = second
  undecrypted : ∀ {bytes : Bytes}, net.Own bytes → ∀ state sender payload next,
    net.processApplication state bytes ≠ .processed sender payload next

/-- The ids that the transport gives to messages are not hashes of the contents. -/
def Ingress.Apart (transport outbox : String → Prop) : Prop :=
  ∀ id bytes, transport id ∨ outbox id → wire bytes → id ≠ net.contentDedupId bytes

def Engine.Carries (engine : Engine Group) : Prop :=
  ∀ record ∈ engine.storage.live.messages, wire record.payload.bytes

/-- The message that a move merges right away, stages or sends. -/
def Move.content? : Move Group → Option Bytes
  | .applyCommit message _ _ _ _ => some message.payload
  | .stage _ mlsBytes _ _ | .send _ mlsBytes => some mlsBytes
  | _ => none

/-- **The contents that occur in a move**: those of the rows that it leaves, and its message. -/
def Move.Carries (engine : Engine Group) (move : Move Group) : Prop :=
  (move.perform net engine).Carries wire ∧ ∀ bytes ∈ move.content?, wire bytes

/-- The storage id of a commit: one of the transport, or the hash of its bytes. -/
def Ingress.NamesCommit (outbox : String → Prop) (id : String) : Prop :=
  outbox id ∨ ∃ bytes epoch, wire bytes ∧ id = net.contentDedupId bytes ∧
    net.decode bytes = .ok (some ⟨.commit, epoch⟩)

/-- The commits that the group may go back from are stored under ids of commits. -/
structure Engine.NamesCommits (outbox : String → Prop) (engine : Engine Group) : Prop where
  incumbents : ∀ record ∈ engine.incumbents, net.NamesCommit wire outbox record.storageId
  pending : ∀ pending, engine.pendingCommit = some pending →
    net.NamesCommit wire outbox pending.record.storageId

/-- The group has the record of a content. -/
def Engine.Records (engine : Engine Group) (id : String) (bytes : Bytes) : Prop :=
  id = net.contentDedupId bytes ∧ ∃ record ∈ engine.storage.live.messages,
    record.id = id ∧ net.marksContent record ∧ record.payload.bytes = bytes

variable {net wire} {engine : Engine Group} {id : String} {bytes : Bytes}

theorem isApplication_iff :
    net.isApplication bytes ↔ ∃ epoch, net.decode bytes = .ok (some ⟨.application, epoch⟩) := by
  rw [OpenMls.isApplication]
  constructor
  · intro isApplication
    split at isApplication
    · rename_i epoch decoded
      exact ⟨epoch, decoded⟩
    · cases isApplication
  · rintro ⟨_, decoded⟩
    rw [decoded]

variable {other : String} {after : Engine Group} {epoch : Nat} {state : MessageState}
  {payload : StoredMessagePayload} {message : TransportMessage} {nowMs : Nat} {mlsBytes : Bytes}
  {move : Move Group}

theorem Engine.NamesCommits.merges {record : CommitRecoveryRecord} {oldestRetainedEpoch : Nat}
    (commits : engine.NamesCommits net wire outbox)
    (merges : engine.Merges after record oldestRetainedEpoch)
    (named : net.NamesCommit wire outbox record.storageId) :
    ∀ other ∈ after.incumbents, net.NamesCommit wire outbox other.storageId := by
  intro other member
  rw [merges.incumbents] at member
  rcases mem_cons.mp (mem_filter.mp member).1 with rfl | old
  · exact named
  · exact commits.incumbents other (mem_filter.mp old).1

variable (records : engine.Records net id bytes)

include records

theorem Engine.Records.isApplication : net.isApplication bytes := by
  obtain ⟨_, _, _, _, marks, rfl⟩ := records
  rw [marksContent, Bool.and_eq_true] at marks
  exact marks.1

theorem Engine.Records.known (carries : engine.Carries wire) : wire bytes := by
  obtain ⟨_, record, member, _, _, rfl⟩ := records
  exact carries record member

theorem Engine.Records.ne_of_commit (carries : engine.Carries wire) (laws : net.DeliveryLaws wire)
    (apart : net.Apart wire transport outbox) (commit : net.NamesCommit wire outbox other) :
    id ≠ other := by
  rw [records.1]
  intro named
  rcases commit with isOutbox | ⟨_, _, occurs, hash, decoded⟩
  · exact apart _ bytes (Or.inr isOutbox) (records.known carries) named.symm
  · obtain ⟨_, application⟩ := isApplication_iff.mp records.isApplication
    rw [laws.collisionFree (records.known carries) occurs (named.trans hash), decoded] at application
    cases application

variable (sound : engine.SoundSession net transport)

include sound

theorem Engine.Records.recorded :
    ∃ reason, engine.recordedMessageOutcome id = some (.stale reason) := by
  obtain ⟨_, record, member, rfl, marks, _⟩ := records
  rw [Engine.recordedMessageOutcome, sound.live.rows.engine_getMessage member]
  rw [marksContent, Bool.and_eq_true] at marks
  cases payload : record.payload with
  | openmlsWire =>
    simp only [payload, beq_iff_eq] at marks
    simp only [marks.2]
    exact ⟨_, rfl⟩
  | rawTransport =>
    simp only [payload, beq_iff_eq] at marks
    simp only [marks.2]
    exact ⟨_, rfl⟩

theorem Engine.Records.ne_of_fresh (fresh : engine.Fresh other) : id ≠ other := by
  rintro rfl
  obtain ⟨_, recorded⟩ := records.recorded sound
  rw [fresh.unrecorded] at recorded
  cases recorded

omit records sound in
/-- A pass does not read the records. -/
theorem marksContent_unread {record : MessageRecord} (marks : net.marksContent record)
    (message : TransportMessage) (wire : record.wireMessage = some message) :
    net.kindOf message ≠ some .commit ∧ ¬ recordStateIsCanonicalizationInput record.state := by
  rw [marksContent, Bool.and_eq_true, wireMessage_payload wire] at marks
  simp only [beq_iff_eq, StoredMessagePayload.bytes] at marks
  obtain ⟨_, decoded⟩ := isApplication_iff.mp marks.1
  refine ⟨fun commit => ?_, by rw [marks.2]; exact Bool.false_ne_true⟩
  obtain ⟨_, other⟩ := kindOf_eq_some.mp commit
  rw [decoded] at other
  cases other

/-- **A move keeps the records**, unless it goes back to a snapshot that does not have them. -/
theorem Engine.Records.perform (carries : engine.Carries wire)
    (carried : move.Carries net wire engine) (laws : net.DeliveryLaws wire)
    (apart : net.Apart wire transport outbox) (allowed : move.Allowed net transport outbox engine)
    (commits : engine.NamesCommits net wire outbox) (keeps : move.KeepsRecords net engine)
    (news : ∀ message mlsBytes, move = .send message mlsBytes →
      engine.getMessage (net.contentDedupId mlsBytes) = none) :
    (move.perform net engine).Records net id bytes := by
  have unnamed {other : String} (named : transport other ∨ outbox other) : id ≠ other := by
    rw [records.1]
    exact (apart other bytes named (records.known carries)).symm
  have found := records
  obtain ⟨hash, old, member, same, marks, content⟩ := found
  have source : old ∈ move.rows engine := by
    cases move with
    | recover message record =>
      obtain ⟨_, _, _, _, snapshot, _, _, stored, _⟩ := allowed
      rw [Move.rows, stored]
      exact keeps snapshot stored old member marks
    | _ => exact member
  obtain ⟨new, isNew, sameId, rewrites⟩ := sound.rewrites laws.toLaws allowed source
  suffices stays : new = old by
    subst stays
    exact ⟨hash, new, isNew, same, marks, content⟩
  cases rewrites with
  | kept => rfl
  | transport named =>
    refine absurd (same.symm.trans named) ?_
    rcases allowed with known | ⟨_, fresh⟩
    · exact unnamed (Or.inl known)
    · exact records.ne_of_fresh sound fresh
  | updated => exact absurd same.symm (unnamed (Or.inl allowed))
  | opened fresh => exact absurd same.symm (records.ne_of_fresh sound fresh)
  | sent sends named =>
    rcases named with isMessage | isMarker
    · refine absurd (same.symm.trans isMessage) (unnamed (Or.inr ?_))
      cases move <;> cases sends <;> exact allowed.1
    · cases move with
      | stage =>
        cases sends
        obtain ⟨_, isMerged⟩ := Option.isSome_iff_exists.mp allowed.2.2
        obtain ⟨_, decoded⟩ := isApplication_iff.mp records.isApplication
        rw [laws.collisionFree (records.known carries) (carried.2 _ rfl)
          (hash.symm.trans (same.symm.trans isMarker)), laws.own isMerged] at decoded
        cases decoded
      | send =>
        cases sends
        have found := sound.live.rows.engine_getMessage member
        rw [isMarker, news _ _ rfl] at found
        cases found
      | _ => cases sends
  | passed decision =>
    rw [decision.spares sound member (marksContent_unread marks), Option.getD_none]
  | confirmed waits named =>
    exact absurd (same.symm.trans named)
      (records.ne_of_commit carries laws apart (commits.pending _ waits))
  | rolledBack named =>
    exact absurd (same.symm.trans named)
      (records.ne_of_commit carries laws apart (commits.incumbents _ allowed.2.1))

omit records in
theorem Engine.NamesCommits.perform (laws : net.Laws) (carried : move.Carries net wire engine)
    (commits : engine.NamesCommits net wire outbox)
    (allowed : move.Allowed net transport outbox engine) :
    (move.perform net engine).NamesCommits net wire outbox := by
  by_cases spares : move.sparesRegister
  · have same := sound.sameRecoveries laws spares
    exact ⟨same.incumbents ▸ commits.incumbents, same.pendingCommit ▸ commits.pending⟩
  cases move with
  | applyCommit message priority committer merged recovery =>
    obtain ⟨epoch, _, admits, _⟩ := allowed
    obtain ⟨pendingCommit, _, _, storageId, merges⟩ :=
      applyStagedCommit_register admits priority committer merged recovery
    refine ⟨commits.merges merges ?_, pendingCommit ▸ commits.pending⟩
    rw [storageId]
    exact Or.inr ⟨message.payload, epoch, carried.2 _ rfl, admits.named, admits.decoded⟩
  | recover =>
    obtain ⟨_, _, _, _, recovered⟩ := allowed.recovered
    rw [recovered]
    exact ⟨fun other member => commits.incumbents other (mem_filter.mp member).1, commits.pending⟩
  | stage =>
    obtain ⟨_, incumbents, pending, waits, _, _, storageId⟩ := stageCommit_register allowed.staged
    refine ⟨incumbents ▸ commits.incumbents, fun other waits' => ?_⟩
    rw [waits] at waits'
    cases waits'
    rw [storageId]
    exact Or.inl allowed.1
  | confirm =>
    obtain ⟨unpending, pending, waits, merges⟩ := confirmPublished_register allowed.confirmed
    refine ⟨commits.merges merges (commits.pending pending waits), fun other waits' => ?_⟩
    rw [unpending] at waits'
    cases waits'
  | abandon =>
    obtain ⟨unpending, _, incumbents⟩ := abandonPublish_register net engine
    refine ⟨incumbents ▸ commits.incumbents, fun other waits => ?_⟩
    rw [Move.perform, unpending] at waits
    cases waits
  | restart => exact ⟨fun _ member => (not_mem_nil member).elim, by rintro pending ⟨⟩⟩
  | _ => exact absurd rfl spares

end Records

/-! ### Sessions -/

section Sessions

variable {net : Ingress Group} {engine : Engine Group}

/-- The client makes bytes that no row has yet. -/
def Move.MakesNews (net : Ingress Group) (engine : Engine Group) : Move Group → Prop
  | .send _ mlsBytes => engine.getMessage (net.contentDedupId mlsBytes) = none
  | _ => True

def Move.makesNews (net : Ingress Group) (engine : Engine Group) : Move Group → Bool
  | .send _ mlsBytes => (engine.getMessage (net.contentDedupId mlsBytes)).isNone
  | _ => true

theorem Move.makesNews.sound {move : Move Group} (checked : move.makesNews net engine) :
    move.MakesNews net engine := by
  cases move with
  | send => exact Option.isNone_iff_eq_none.mp checked
  | _ => trivial

theorem records_wire (after : Engine Group) {record : MessageRecord} {message : TransportMessage}
    (member : record ∈ after.storage.live.messages) (payload : record.payload = .openmlsWire message)
    (state : record.state = .processed) (isApplication : net.isApplication message.payload)
    (named : record.id = net.contentDedupId message.payload) :
    after.Records net record.id message.payload := by
  refine ⟨named, record, member, rfl, ?_, by rw [payload]; rfl⟩
  simp [marksContent, payload, StoredMessagePayload.bytes, isApplication, state]

theorem persist_unknown {id other : String} {epoch : Nat} {state : MessageState}
    {payload : StoredMessagePayload}
    (distinct : (engine.storage.live.messages.map MessageRecord.id).Nodup)
    (unknown : engine.getMessage id = none) (different : id ≠ other) :
    (engine.persistStoredMessagePayload other epoch state payload).getMessage id = none := by
  rcases persist_rows engine other epoch state payload with ⟨same, _⟩ | put
  · rw [same]
    exact unknown
  · rw [Engine.getMessage, Darkmatter.getMessage, find?_eq_none] at unknown ⊢
    intro record member
    rw [put, Engine.putMessage] at member
    rcases mem_append.mp member with isLive | isOther
    · rcases (mem_putMessage distinct).mp isLive with rfl | ⟨old, _⟩
      · simpa using different.symm
      · exact unknown record (mem_append_left _ old)
    · exact unknown record (mem_append_right _ (mem_filter.mp isOther).1)

section Steps

variable {move : Move Group} (sound : engine.SoundSession net transport)

include sound

/-- **What a pass delivers is news**, and has a record afterwards. -/
theorem Engine.SoundSession.pass_deliveries (laws : net.DeliveryLaws wire) {nowMs : Nat}
    {after : Engine Group} (effect : PassEffect net engine nowMs reported observed after) :
    ((observed.filterMap delivery).map fst).Nodup ∧
      ∀ id ∈ (observed.filterMap delivery).map fst,
        (∀ bytes, ¬ engine.Records net id bytes) ∧
          ∃ bytes, after.Records net id bytes ∧ ¬ net.Own bytes := by
  cases effect with
  | halted | refused | waiting | lost | failed | idle => exact ⟨nodup_nil, by simp⟩
  | @moved result group tip start path before messages output decision quiet selected ended accepted
      reached proposals applications begins replayed delivers =>
    obtain ⟨front, _, first, second, rfl⟩ :=
      processOpenmlsMessagesInner_append_ok.mp replayed
    have silent : front.observations.filterMap delivery = [] := by
      refine eq_nil_iff_forall_not_mem.mpr fun delivery member => ?_
      obtain ⟨message, isReplayed, _, isApplication, _⟩ :=
        (replay_deliveries first).2 delivery.1 (mem_map_of_mem member)
      obtain ⟨_, decoded⟩ := isApplication_iff.mp isApplication
      have other {kind : ContentType} (isKind : net.kindOf message = some kind) :
          kind = .application := by
        obtain ⟨_, same⟩ := kindOf_eq_some.mp isKind
        rw [decoded] at same
        cases same
        rfl
      rcases mem_append.mp isReplayed with isBefore | isPath
      · cases other (proposals message isBefore)
      · rw [← commitsOf_path sound.live.rows ended proposals applications] at isPath
        cases other (by simpa using (mem_filter.mp isPath).2)
    obtain ⟨sublist, decrypted⟩ := replay_deliveries second
    simp only [filterMap_append, silent, nil_append]
    have distinct := decision.outcome.replayIds_nodup sound.live.rows
    rw [CanonicalizationResult.replayIds] at distinct
    refine ⟨(sublist.nodup (delivers.ids ▸ (nodup_append.mp distinct).2.1)), ?_⟩
    intro id member
    obtain ⟨message, isDelivered, rfl, isApplication, state, sender, payload, next, processed⟩ :=
      decrypted id member
    obtain ⟨record, isLive, wire, input⟩ := delivers.pending message isDelivered
    have same : message.id = record.id := (sound.live.rows.stored record isLive message wire).1
    have foreign : ¬ net.Own message.payload :=
      fun own => laws.undecrypted own state sender payload next processed
    have named : record.id = net.contentDedupId message.payload :=
      (sound.live.named record isLive message wire).resolve_right foreign
    constructor
    · rintro _ ⟨_, _, isOther, sameId, marks, _⟩
      obtain rfl := inj_on_of_nodup_map sound.live.rows.ids isOther isLive (sameId.trans same)
      rw [marksContent, wire] at marks
      simp only [Bool.and_eq_true, beq_iff_eq] at marks
      rw [marks.2] at input
      cases input
    · refine ⟨message.payload, ?_, foreign⟩
      obtain ⟨_, kept, _⟩ := startingAt_rows sound.live.rows sound.anchors start
      have isAccepted : record.id ∈ result.acceptedIds := by
        rw [CanonicalizationResult.acceptedIds, ← same]
        exact mem_append_right _ (delivers.ids ▸ mem_map_of_mem isDelivered)
      have settled := stateByMessageId_accepted isAccepted
      have row : ({ record with state := .processed } : MessageRecord) ∈
          result.settledRows (engine.storage.startingAt start).messages :=
        mem_map.mpr ⟨record, kept record isLive, by rw [settled]; rfl⟩
      rw [same]
      exact @records_wire _ net _ { record with state := .processed } message row wire rfl
        isApplication named

/-- **What a move delivers is news**, and has a record afterwards. -/
theorem Engine.SoundSession.deliveries_new (laws : net.DeliveryLaws wire)
    (allowed : move.Allowed net transport outbox engine) :
    ((move.deliveries net engine).map fst).Nodup ∧
      ∀ id ∈ (move.deliveries net engine).map fst,
        (∀ bytes, ¬ engine.Records net id bytes) ∧
          ∃ bytes, (move.perform net engine).Records net id bytes ∧ ¬ net.Own bytes := by
  cases move with
  | converge nowMs => exact sound.pass_deliveries laws (sound.converge_cases laws.toEpochLaws nowMs)
  | deliver message sender epoch payload group =>
    obtain ⟨admits, processed⟩ := allowed
    refine ⟨nodup_singleton _, fun id member => ?_⟩
    obtain rfl := mem_singleton.mp member
    refine ⟨fun bytes records => records.ne_of_fresh sound admits.fresh rfl, message.payload, ?_,
      fun own => laws.undecrypted own _ _ _ _ processed⟩
    have row : (⟨message.id, engine.groupId, net.epoch engine.storage.live.mls, .processed,
        .openmlsWire message⟩ : MessageRecord) ∈
        ((Move.deliver message sender epoch payload group).perform net
          engine).storage.live.messages := by
      rw [Move.perform, Engine.deliverMessage, admits.fresh.settled]
      exact (mem_putMessage sound.live.rows.ids).mpr (Or.inl rfl)
    exact records_wire _ row rfl rfl (isApplication_iff.mpr ⟨epoch, admits.decoded⟩) admits.named
  | _ => exact ⟨nodup_nil, fun _ member => (not_mem_nil member).elim⟩

/-- **What a move sends has a record.** -/
theorem Engine.SoundSession.sent_recorded (laws : net.DeliveryLaws wire)
    (apart : net.Apart wire transport outbox) {message : TransportMessage} {mlsBytes : Bytes}
    (allowed : (Move.send message mlsBytes : Move Group).Allowed net transport outbox engine)
    (occurs : wire mlsBytes)
    (news : engine.getMessage (net.contentDedupId mlsBytes) = none) :
    ((Move.send message mlsBytes).perform net engine).Records net
      (net.contentDedupId mlsBytes) mlsBytes := by
  obtain ⟨named, _, made⟩ := allowed
  have different : net.contentDedupId mlsBytes ≠ message.id :=
    (apart message.id mlsBytes (Or.inr named) occurs).symm
  refine ⟨rfl, ⟨net.contentDedupId mlsBytes, engine.groupId, net.epoch engine.storage.live.mls,
    .sent, .rawTransport { message with payload := mlsBytes, id := net.contentDedupId mlsBytes }⟩,
    ?_, rfl, ?_, rfl⟩
  · rw [Move.perform, Engine.recordSentOpenmlsMessage]
    dsimp only
    rw [if_neg different]
    have groupId : (engine.persistStoredMessagePayload message.id
        (net.epoch engine.storage.live.mls) .sent
        (.openmlsWire { message with payload := mlsBytes })).groupId = engine.groupId := by
      obtain ⟨_, _, stored⟩ := persist_frame engine message.id (net.epoch engine.storage.live.mls)
        .sent (.openmlsWire { message with payload := mlsBytes })
      rw [stored]
      rfl
    rcases persist_rows (engine.persistStoredMessagePayload message.id
        (net.epoch engine.storage.live.mls) .sent (.openmlsWire { message with payload := mlsBytes }))
      (net.contentDedupId mlsBytes) (net.epoch engine.storage.live.mls) .sent
      (.rawTransport { message with payload := mlsBytes, id := net.contentDedupId mlsBytes }) with
      ⟨_, previous, found, _⟩ | put
    · rw [persist_unknown sound.live.rows.ids news different] at found
      cases found
    · rw [put, groupId]
      exact (mem_putMessage (persist_nodup sound.live.rows.ids)).mpr (Or.inl rfl)
  · simp [marksContent, StoredMessagePayload.bytes, isApplication_iff.mpr ⟨_, laws.created made⟩]

/-- **The history of a sound session.** -/
structure DeliveryHistory.Sound (net : Ingress Group) (wire : Bytes → Prop)
    (outbox : String → Prop) (history : DeliveryHistory) (engine : Engine Group) : Prop where
  once : (history.delivered.map fst).Nodup
  delivered : ∀ id ∈ history.delivered.map fst,
    ∃ bytes, engine.Records net id bytes ∧ ¬ net.Own bytes
  sent : ∀ id ∈ history.sent, ∃ bytes, engine.Records net id bytes ∧ net.Own bytes
  commits : engine.NamesCommits net wire outbox
  carries : engine.Carries wire

variable {history : DeliveryHistory}

/-- **A move keeps the history sound.** -/
theorem DeliveryHistory.Sound.perform (laws : net.DeliveryLaws wire)
    (apart : net.Apart wire transport outbox)
    (allowed : move.Allowed net transport outbox engine) (carried : move.Carries net wire engine)
    (keeps : move.KeepsRecords net engine) (news : move.MakesNews net engine)
    (holds : history.Sound net wire outbox engine) :
    (history.record net (engine, move)).Sound net wire outbox
      (move.perform net engine) := by
  have stays {id : String} {bytes : Bytes} (records : engine.Records net id bytes) :
      (move.perform net engine).Records net id bytes := by
    refine records.perform sound holds.carries carried laws apart allowed holds.commits keeps ?_
    rintro message mlsBytes rfl
    exact news
  obtain ⟨distinct, fresh⟩ := sound.deliveries_new laws allowed
  refine ⟨?_, fun id member => ?_, fun id member => ?_,
    holds.commits.perform sound laws.toLaws carried allowed, carried.1⟩
  · rw [DeliveryHistory.record, map_append]
    refine nodup_append.mpr ⟨holds.once, distinct, ?_⟩
    rintro id old _ new rfl
    obtain ⟨bytes, records, _⟩ := holds.delivered id old
    exact (fresh id new).1 bytes records
  · rw [DeliveryHistory.record, map_append] at member
    rcases mem_append.mp member with old | new
    · obtain ⟨bytes, records, foreign⟩ := holds.delivered id old
      exact ⟨bytes, stays records, foreign⟩
    · exact (fresh id new).2
  · rcases mem_append.mp member with old | new
    · obtain ⟨bytes, records, own⟩ := holds.sent id old
      exact ⟨bytes, stays records, own⟩
    · cases move with
      | send message mlsBytes =>
        obtain rfl := mem_singleton.mp new
        exact ⟨mlsBytes, sound.sent_recorded laws apart allowed (carried.2 _ rfl) news, _,
          Or.inl allowed.2.2⟩
      | _ => exact (not_mem_nil new).elim

/-- **Delivered at most once**: the events of a group are those of the deliveries, no content is
delivered twice or after it was sent, and what was delivered or sent is not taken in again. -/
structure DeliveryHistory.AtMostOnce (net : Ingress Group) (first : Engine Group)
    (history : DeliveryHistory) (engine : Engine Group) : Prop where
  events : engine.events.filter isReceived =
    first.events.filter isReceived ++ history.delivered.map snd
  once : (history.delivered.map fst).Nodup
  contents : ∀ id ∈ history.delivered.map fst,
    ∃ bytes, id = net.contentDedupId bytes ∧ net.isApplication bytes
  echoes : ∀ id ∈ history.sent, id ∉ history.delivered.map fst
  recorded : ∀ id, id ∈ history.delivered.map fst ∨ id ∈ history.sent →
    ∃ reason, engine.recordedMessageOutcome id = some (.stale reason)

theorem DeliveryHistory.Sound.atMostOnce {first : Engine Group} (laws : net.DeliveryLaws wire)
    (holds : history.Sound net wire outbox engine)
    (events : engine.events.filter isReceived =
      first.events.filter isReceived ++ history.delivered.map snd) :
    history.AtMostOnce net first engine where
  events := events
  once := holds.once
  contents := by
    intro id member
    obtain ⟨bytes, records, _⟩ := holds.delivered id member
    exact ⟨bytes, records.1, records.isApplication⟩
  echoes := by
    intro id isSent isDelivered
    obtain ⟨_, made, own⟩ := holds.sent id isSent
    obtain ⟨_, taken, foreign⟩ := holds.delivered id isDelivered
    have same := laws.collisionFree (made.known holds.carries) (taken.known holds.carries)
      (made.1.symm.trans taken.1)
    exact foreign (same ▸ own)
  recorded := by
    rintro id (isDelivered | isSent)
    · obtain ⟨_, records, _⟩ := holds.delivered id isDelivered
      exact records.recorded sound
    · obtain ⟨_, records, _⟩ := holds.sent id isSent
      exact records.recorded sound

end Steps

/-- **Every message is delivered at most once**, in every session that starts without a commit of its
own to go back from and whose rollbacks keep the records: before every move and at the end. -/
theorem delivered_once {steps : List SessionStep} (laws : net.DeliveryLaws wire)
    (apart : net.Apart wire transport outbox) (sound : engine.SoundSession net transport)
    (named : ∀ step ∈ steps, step.Names transport outbox)
    (begins : engine.incumbents = [] ∧ engine.pendingCommit = none) (carries : engine.Carries wire)
    (carried : ∀ step ∈ engine.moves net steps, step.2.Carries net wire step.1)
    (news : ∀ step ∈ engine.moves net steps, step.2.MakesNews net step.1)
    (keeps : ∀ step ∈ engine.moves net steps, step.2.KeepsRecords net step.1) :
    (∀ before state move after, engine.moves net steps = before ++ (state, move) :: after →
      (deliveryHistory net before).AtMostOnce net engine state) ∧
    (deliveryHistory net (engine.moves net steps)).AtMostOnce net engine
      (engine.session net steps) := by
  obtain ⟨sounds, lastSound⟩ := session_sound sound laws.toLaws named
  have follows := session_follows net engine steps
  have holds {moves : List (Engine Group × Move Group)} {last : Engine Group}
      (follows : Follows (Move.perform net) engine moves last)
      (within : ∀ step ∈ moves, step ∈ engine.moves net steps) :
      (deliveryHistory net moves).Sound net wire outbox last ∧
        last.events.filter GroupEvent.isReceived =
          engine.events.filter GroupEvent.isReceived ++
            (deliveryHistory net moves).delivered.map snd := by
    refine follows.invariant (DeliveryHistory.record net)
      (fun history state => history.Sound net wire outbox state ∧
        state.events.filter GroupEvent.isReceived =
          engine.events.filter GroupEvent.isReceived ++ history.delivered.map snd) ?_ ?_
    · refine ⟨⟨nodup_nil, by simp, by simp, ⟨?_, ?_⟩, carries⟩, by simp⟩
      · simp [begins.1]
      · simp [begins.2]
    · rintro before step after split ⟨history, events⟩
      have member : step ∈ engine.moves net steps := within step (by simp [split])
      obtain ⟨isSound, allowed⟩ := sounds step member
      refine ⟨history.perform isSound laws apart allowed (carried step member) (keeps step member)
        (news step member), ?_⟩
      rw [isSound.perform_received laws.toLaws allowed, events, DeliveryHistory.record,
        map_append, append_assoc]
  constructor
  · intro before state move after here
    have isSound := (sounds (state, move) (by simp [here])).1
    rw [here] at follows
    obtain ⟨history, events⟩ := holds follows.until fun step member => by simp [here, member]
    exact history.atMostOnce isSound laws events
  · obtain ⟨history, events⟩ := holds follows fun _ member => member
    exact history.atMostOnce lastSound laws events

end Sessions

/-! ### A message that comes twice -/

def isHexDigit (c : Char) : Bool := c.isDigit || ('a' ≤ c && c ≤ 'f')

theorem hexEncode_digits {bytes : Bytes} {c : Char} (member : c ∈ (hexEncode bytes).toList) :
    isHexDigit c := by
  have digits : ∀ n < 16, isHexDigit (Nat.digitChar n) := by decide
  rw [hexEncode, String.toList_ofList, mem_flatMap] at member
  obtain ⟨byte, _, member⟩ := member
  have bound := byte.toNat_lt
  rcases mem_cons.mp member with rfl | member
  · exact digits _ (by omega)
  · rw [mem_singleton.mp member]
    exact digits _ (by omega)

theorem symbolicIngress_deliveryLaws (own : List UInt8) (wire : Bytes → Prop) :
    (symbolicIngress own).DeliveryLaws wire where
  toLaws := symbolicIngress_laws own
  collisionFree _ _ same := hexEncode_injective same
  undecrypted := by
    rintro _ ⟨_, made | merged⟩ _ _ _ _ processed
    all_goals
      simp only [symbolicIngress, symbolicMls, symbolicApplication] at processed
      split at processed <;> [split at processed; skip] <;> cases processed
      rename_i foreign
    · simp only [symbolicIngress, symbolicCreates, Bool.decide_and, Bool.and_eq_true,
        decide_eq_true_eq] at made
      exact foreign.1 made.1
    · simp [symbolicIngress, symbolicMls, symbolicPendingCommit] at merged

/-- The symbolic transport gives its messages ids that are no hexadecimal text. -/
def symbolicId (id : String) : Bool := id.toList.any fun c => !isHexDigit c

theorem symbolicIngress_apart (own : List UInt8) (wire : Bytes → Prop) :
    (symbolicIngress own).Apart wire (fun id => symbolicId id) fun id => symbolicId id := by
  rintro id _ named _ rfl
  obtain ⟨c, member, other⟩ := any_eq_true.mp (named.elim (fun id => id) fun id => id)
  rw [hexEncode_digits member] at other
  cases other

instance (step : SessionStep) :
    Decidable (step.Names (fun id => symbolicId id) fun id => symbolicId id) := by
  cases step <;> unfold SessionStep.Names <;> infer_instance

/-- A message is delivered between a commit of the client and the commit that wins against it. It comes
again in another envelope, after a restart. -/
def redeliveredSteps : List SessionStep :=
  [stageSymbolicCommit "own" 9 [], .confirmPublished 0, ingestSymbolic "envelope" [2, 5],
    ingestSymbolic "winner" [0, 1], .restart, ingestSymbolic "rewrapped" [2, 5]]

/-- The rollback takes the record of the message along, and the message is delivered twice. -/
theorem redelivered_after_rollback :
    ((symbolicEngine [9]).session (symbolicIngress [9]) redeliveredSteps).events.filter
        GroupEvent.isReceived =
      [.messageReceived [5] 0 [5], .messageReceived [5] 0 [5]] := by
  decide +kernel

/-- The message is delivered, and another one sent, before the client commits. -/
def rewrappedSteps : List SessionStep :=
  [ingestSymbolic "envelope" [2, 5], .send (symbolicMessage "sent" [2, 9]) [2, 9],
    stageSymbolicCommit "own" 9 [], .confirmPublished 0, ingestSymbolic "winner" [0, 1], .restart,
    ingestSymbolic "rewrapped" [2, 5], ingestSymbolic "echo" [2, 9]]

/-- The rollback goes back to a snapshot with the records, and neither message is delivered again. -/
theorem rewrapped_once :
    (deliveryHistory (symbolicMls [9])
        ((symbolicEngine [9]).moves (symbolicIngress [9]) rewrappedSteps)).AtMostOnce
      (symbolicIngress [9]) (symbolicEngine [9])
      ((symbolicEngine [9]).session (symbolicIngress [9]) rewrappedSteps) := by
  have checked : ((symbolicEngine [9]).moves (symbolicIngress [9]) rewrappedSteps).all fun step =>
      step.2.makesNews (symbolicIngress [9]) step.1 &&
        step.2.keepsRecords (symbolicMls [9]) step.1 := by decide +kernel
  have each step member := (Bool.and_eq_true _ _).mp (all_eq_true.mp checked step member)
  exact (delivered_once (symbolicIngress_deliveryLaws [9] fun _ => True)
    (symbolicIngress_apart [9] fun _ => True)
    (symbolicEngine_soundSession [9] fun id => symbolicId id) (by decide +kernel) ⟨rfl, rfl⟩
    (fun _ _ => trivial) (fun _ _ => ⟨fun _ _ => trivial, fun _ _ => trivial⟩)
    (fun step member => Move.makesNews.sound (each step member).1)
    fun step member => Move.keepsRecords.sound (each step member).2).2

end Darkmatter
