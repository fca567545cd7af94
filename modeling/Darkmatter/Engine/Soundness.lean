/-
**The states of a session.**

* `SoundSnapshot` — the rows, the epoch and the queue of a group, live or captured in a snapshot;
* `Engine.SoundSession` — the engine between moves: the snapshots are sound, the lifecycle agrees with
  the group, and every incumbent has its snapshot;
* `SoundSession.perform` — **every allowed move keeps the session sound**.
-/

import Darkmatter.Engine.Guards

namespace Darkmatter

open Std Lib List

/-! ### Rows -/

variable {Group : Type}

section Rows

variable {mls : OpenMls Group} {transport : String → Prop} {records : List MessageRecord}

/-- The row of a transport message: it has the id of the message, and is taken in again under an id
of the transport only. -/
def ReplayableRow (transport : String → Prop) (record : MessageRecord) : Prop :=
  ∀ message, record.payload = .rawTransport message →
    message.id = record.id ∧ (record.state.isReplayed → transport record.id)

theorem ReplayableRows.put (replayable : ReplayableRows transport records)
    (distinct : (records.map MessageRecord.id).Nodup) {record : MessageRecord}
    (row : ReplayableRow transport record) :
    ReplayableRows transport (putMessage records record) := by
  intro other member
  rcases (mem_putMessage distinct).mp member with rfl | ⟨old, _⟩
  · exact row
  · exact replayable other old

theorem ReplayableRows.updated (replayable : ReplayableRows transport records)
    (distinct : (records.map MessageRecord.id).Nodup) {id : String} {state : MessageState}
    {updated : List MessageRecord} (written : updateMessageState records id state = some updated)
    (known : state.isReplayed → transport id) : ReplayableRows transport updated := by
  rw [updateMessageState_eq distinct written]
  intro _ member message payload
  obtain ⟨old, isOld, rfl⟩ := mem_map.mp member
  split_ifs at payload ⊢ with here
  · exact ⟨(replayable old isOld message payload).1, here ▸ known⟩
  · exact replayable old isOld message payload

theorem updateMessageState_put (records : List MessageRecord) (record : MessageRecord)
    (state : MessageState) :
    updateMessageState (putMessage records record) record.id state =
      some (putMessage records { record with state }) := by
  unfold putMessage
  induction records with
  | nil => simp [put, updateMessageState]
  | cons first rest ih =>
    rw [put, put]
    by_cases here : first.id = record.id
    · rw [if_pos here, if_pos here, updateMessageState, if_pos rfl]
    · rw [if_neg here, if_neg here, updateMessageState, if_neg here, ih]
      rfl

end Rows

/-! ### Messages that are news -/

section News

variable {mls : OpenMls Group} {engine : Engine Group} {message : TransportMessage}

theorem Engine.Fresh.persisted (fresh : engine.Fresh message.id) :
    engine.persistOpenmlsWireMessage mls message =
      engine.putMessage ⟨message.id, engine.groupId, mls.epoch engine.storage.live.mls, .created,
        .openmlsWire message⟩ := by
  rw [Engine.persistOpenmlsWireMessage]
  rcases persist_rows engine message.id (mls.epoch engine.storage.live.mls) .created
    (.openmlsWire message) with ⟨_, previous, found, _, isCreated⟩ | put
  · have unrecorded := fresh.unrecorded
    rw [Engine.recordedMessageOutcome, found] at unrecorded
    simp only [isCreated] at unrecorded
    cases unrecorded
  · exact put

theorem Engine.updateMessageState_putMessage (engine : Engine Group) (record : MessageRecord)
    (state : MessageState) :
    (engine.putMessage record).updateMessageState record.id state =
      some (engine.putMessage { record with state }) := by
  have written := updateMessageState_put engine.storage.live.messages record state
  rw [Engine.updateMessageState, Engine.putMessage, written]
  rfl

/-- **A message that is news is settled** by one row. -/
theorem Engine.Fresh.settled (fresh : engine.Fresh message.id) (state : MessageState) :
    engine.settleMessage mls message state =
      engine.putMessage ⟨message.id, engine.groupId, mls.epoch engine.storage.live.mls, state,
        .openmlsWire message⟩ := by
  have written := engine.updateMessageState_putMessage ⟨message.id, engine.groupId,
    mls.epoch engine.storage.live.mls, .created, .openmlsWire message⟩ state
  dsimp only at written
  simp only [Engine.settleMessage, fresh.persisted, written, Option.getD_some]

end News

/-! ### Snapshots -/

def SnapshotName.epoch : SnapshotName → Nat
  | .retainedAnchor epoch => epoch
  | .forkRecovery sourceEpoch _ => sourceEpoch

section Sessions

variable (net : Ingress Group) (transport : String → Prop)

/-- **What a session may assume of OpenMLS**: besides the laws of publishing, that a commit applies
in its epoch only, and that the application messages the client makes are of the epoch they are made
in. -/
structure Ingress.Laws : Prop extends net.toOpenMls.PublishLaws where
  source : ∀ {group merged : Group} {bytes committer : Bytes} {priority : CommitOrderingPriority}
    {refs : List String} {epoch : Nat},
    net.processCommit group bytes = .staged priority committer refs merged →
      net.decode bytes = .ok (some ⟨.commit, epoch⟩) → epoch = net.epoch group
  created : ∀ {group : Group} {bytes : Bytes}, net.createsMessage group bytes →
    net.decode bytes = .ok (some ⟨.application, net.epoch group⟩)

/-- Bytes of a message that the client made itself. -/
def Ingress.Own (bytes : Bytes) : Prop :=
  ∃ group, net.createsMessage group bytes ∨ (net.mergePendingCommit group bytes).isSome

/-- **A row of a session.** An MLS message goes under the hash of its bytes, unless the client made
it. -/
structure SessionRow (record : MessageRecord) : Prop where
  stored : StoredRow net.toOpenMls record
  replayable : ReplayableRow transport record
  named : ∀ message, record.payload = .openmlsWire message →
    record.id = net.contentDedupId message.payload ∨ net.Own message.payload

/-- The rows of a group. -/
structure SessionRows (records : List MessageRecord) : Prop where
  rows : SoundRows net.toOpenMls records
  replayable : ReplayableRows transport records
  named : ∀ record ∈ records, ∀ message, record.payload = .openmlsWire message →
    record.id = net.contentDedupId message.payload ∨ net.Own message.payload

/-- **A group, live or captured.** -/
structure SoundSnapshot (snapshot : GroupSnapshot Group) : Prop extends
    SessionRows net transport snapshot.messages where
  epoch : snapshot.epoch = net.epoch snapshot.mls
  queue : (snapshot.queue.map QueuedOutboundIntent.id).Nodup

variable (engine : Engine Group)

/-- The snapshot of a commit from an epoch, not younger than the counter. -/
def Engine.HasRecovery (record : CommitRecoveryRecord) (counter : Nat) : Prop :=
  counter ≤ engine.snapshotCounter ∧
    record.snapshotName = .forkRecovery record.sourceEpoch counter ∧
    (engine.storage.snapshots (.forkRecovery record.sourceEpoch counter)).isSome

/-- **The engine between moves.** -/
structure Engine.SoundSession : Prop where
  live : SoundSnapshot net transport engine.storage.live
  snapshots : ∀ name snapshot, engine.storage.snapshots name = some snapshot →
    SoundSnapshot net transport snapshot ∧ snapshot.epoch = name.epoch
  idle : engine.pendingCommit = none → engine.epochState.epoch = engine.storage.live.epoch ∧
    ∀ epoch, engine.epochState ≠ .pendingPublish epoch
  pending : ∀ pending, engine.pendingCommit = some pending →
    engine.epochState = .pendingPublish (engine.storage.live.epoch + 1) ∧
      pending.record.sourceEpoch = engine.storage.live.epoch ∧
      (net.mergePendingCommit engine.storage.live.mls pending.bytes).isSome ∧
      ∃ counter, engine.HasRecovery pending.record counter ∧
        ∀ record ∈ engine.incumbents, ∃ older < counter, engine.HasRecovery record older
  incumbents : ∀ record ∈ engine.incumbents, ∃ counter, engine.HasRecovery record counter
  distinct : (engine.incumbents.map CommitRecoveryRecord.sourceEpoch).Nodup

variable {net transport engine} {outbox : String → Prop}
  {message : TransportMessage} {id groupId : String} {epoch : Nat} {state : MessageState}
  {protocol : ProtocolMessage} {record : MessageRecord} {storage : GroupStorage Group}
  {snapshot : GroupSnapshot Group} {nowMs : Nat} {group : Group} {result : CanonicalizationResult}
  {before : List TransportMessage} {output : OpenMlsReplayOutput Group}

theorem SessionRow.wire (same : message.id = id)
    (named : id = net.contentDedupId message.payload ∨ net.Own message.payload)
    (decoded : net.decode message.payload = .ok (some protocol)) :
    SessionRow net transport ⟨id, groupId, epoch, state, .openmlsWire message⟩ where
  stored stored payload := by
    cases payload
    exact ⟨same, _, _, decoded⟩
  replayable stored payload := by cases payload
  named stored payload := by
    cases payload
    exact named

theorem SessionRow.raw (same : message.id = id) (known : state.isReplayed → transport id) :
    SessionRow net transport ⟨id, groupId, epoch, state, .rawTransport message⟩ where
  stored stored payload := by cases payload
  replayable stored payload := by
    cases payload
    exact ⟨same, known⟩
  named stored payload := by cases payload

section Rows

variable {records : List MessageRecord}

theorem SessionRows.put (rows : SessionRows net transport records) {record : MessageRecord}
    (row : SessionRow net transport record) :
    SessionRows net transport (putMessage records record) where
  rows := rows.rows.put row.stored
  replayable := rows.replayable.put rows.rows.ids row.replayable
  named other member := by
    rcases (mem_putMessage rows.rows.ids).mp member with rfl | ⟨old, _⟩
    · exact row.named
    · exact rows.named other old

theorem SessionRows.updated (rows : SessionRows net transport records) {id : String}
    {state : MessageState} {updated : List MessageRecord}
    (written : updateMessageState records id state = some updated)
    (known : state.isReplayed → transport id) : SessionRows net transport updated where
  rows := (rows.rows.updated written).1
  replayable := rows.replayable.updated rows.rows.ids written known
  named record member := by
    rw [updateMessageState_eq rows.rows.ids written] at member
    obtain ⟨old, isOld, rfl⟩ := mem_map.mp member
    split_ifs <;> exact rows.named old isOld

end Rows

variable (sound : engine.SoundSession net transport)

include sound

theorem Engine.SoundSession.anchors : SoundAnchors net engine.storage := by
  intro _ snapshot anchored
  obtain ⟨isSound, named⟩ := sound.snapshots _ snapshot anchored
  exact ⟨named, isSound.epoch ▸ named, isSound.rows⟩

/-- The lifecycle says whether a publication is waited for. -/
theorem Engine.SoundSession.unpended_iff :
    engine.pendingCommit = none ↔ ∀ epoch, engine.epochState ≠ .pendingPublish epoch := by
  refine ⟨fun unpending => (sound.idle unpending).2, fun idle => ?_⟩
  cases waits : engine.pendingCommit with
  | none => rfl
  | some pending => exact absurd (sound.pending pending waits).1 (idle _)

/-- A group that takes messages in does not wait for a publication. -/
theorem Engine.SoundSession.unpending (ready : engine.epochState.canIngest) :
    engine.pendingCommit = none :=
  sound.unpended_iff.mpr (EpochState.canIngest.unpending ready)

theorem Engine.SoundSession.withRows
    {messages otherRows : List MessageRecord} (rows : SessionRows net transport messages) :
    (engine.withRows messages otherRows).SoundSession net transport :=
  { sound with live := ⟨rows, sound.live.epoch, sound.live.queue⟩ }

theorem Engine.SoundSession.put (row : SessionRow net transport record) :
    (engine.putMessage record).SoundSession net transport :=
  sound.withRows (sound.live.toSessionRows.put row)

theorem Engine.SoundSession.persist {payload : StoredMessagePayload}
    (row : SessionRow net transport ⟨id, engine.groupId, epoch, state, payload⟩) :
    (engine.persistStoredMessagePayload id epoch state payload).SoundSession net transport := by
  rcases persist_rows engine id epoch state payload with ⟨same, _⟩ | put
  · rw [same]
    exact sound
  · rw [put]
    exact sound.put row

theorem Engine.SoundSession.settle
    (admits : engine.Admits net message protocol) (state : MessageState) :
    (engine.settleMessage net.toOpenMls message state).SoundSession net transport := by
  rw [admits.fresh.settled]
  exact sound.put (.wire rfl (Or.inl admits.named) admits.decoded)

/-! ### Retaining and passing -/

omit sound in
/-- The snapshots after the current epoch was retained: the anchor is new, and others may be gone. -/
theorem retain_snapshots {maxRewind : Nat} {name : SnapshotName}
    (stored : (storage.retainCurrentGroupEpochSnapshot maxRewind).snapshots name = some snapshot) :
    (name = .retainedAnchor storage.live.epoch ∧ snapshot = storage.live) ∨
      storage.snapshots name = some snapshot := by
  simp only [GroupStorage.retainCurrentGroupEpochSnapshot, GroupStorage.createGroupSnapshot,
    GroupStorage.pruneRetainedAnchorSnapshots] at stored
  cases name with
  | retainedAnchor =>
    simp only at stored
    split_ifs at stored with _ here
    · cases stored
      exact Or.inl ⟨here, rfl⟩
    · exact Or.inr stored
  | forkRecovery =>
    simp only [reduceCtorEq, if_false] at stored
    exact Or.inr stored

omit sound in
/-- Retaining the current epoch leaves the recovery snapshots alone. -/
@[simp] theorem retain_forkRecovery (storage : GroupStorage Group)
    (maxRewind sourceEpoch counter : Nat) :
    (storage.retainCurrentGroupEpochSnapshot maxRewind).snapshots
      (.forkRecovery sourceEpoch counter) =
      storage.snapshots (.forkRecovery sourceEpoch counter) :=
  rfl

/-- The engine on another storage whose snapshots are sound and have the recovery snapshots. -/
theorem Engine.SoundSession.withStorage
    (storage : GroupStorage Group) (live : SoundSnapshot net transport storage.live)
    (snapshots : ∀ name snapshot, storage.snapshots name = some snapshot →
      SoundSnapshot net transport snapshot ∧ snapshot.epoch = name.epoch)
    (recovery : ∀ sourceEpoch counter, storage.snapshots (.forkRecovery sourceEpoch counter) =
      engine.storage.snapshots (.forkRecovery sourceEpoch counter))
    {epochState : EpochState} {events : List GroupEvent} {seenMessageIds : BoundedIdSet String dedupCacheCapacity}
    (unpending : engine.pendingCommit = none)
    (tip : epochState.epoch = storage.live.epoch ∧ ∀ epoch, epochState ≠ .pendingPublish epoch) :
    ({ engine with storage, epochState, events, seenMessageIds } : Engine Group).SoundSession net
      transport where
  live := live
  snapshots := snapshots
  idle _ := tip
  pending pending waits := by
    rw [unpending] at waits
    cases waits
  incumbents record member := by
    obtain ⟨counter, bounded, named, stored⟩ := sound.incumbents record member
    exact ⟨counter, bounded, named, by rw [recovery]; exact stored⟩
  distinct := sound.distinct

theorem Engine.SoundSession.retained (maxRewind : Nat) :
    ({ engine with storage := engine.storage.retainCurrentGroupEpochSnapshot maxRewind } :
      Engine Group).SoundSession net transport :=
  { sound with
    snapshots := by
      intro name snapshot stored
      rcases retain_snapshots stored with ⟨rfl, rfl⟩ | old
      · exact ⟨sound.live, rfl⟩
      · exact sound.snapshots name snapshot old
    pending := sound.pending
    incumbents := sound.incumbents }

theorem Engine.Decided.untouched (decision : engine.Decided net.toOpenMls nowMs group result)
    (start : Nat) (member : record ∈ (engine.storage.startingAt start).messages)
    (payload : record.payload = .rawTransport message) :
    result.stateByMessageId[record.id]? = none := by
  by_contra given
  obtain ⟨_, isLive, same, _, isWire, _⟩ := decision.touched record.id given
  obtain ⟨_, _, sources⟩ := startingAt_rows sound.live.rows sound.anchors start
  rcases sources record member with here | elsewhere
  · have equal := inj_on_of_nodup_map sound.live.rows.ids isLive here same
    have onWire := wireMessage_payload isWire
    rw [equal, payload] at onWire
    cases onWire
  · exact elsewhere (same ▸ mem_map_of_mem isLive)

omit sound in
theorem SoundSnapshot.restored (live : SoundSnapshot net transport storage.live)
    (captured : SoundSnapshot net transport snapshot) :
    SoundSnapshot net transport (storage.restoreLiveMessageAndQueueRecords snapshot) := by
  obtain ⟨rows, members⟩ := mem_foldl_putMessage live.rows captured.rows
  refine ⟨⟨rows, fun record member => ?_, fun record member => ?_⟩, captured.epoch, ?_⟩
  · rcases (members record).mp member with isLive | ⟨old, _⟩
    · exact live.replayable record isLive
    · exact captured.replayable record old
  · rcases (members record).mp member with isLive | ⟨old, _⟩
    · exact live.named record isLive
    · exact captured.named record old
  · exact (mem_foldl_put live.queue captured.queue).1

theorem Engine.SoundSession.startingAt (start : Nat) :
    SoundSnapshot net transport (engine.storage.startingAt start) := by
  rw [GroupStorage.startingAt]
  split_ifs
  · cases anchored : engine.storage.anchor start with
    | none => exact sound.live
    | some snapshot => exact sound.live.restored (sound.snapshots _ snapshot anchored).1
  · exact sound.live

theorem Engine.SoundSession.settledRows
    (decision : engine.Decided net nowMs group result) (start : Nat) :
    SessionRows net transport (result.settledRows (engine.storage.startingAt start).messages) := by
  have base := sound.startingAt start
  refine ⟨base.rows.settled result, fun record member message payload => ?_,
    fun record member => ?_⟩
  · obtain ⟨old, known, rfl⟩ := mem_map.mp member
    simp only [decision.untouched sound start known payload, Option.getD_none]
    exact base.replayable old known message payload
  · obtain ⟨old, known, rfl⟩ := mem_map.mp member
    exact base.named old known

/-- **What a pass of a session does.** -/
theorem Engine.SoundSession.converge_cases (laws : net.EpochLaws) (nowMs : Nat) :
    PassEffect net.toOpenMls engine nowMs (convergeStoredOpenmlsMessages net.toOpenMls engine nowMs).1
      (engine.passObservations net nowMs) (convergeStoredOpenmlsMessages net engine nowMs).2:=
  Darkmatter.converge_cases laws sound.live.rows sound.live.epoch
    (fun start => (startingAt_rows sound.live.rows sound.anchors start).1) nowMs

omit sound in
/-- A replay that begins with proposals and a commit begins in the epoch of the commit. -/
theorem replay_epoch (laws : net.Laws) {rest : List TransportMessage} {first : TransportMessage}
    (proposals : ∀ message ∈ before, net.kindOf message = some .proposal)
    (decoded : net.decode first.payload = .ok (some ⟨.commit, epoch⟩))
    (replayed : net.processOpenmlsMessagesInner group (before ++ first :: rest) = .ok output) :
    net.epoch group = epoch := by
  obtain ⟨front, _, toFront, fromFront, _⟩ :=
    OpenMls.processOpenmlsMessagesInner_append_ok.mp replayed
  obtain ⟨_, _, _, here, _, _⟩ := OpenMls.processOpenmlsMessagesInner_cons_ok.mp fromFront
  have kept := epoch_of_replay laws.toEpochLaws toFront
  have noCommits : net.commitsOf before = [] :=
    filter_eq_nil_iff.mpr fun message member => by simp [proposals message member]
  rw [noCommits, length_nil, Nat.add_zero] at kept
  rw [OpenMls.processOpenmlsMessage, decoded] at here
  cases outcome : net.processCommit front.group first.payload with
  | staged =>
    exact kept.symm.trans (laws.source outcome decoded).symm
  | unauthorized | invalid | failed => simp only [outcome] at here; cases here

namespace Engine.SoundSession

/-- **A pass replays its path on the state it decided on**, even if the row of the first commit has
another epoch: elsewhere the commit does not apply. -/
theorem moved_start (laws : net.Laws) {start : Nat} {path : CandidatePathProbe}
    {after : List TransportMessage} (decision : engine.Decided net.toOpenMls nowMs group result)
    (ended : path ∈ engine.storage.passPaths net engine.horizon group)
    (proposals : ∀ message ∈ before, net.kindOf message = some .proposal)
    (replayed : net.processOpenmlsMessagesInner (engine.storage.startingAt start).mls
      (before ++ path.messages ++ after) = .ok output) :
    (engine.storage.startingAt start).mls = group ∧
      net.epoch group = engine.passStart net ∧
      (start < engine.storage.live.epoch → (engine.storage.anchor start).isSome →
        start = engine.passStart net) := by
  obtain ⟨first, known, _, here, starts⟩ := passPaths_first ended
  have decoded := (passMessages sound.live.rows).commit first known
  rw [here, append_assoc, cons_append] at replayed
  have base := replay_epoch laws proposals decoded replayed
  rw [starts] at base
  change _ = engine.passStart net at base
  have decidedOn : net.epoch group = engine.passStart net := by
    rcases decision.starts with ⟨current, rfl⟩ | ⟨_, snapshot, anchored, rfl⟩
    · rw [← sound.live.epoch]
      exact current.symm
    · exact (sound.anchors _ snapshot anchored).2.1
  -- The base is a state of the epoch the pass starts from, and there is one such state at most.
  have current : ∀ {state : Group}, state = engine.storage.live.mls →
      net.epoch state = engine.passStart net → state = group := by
    rintro _ rfl same
    rcases decision.starts with ⟨_, rfl⟩ | ⟨historical, _⟩
    · rfl
    · rw [← sound.live.epoch] at same
      exact absurd same historical.ne'
  rw [GroupStorage.startingAt] at base ⊢
  split_ifs at base ⊢ with historical
  · cases anchored : engine.storage.anchor start with
    | none =>
      rw [anchored] at base
      exact ⟨current rfl base, decidedOn, by simp⟩
    | some snapshot =>
      rw [anchored] at base
      have named : start = engine.passStart net :=
        (sound.anchors start snapshot anchored).2.1.symm.trans base
      refine ⟨?_, decidedOn, fun _ _ => named⟩
      rcases decision.starts with ⟨tip, _⟩ | ⟨_, _, stored, rfl⟩
      · exact absurd (named.trans tip) historical.ne
      · rw [named] at anchored
        cases anchored.symm.trans stored
        rfl
  · exact ⟨current rfl base, decidedOn, fun below => absurd below historical⟩

theorem passed (laws : net.Laws) (unpending : engine.pendingCommit = none)
    {reported : Except OpenMlsProjectionError CanonicalizationResult}
    {observed : List OpenMlsReplayObservation} {after : Engine Group}
    (effect : PassEffect net engine nowMs reported observed after) :
    after.SoundSession net transport := by
  have tip := sound.idle unpending
  cases effect with
  | halted | refused | waiting => exact sound
  | lost =>
    exact sound.withStorage engine.storage sound.live sound.snapshots (fun _ _ => rfl) unpending
      ⟨tip.1, by rintro epoch ⟨⟩⟩
  | failed decision quiet same =>
    rcases same with rfl | rfl
    · exact sound
    · exact sound.retained _
  | @idle result group decision quiet none =>
    have rows := sound.settledRows decision engine.storage.live.epoch
    rw [startingAt_live _ (Nat.lt_irrefl _)] at rows
    refine sound.withStorage _ ⟨?_, ?_, ?_⟩ ?_ ?_ unpending ?_
    · exact rows
    · exact sound.live.epoch
    · exact sound.live.queue
    · exact sound.snapshots
    · exact fun _ _ => rfl
    · simp only [none, Option.map_none, Option.getD_none]
      exact tip
  | @moved result group tip start path before after output decision quiet selected ended accepted
      reached proposals applications begins replayed delivers =>
    have rows := sound.settledRows decision start
    have live : SoundSnapshot net transport
        (engine.storage.replayed net start output.group result) :=
      ⟨rows, rfl, (sound.startingAt start).queue⟩
    obtain ⟨base, _, _⟩ := sound.moved_start laws decision ended proposals replayed
    refine sound.withStorage (engine.storage.moved start _ _) live ?_ ?_ unpending ?_
    · intro name snapshot stored
      rcases retain_snapshots stored with ⟨rfl, rfl⟩ | kept
      · exact ⟨live, rfl⟩
      · dsimp only at kept
        split_ifs at kept
        · rcases retain_snapshots kept with ⟨rfl, rfl⟩ | old
          · exact ⟨sound.live, rfl⟩
          · exact sound.snapshots name snapshot old
        · exact sound.snapshots name snapshot kept
    · intro _ _
      rw [GroupStorage.moved, retain_forkRecovery]
      dsimp only
      split_ifs
      · rfl
      · rfl
    · have counted := epoch_of_replay laws.toEpochLaws replayed
      rw [commitsOf_path sound.live.rows ended proposals applications, base, ← reached] at counted
      simp only [selected, Option.map_some, Option.getD_some]
      exact ⟨counted.symm, by simp⟩

/-! ### Recovery snapshots -/

variable (unpending : engine.pendingCommit = none)

include unpending

/-- Incumbents are dropped, and snapshots that the others do not need are released. -/
theorem forget (keep : CommitRecoveryRecord → Bool)
    (storage : GroupStorage Group) (live : storage.live = engine.storage.live)
    (known : ∀ name snapshot, storage.snapshots name = some snapshot →
      engine.storage.snapshots name = some snapshot)
    (kept : ∀ record ∈ engine.incumbents, keep record → ∀ counter,
      storage.snapshots (.forkRecovery record.sourceEpoch counter) =
        engine.storage.snapshots (.forkRecovery record.sourceEpoch counter))
    (committedFrom : List Nat) :
    ({ engine with storage, committedFrom, incumbents := engine.incumbents.filter keep } :
      Engine Group).SoundSession net transport where
  live := live ▸ sound.live
  snapshots name snapshot stored := sound.snapshots name snapshot (known name snapshot stored)
  idle _ := live ▸ sound.idle unpending
  pending pending waits := by
    rw [unpending] at waits
    cases waits
  incumbents record member := by
    obtain ⟨old, isKept⟩ := mem_filter.mp member
    obtain ⟨counter, bounded, named, stored⟩ := sound.incumbents record old
    exact ⟨counter, bounded, named, by rw [kept record old isKept]; exact stored⟩
  distinct := (filter_sublist.map _).nodup sound.distinct

theorem pruned : engine.pruneForkRecovery.SoundSession net transport := by
  obtain ⟨live, snapshots⟩ := release_snapshots
    (engine.incumbents.filter fun record => record.sourceEpoch <
      engine.storage.live.epoch - engine.policy.convergence.maxRewindCommits) engine.storage
  refine sound.forget unpending _ _ live (fun name snapshot stored => ?_) ?_ _
  · rw [snapshots] at stored
    split_ifs at stored
    exact stored
  · intro _ _ isKept _
    rw [snapshots, if_neg]
    rintro released
    obtain ⟨stale, isStale, named⟩ := mem_map.mp released
    obtain ⟨known, older⟩ := mem_filter.mp isStale
    obtain ⟨_, _, name, _⟩ := sound.incumbents stale known
    rw [name] at named
    injection named with same
    simp only [decide_eq_true_eq] at older isKept
    omega

theorem recordApplied {record : CommitRecoveryRecord}
    (counter : Nat) (recovery : engine.HasRecovery record counter) :
    (engine.recordApplied record).SoundSession net transport :=
  { sound with
    idle := sound.idle
    pending := by
      intro _ waits
      rw [Engine.recordApplied, unpending] at waits
      cases waits
    incumbents := by
      intro other member
      rcases mem_cons.mp member with rfl | old
      · exact ⟨counter, recovery⟩
      · exact sound.incumbents other (mem_filter.mp old).1
    distinct := by
      rw [Engine.recordApplied, map_cons, nodup_cons]
      refine ⟨?_, (filter_sublist.map _).nodup sound.distinct⟩
      intro again
      obtain ⟨_, member, same⟩ := mem_map.mp again
      have differs := (mem_filter.mp member).2
      simp [same] at differs }

theorem snapshotted {counter : Nat} (later : engine.snapshotCounter ≤ counter) :
    ({ engine with
      storage := engine.storage.createGroupSnapshot
        (.forkRecovery (net.epoch engine.storage.live.mls) (engine.snapshotCounter + 1))
      snapshotCounter := counter } : Engine Group).SoundSession net transport :=
  { sound with
    snapshots := by
      intro name snapshot stored
      rw [GroupStorage.createGroupSnapshot] at stored
      dsimp only at stored
      split_ifs at stored with here
      · cases stored
        exact ⟨sound.live, here ▸ sound.live.epoch⟩
      · exact sound.snapshots name snapshot stored
    idle := sound.idle
    pending := by
      intro _ waits
      rw [unpending] at waits
      cases waits
    incumbents := by
      intro record member
      obtain ⟨older, bounded, named, stored⟩ := sound.incumbents record member
      refine ⟨older, bounded.trans later, named, ?_⟩
      rw [GroupStorage.createGroupSnapshot]
      dsimp only
      split_ifs
      · rfl
      · exact stored }

omit unpending

/-! ### Moves -/

section Moves

theorem updated (id : String) (state : MessageState) (known : state.isReplayed → transport id) :
    ((engine.updateMessageState id state).getD engine).SoundSession net transport := by
  obtain ⟨_, written⟩ := updateMessageState_frame engine id state
  rw [written]
  cases updated : Darkmatter.updateMessageState engine.storage.live.messages id state with
  | none => exact sound.withRows sound.live.toSessionRows
  | some => exact sound.withRows (sound.live.toSessionRows.updated updated known)

theorem withGroup {group : Group} (ready : engine.epochState.canIngest)
    (epoch : net.epoch group = net.epoch engine.storage.live.mls) :
    (engine.withGroup group).SoundSession net transport :=
  sound.withStorage { engine.storage with live := { engine.storage.live with mls := group } }
    ⟨sound.live.toSessionRows, sound.live.epoch.trans epoch.symm, sound.live.queue⟩
    sound.snapshots (fun _ _ => rfl) (sound.unpending ready) (sound.idle (sound.unpending ready))

variable {message : TransportMessage} {mlsBytes committer : Bytes}
  {priority : CommitOrderingPriority} {after : Engine Group}

theorem buffered {nowMs : Nat} {next : Engine Group}
    (buffered : bufferOpenmlsConvergenceMessage net engine message nowMs = .ok next) :
    next.SoundSession net transport := by
  rcases buffer_cases buffered with rfl | ⟨_, epoch, decoded, _, rfl⟩
  · exact sound
  · have put : (engine.putMessage
        { id := net.contentDedupId message.payload
          groupId := engine.groupId
          epoch
          state := .created
          payload := .openmlsWire { message with id := net.contentDedupId message.payload } }
            ).SoundSession net transport :=
      sound.put (.wire rfl (Or.inl rfl) decoded)
    exact { put with }

theorem sent (message : TransportMessage) {kind : ContentType} {epoch : Nat}
    (own : net.Own mlsBytes) (decoded : net.decode mlsBytes = .ok (some ⟨kind, epoch⟩)) :
    (engine.recordSentOpenmlsMessage net.toOpenMls message mlsBytes epoch).SoundSession net
      transport := by
  have first : (engine.persistStoredMessagePayload message.id epoch .sent
      (.openmlsWire { message with payload := mlsBytes })).SoundSession net transport :=
    sound.persist (.wire rfl (Or.inr own) decoded)
  rw [Engine.recordSentOpenmlsMessage]
  dsimp only
  split_ifs
  · exact { first with }
  · have second : ((engine.persistStoredMessagePayload message.id epoch .sent
        (.openmlsWire { message with payload := mlsBytes })).persistStoredMessagePayload
          (net.contentDedupId mlsBytes) epoch .sent
          (.rawTransport { message with payload := mlsBytes, id := net.contentDedupId mlsBytes })
            ).SoundSession net transport :=
      first.persist (.raw rfl (by rintro ⟨⟩))
    exact { second with }

theorem staged (laws : net.Laws)
    (isStaged : stageCommit net engine message mlsBytes priority committer = some after)
    (made : (net.mergePendingCommit engine.storage.live.mls mlsBytes).isSome) :
    after.SoundSession net transport := by
  obtain ⟨_, isMerged⟩ := Option.isSome_iff_exists.mp made
  obtain ⟨_, _, _, _, stable, _, sent, rfl⟩ := stageCommit_cases isStaged
  have unpending : engine.pendingCommit = none := sound.unpending (by rw [stable]; rfl)
  have captured := sound.snapshotted unpending le_rfl
  have marked := captured.sent message ⟨_, Or.inr made⟩ (laws.own isMerged)
  rw [Engine.captured] at sent
  rw [sent] at marked
  have older (record : CommitRecoveryRecord) (member : record ∈ engine.incumbents) :
      ∃ counter ≤ engine.snapshotCounter,
        record.snapshotName = .forkRecovery record.sourceEpoch counter ∧
        ((engine.storage.createGroupSnapshot (.forkRecovery (net.epoch engine.storage.live.mls)
          (engine.snapshotCounter + 1))).snapshots
            (.forkRecovery record.sourceEpoch counter)).isSome :=
    captured.incumbents record member
  exact
    { live := marked.live
      snapshots := marked.snapshots
      idle := by simp
      pending := by
        intro _ waits
        cases waits
        have tip : engine.storage.live.epoch = net.epoch engine.storage.live.mls := sound.live.epoch
        refine ⟨congrArg (fun epoch => EpochState.pendingPublish (epoch + 1)) tip.symm, tip.symm,
          made, engine.snapshotCounter + 1, ⟨le_rfl, rfl, ?_⟩, fun record member => ?_⟩
        · show ((engine.storage.createGroupSnapshot _).snapshots _).isSome
          rw [GroupStorage.createGroupSnapshot]
          dsimp only
          rw [if_pos rfl]
          rfl
        · obtain ⟨counter, bounded, named, stored⟩ := older record member
          exact ⟨counter, Nat.lt_succ_of_le bounded, bounded.trans (Nat.le_succ _), named, stored⟩
      incumbents := by
        intro record member
        obtain ⟨counter, bounded, named, stored⟩ := older record member
        exact ⟨counter, bounded.trans (Nat.le_succ _), named, stored⟩
      distinct := sound.distinct }

theorem committed
    (unpending : engine.pendingCommit = none) (merged : Group) (record : CommitRecoveryRecord)
    (source : record.sourceEpoch = net.epoch engine.storage.live.mls)
    (named : record.snapshotName =
      .forkRecovery (net.epoch engine.storage.live.mls) (engine.snapshotCounter + 1)) :
    (({ engine with
      storage :=
        { (engine.storage.createGroupSnapshot
            (.forkRecovery (net.epoch engine.storage.live.mls)
              (engine.snapshotCounter + 1))).retainCurrentGroupEpochSnapshot
                engine.policy.convergence.maxRewindCommits with
          live := { engine.storage.live with mls := merged, epoch := net.epoch merged } }
      snapshotCounter := engine.snapshotCounter + 1
      epochState := .stable (net.epoch merged) } : Engine Group).recordApplied record).SoundSession
        net transport := by
  have left := (sound.snapshotted unpending (Nat.le_succ _)).retained
    engine.policy.convergence.maxRewindCommits
  refine Engine.SoundSession.recordApplied ?_ ?_ (engine.snapshotCounter + 1) ⟨?_, ?_, ?_⟩
  · refine left.withStorage _ ⟨?_, ?_, ?_⟩ ?_ ?_ unpending ⟨rfl, by simp⟩
    · exact sound.live.toSessionRows
    · rfl
    · exact sound.live.queue
    · exact left.snapshots
    · exact fun _ _ => rfl
  · exact unpending
  · exact le_rfl
  · rw [source]
    exact named
  · dsimp only
    rw [source, retain_forkRecovery, GroupStorage.createGroupSnapshot]
    dsimp only
    rw [if_pos rfl]
    rfl

theorem unpended :
    ({ engine with
      pendingCommit := none
      epochState := .stable engine.storage.live.epoch } : Engine Group).SoundSession net
        transport :=
  { sound with
    idle := fun _ => ⟨rfl, by simp⟩
    pending := by simp
    incumbents := sound.incumbents }

theorem confirmed (laws : net.Laws) (isConfirmed : confirmPublished net engine = some after) :
    after.SoundSession net transport := by
  obtain ⟨pending, _, merged, messages, waits, state, isMerged, written, rfl⟩ :=
    confirmPublished_cases isConfirmed
  obtain ⟨awaits, _, _, counter, recovery, _⟩ := sound.pending pending waits
  rw [state] at awaits
  cases awaits
  have left := sound.unpended.retained engine.policy.convergence.maxRewindCommits
  have next := laws.pendingMerged isMerged
  have rows := sound.live.toSessionRows.updated written (by rintro ⟨⟩)
  have moved : ({ engine with
      storage :=
        { engine.storage.retainCurrentGroupEpochSnapshot
            engine.policy.convergence.maxRewindCommits with
          live := { engine.storage.live with mls := merged, epoch := net.epoch merged, messages } }
      epochState := .stable (engine.storage.live.epoch + 1)
      pendingCommit := none } : Engine Group).SoundSession net transport :=
    left.withStorage _ (by exact ⟨rows, rfl, sound.live.queue⟩) (by exact left.snapshots)
      (by exact fun _ _ => rfl) rfl ⟨by rw [sound.live.epoch]; exact next.symm, by simp⟩
  have ended := ((moved.retained engine.policy.convergence.maxRewindCommits).recordApplied rfl
    counter recovery).pruned rfl
  exact { ended with }

theorem abandoned : (engine.abandonPublish net.toOpenMls).SoundSession net transport := by
  rw [Engine.abandonPublish]
  split
  · exact sound
  rename_i pending waits
  obtain ⟨_, source, _, _, ⟨_, named, _⟩, older⟩ := sound.pending pending waits
  exact
    { live := ⟨sound.live.toSessionRows, rfl, sound.live.queue⟩
      snapshots := by
        intro name snapshot stored
        rw [GroupStorage.releaseGroupSnapshot] at stored
        dsimp only at stored
        split_ifs at stored
        exact sound.snapshots name snapshot stored
      idle := fun _ => ⟨source.trans sound.live.epoch, by simp⟩
      pending := by simp
      incumbents := by
        intro record member
        obtain ⟨earlier, _, bounded, name, stored⟩ := older record member
        refine ⟨earlier, bounded, name, ?_⟩
        rw [GroupStorage.releaseGroupSnapshot]
        dsimp only
        rw [named, if_neg]
        · exact stored
        · intro same
          injection same with _ sameCounter
          omega
      distinct := sound.distinct }

theorem merged {protocol : ProtocolMessage} {merged : Group}
    (admits : engine.Admits net message protocol) (recovery : Option PendingRecovery) :
    (engine.applyStagedCommit net message priority committer merged
      recovery).SoundSession net transport := by
  have unpending := sound.unpending admits.ready
  have stored : (engine.persistOpenmlsWireMessage net message).SoundSession net
      transport :=
    sound.persist (.wire rfl (Or.inl admits.named) admits.decoded)
  rw [Engine.applyStagedCommit]
  rw [admits.fresh.persisted] at stored ⊢
  have ended := (stored.committed unpending merged
    { sourceEpoch := net.epoch engine.storage.live.mls
      orderingKey := ⟨net.epoch engine.storage.live.mls, priority, committer,
        net.sha256 message.payload⟩
      storageId := message.id
      snapshotName := .forkRecovery (net.epoch engine.storage.live.mls)
        (engine.snapshotCounter + 1) } rfl rfl).pruned unpending
  have settled := ended.updated message.id .processed nofun
  exact { settled with }

/-- The group goes back to the state before a commit that lost. -/
theorem recovered (ready : engine.epochState.canIngest) {record : CommitRecoveryRecord}
    (member : record ∈ engine.incumbents) {snapshot : GroupSnapshot Group}
    (stored : engine.storage.snapshots record.snapshotName = some snapshot) :
    (engine.resolveForCandidate net.toOpenMls message record).SoundSession net transport := by
  obtain ⟨captured, named⟩ := sound.snapshots _ snapshot stored
  obtain ⟨_, _, name, _⟩ := sound.incumbents record member
  rw [name] at named
  have back : ({ engine with
      storage := { engine.storage with live := snapshot }
      epochState := .stable record.sourceEpoch } : Engine Group).SoundSession net transport :=
    sound.withStorage { engine.storage with live := snapshot } captured sound.snapshots
      (fun _ _ => rfl) (sound.unpending ready) ⟨named.symm, by simp⟩
  have kept := back.forget (sound.unpending ready)
    (fun other => other.sourceEpoch != record.sourceEpoch)
    (({ engine.storage with live := snapshot } : GroupStorage Group).releaseGroupSnapshot
      record.snapshotName) rfl
    (by
      intro _ snapshot stored
      rw [GroupStorage.releaseGroupSnapshot] at stored
      dsimp only at stored
      split_ifs at stored
      exact stored)
    (by
      intro _ _ differs _
      rw [GroupStorage.releaseGroupSnapshot]
      dsimp only
      rw [name, if_neg]
      intro same
      injection same with sameEpoch
      simp [sameEpoch] at differs)
    engine.committedFrom
  obtain ⟨messages, _, rolledBack, rows⟩ :=
    resolveForCandidate_frame net message stored
  rw [rolledBack, rows]
  cases updated : Darkmatter.updateMessageState snapshot.messages record.storageId
      .epochInvalidated with
  | none => exact kept.withRows captured.toSessionRows
  | some messages => exact kept.withRows (captured.toSessionRows.updated updated (by rintro ⟨⟩))

/-- **An allowed move keeps the session sound.** -/
theorem perform (laws : net.Laws)
    {move : Move Group} (allowed : move.Allowed net transport outbox engine) :
    (move.perform net.toOpenMls engine).SoundSession net transport := by
  cases move with
  | persistTransport =>
    refine sound.persist (.raw rfl fun replayed => ?_)
    rcases allowed with known | ⟨settled, _⟩
    · exact known
    · rw [settled] at replayed
      cases replayed
  | settle message state =>
    obtain ⟨_, admits⟩ := allowed
    exact sound.settle admits state
  | discard =>
    obtain ⟨epoch, admits, ignored⟩ := allowed
    have settled := sound.settle admits .failed
    rw [Move.perform]
    rw [admits.fresh.settled] at settled ⊢
    exact settled.withGroup admits.ready (laws.applicationIgnored ignored)
  | updateState id state => exact sound.updated id state fun _ => allowed
  | buffer =>
    rw [Move.perform]
    split
    · rename_i buffered
      exact sound.buffered buffered
    · exact sound
  | converge nowMs =>
    exact sound.passed laws (sound.unpended_iff.mpr allowed)
      (sound.converge_cases laws.toEpochLaws nowMs)
  | deliver =>
    obtain ⟨admits, processed⟩ := allowed
    have settled := sound.settle admits .processed
    rw [Move.perform, Engine.deliverMessage]
    rw [admits.fresh.settled] at settled ⊢
    have delivered := settled.withGroup admits.ready (laws.applicationProcessed processed)
    exact { delivered with }
  | applyCommit message priority committer merged recovery =>
    obtain ⟨epoch, _, admits, _⟩ := allowed
    exact sound.merged admits recovery
  | detectFork =>
    obtain ⟨epoch, admits, _⟩ := allowed
    have settled := sound.settle admits .epochInvalidated
    rw [Move.perform]
    rw [admits.fresh.settled] at settled ⊢
    exact settled.withStorage _ settled.live settled.snapshots (fun _ _ => rfl)
      (sound.unpending admits.ready) ⟨(sound.idle (sound.unpending admits.ready)).1, by rintro epoch ⟨⟩⟩
  | recover =>
    obtain ⟨admits, member, _, _, _, _, _, stored, _⟩ := allowed
    exact sound.recovered admits.ready member stored
  | remember => exact { sound with }
  | stage =>
    exact sound.staged laws allowed.staged allowed.2.2
  | retain => exact sound.retained _
  | confirm => exact sound.confirmed laws allowed.confirmed
  | abandon => exact sound.abandoned
  | send => exact sound.sent _ ⟨_, Or.inl allowed.2.2⟩ (laws.created allowed.2.2)
  | enqueue queued =>
    exact { sound with
      live := ⟨sound.live.toSessionRows, sound.live.epoch, put_nodup sound.live.queue queued⟩ }
  | dequeue =>
    exact { sound with
      live := ⟨sound.live.toSessionRows, sound.live.epoch,
        (filter_sublist.map _).nodup sound.live.queue⟩ }
  | restart =>
    exact
      { live := sound.live
        snapshots := sound.snapshots
        idle := fun _ => ⟨rfl, by rintro epoch ⟨⟩⟩
        pending := by rintro pending ⟨⟩
        incumbents := by rintro record ⟨⟩
        distinct := nodup_nil }

end Moves

end Engine.SoundSession

end Sessions

end Darkmatter
