/-
**What a step does to the storage of a group.**

Of a group's storage, runs depend on the live state, its rows and the retained anchors. A step leaves
the live state alone (`StorageEffect.rows`, `StorageEffect.retained`) or moves it forward from the
live state or from an anchor (`StorageEffect.moved`):

* `StorageEffect.sound` — every step keeps the storage sound;
* `step_effect` — every step of the engine is one of these;
* `run_sound` — **every state of a run is sound**.
-/

import Darkmatter.Engine.Pass
import Darkmatter.Projection.Branching

namespace Darkmatter

open Std Lib List

/-! ### Rows -/

variable {Group : Type} (mls : OpenMls Group)

section Rows

variable {mls : OpenMls Group} {records : List MessageRecord} {id : String} {state : MessageState}

theorem SoundRows.updated (sound : SoundRows mls records) {updated : List MessageRecord}
    (written : updateMessageState records id state = some updated) :
    SoundRows mls updated ∧ updated.map MessageRecord.id = records.map MessageRecord.id := by
  have rows := updateMessageState_eq sound.ids written
  have ids : updated.map MessageRecord.id = records.map MessageRecord.id := by
    rw [rows, map_map]
    refine map_congr_left fun record _ => ?_
    simp only [Function.comp_apply]
    split <;> rfl
  refine ⟨⟨?_, ids ▸ sound.ids⟩, ids⟩
  rw [rows]
  intro _ member message payload
  obtain ⟨old, known, rfl⟩ := mem_map.mp member
  split_ifs at payload ⊢ <;> exact sound.stored old known message payload

theorem TimelyCommits.updated (timely : TimelyCommits mls records)
    (distinct : (records.map MessageRecord.id).Nodup) {updated : List MessageRecord}
    (written : updateMessageState records id state = some updated) : TimelyCommits mls updated := by
  rw [updateMessageState_eq distinct written]
  intro _ member message payload
  obtain ⟨old, known, rfl⟩ := mem_map.mp member
  split_ifs at payload ⊢ <;> exact timely old known message payload

end Rows

/-! ### Storage -/

section Storage

/-- **What publishing may assume of OpenMLS**: the client's own commit is a commit of the epoch it
was made in. -/
structure OpenMls.PublishLaws : Prop extends mls.EpochLaws where
  own : ∀ {group merged : Group} {bytes : Bytes}, mls.mergePendingCommit group bytes = some merged →
    mls.decode bytes = .ok (some ⟨.commit, mls.epoch group⟩)

/-- A state that follows another one by commits: replayed, or the client's own. -/
inductive OpenMls.Advances (group after : Group) : Prop
  | replayed {messages : List TransportMessage} {observations : List OpenMlsReplayObservation}
      (ran : mls.processOpenmlsMessagesInner group messages = .ok ⟨observations, after⟩)
      (commits : mls.commitsOf messages ≠ [])
  | merged {bytes : Bytes} (merged : mls.mergePendingCommit group bytes = some after)

/-- A state the storage can move forward from: the live one, or an anchor of an earlier epoch. -/
def GroupStorage.Holds (storage : GroupStorage Group) (start : Nat) (group : Group) : Prop :=
  (start = storage.live.epoch ∧ group = storage.live.mls) ∨
    (start < storage.live.epoch ∧ ∃ snapshot, storage.anchor start = some snapshot ∧
      group = snapshot.mls)

/-- **What a step does to the storage.** -/
inductive StorageEffect (maxRewind : Nat) (before after : GroupStorage Group) : Prop
  | rows (group : after.live.mls = before.live.mls) (epoch : after.live.epoch = before.live.epoch)
      (grown : before.live.messages.map MessageRecord.id <+:
        after.live.messages.map MessageRecord.id)
      (sound : SoundRows mls after.live.messages) (timely : TimelyCommits mls after.live.messages)
      (anchors : ∀ epoch, after.anchor epoch = before.anchor epoch)
  | retained (live : after.live = before.live)
      (anchors : ∀ epoch, after.anchor epoch =
        (before.retainCurrentGroupEpochSnapshot maxRewind).anchor epoch)
  | moved {start : Nat} {group : Group} {left : GroupSnapshot Group}
      (starts : before.Holds start group) (advances : mls.Advances group after.live.mls)
      (epoch : after.live.epoch = mls.epoch after.live.mls)
      (grown : before.live.messages.map MessageRecord.id <+:
        after.live.messages.map MessageRecord.id)
      (sound : SoundRows mls after.live.messages) (timely : TimelyCommits mls after.live.messages)
      (leftLive : left.mls = before.live.mls ∧ left.epoch = before.live.epoch ∧
        left.messages.map MessageRecord.id <+: after.live.messages.map MessageRecord.id)
      (anchors : ∀ epoch, after.anchor epoch =
        if epoch < after.live.epoch - maxRewind then none
        else if epoch = after.live.epoch then some after.live
        else if start = before.live.epoch ∧ epoch = before.live.epoch then some left
        else before.anchor epoch)

variable {mls} {group : Group} {storage : GroupStorage Group} {start : Nat}

theorem OpenMls.Advances.epoch_lt (laws : mls.EpochLaws) {after : Group}
    (advances : mls.Advances group after) : mls.epoch group < mls.epoch after := by
  cases advances with
  | replayed ran commits =>
    have counted := epoch_of_replay laws ran
    have some : 0 < (mls.commitsOf _).length := length_pos_iff.mpr commits
    simp only at counted
    omega
  | merged merged =>
    have next := laws.pendingMerged merged
    omega

theorem SoundStorage.start_epoch (sound : SoundStorage mls storage)
    (starts : storage.Holds start group) :
    mls.epoch group = start ∧ start ≤ storage.live.epoch := by
  rcases starts with ⟨rfl, rfl⟩ | ⟨older, snapshot, anchored, rfl⟩
  · exact ⟨sound.epoch.symm, le_rfl⟩
  · exact ⟨(sound.anchors start snapshot anchored).2.1, older.le⟩

/-- **A step keeps the storage sound.** -/
theorem StorageEffect.sound {maxRewind : Nat} {before after : GroupStorage Group}
    (effect : StorageEffect mls maxRewind before after) (sound : SoundStorage mls before) :
    SoundStorage mls after := by
  cases effect with
  | rows group epoch grown rows timely anchors =>
    refine ⟨rows, timely, by rw [epoch, group, sound.epoch], fun e snapshot anchored => ?_⟩
    rw [anchors] at anchored
    obtain ⟨first, second, older⟩ := sound.anchors e snapshot anchored
    exact ⟨first, second, older.trans grown⟩
  | retained live anchors =>
    refine ⟨live ▸ sound.rows, live ▸ sound.timely, live ▸ sound.epoch, fun e snapshot anchored => ?_⟩
    rw [anchors, anchor_retain] at anchored
    split_ifs at anchored with _ here
    · cases anchored
      exact ⟨here.symm, sound.epoch ▸ here.symm, live ▸ prefix_rfl⟩
    · rw [live]
      exact sound.anchors e snapshot anchored
  | moved starts advances epoch grown rows timely leftLive anchors =>
    refine ⟨rows, timely, epoch, fun e snapshot anchored => ?_⟩
    rw [anchors] at anchored
    split_ifs at anchored with _ here left
    · cases anchored
      exact ⟨here.symm, epoch ▸ here.symm, prefix_rfl⟩
    · cases anchored
      obtain ⟨group, epoch, older⟩ := leftLive
      exact ⟨epoch.trans left.2.symm, by rw [group, ← sound.epoch, left.2], older⟩
    · obtain ⟨first, second, older⟩ := sound.anchors e snapshot anchored
      exact ⟨first, second, older.trans grown⟩

theorem anchor_moved {live : GroupSnapshot Group} (maxRewind epoch : Nat)
    (forward : start < live.epoch) :
    (storage.moved start maxRewind live).anchor epoch =
      if epoch < live.epoch - maxRewind then none
      else if epoch = live.epoch then some live
      else if start = storage.live.epoch ∧ epoch = storage.live.epoch then some storage.live
      else storage.anchor epoch := by
  rw [GroupStorage.moved, anchor_retain]
  simp only
  by_cases pruned : epoch < live.epoch - maxRewind
  · rw [if_pos pruned, if_pos pruned]
  rw [if_neg pruned, if_neg pruned]
  by_cases here : epoch = live.epoch
  · rw [if_pos here, if_pos here]
  rw [if_neg here, if_neg here]
  by_cases current : start = storage.live.epoch
  · rw [if_pos current]
    -- What the first of the two retentions releases, the second one releases as well.
    change (storage.retainCurrentGroupEpochSnapshot maxRewind).anchor epoch = _
    rw [anchor_retain, if_neg (by omega)]
    simp only [current, true_and]
  · rw [if_neg current, if_neg (fun both => current both.1)]
    rfl

end Storage

/-- The symbolic OpenMLS takes a commit of the client on the state it was made on. -/
theorem symbolicMls_publishLaws (own : List UInt8) : (symbolicMls own).PublishLaws where
  toEpochLaws := symbolicMls_epochLaws own
  own := by
    intro _ _ _ made
    simp only [symbolicMls, symbolicPendingCommit] at made ⊢
    split at made
    · split at made
      · rename_i own
        rw [symbolicDecode, own.2]
      · cases made
    · cases made

/-! ### The engine -/

section Steps

variable (engine : Engine Group)

/-- **The engine between steps.** -/
structure Engine.Sound : Prop where
  storage : SoundStorage mls engine.storage
  tip : engine.epochState.epoch = engine.storage.live.epoch
  recovery : ∀ record ∈ engine.incumbents, ∃ sourceEpoch counter,
    record.snapshotName = .forkRecovery sourceEpoch counter

/-- What a step does to the engine, as far as its anchors are concerned. -/
structure StepEffect (after : Engine Group) : Prop where
  storage : StorageEffect mls engine.policy.convergence.maxRewindCommits engine.storage after.storage
  policy : after.policy = engine.policy
  tip : after.epochState.epoch = after.storage.live.epoch
  recovery : ∀ record ∈ after.incumbents, ∃ sourceEpoch counter,
    record.snapshotName = .forkRecovery sourceEpoch counter

variable {mls engine}
  {after : Engine Group} {message : TransportMessage} {nowMs : Nat} {next : Engine Group}
  {rows : List MessageRecord} {record : MessageRecord} {mlsBytes : Bytes}
  {priority : CommitOrderingPriority} {committer : Bytes}

theorem StepEffect.sound (effect : StepEffect mls engine after) (sound : engine.Sound mls) :
    after.Sound mls :=
  ⟨effect.storage.sound sound.storage, effect.tip, effect.recovery⟩

theorem StorageEffect.refl {maxRewind : Nat} {storage : GroupStorage Group}
    (sound : SoundStorage mls storage) : StorageEffect mls maxRewind storage storage :=
  .rows rfl rfl prefix_rfl sound.rows sound.timely fun _ => rfl

theorem StepEffect.refl (sound : engine.Sound mls) : StepEffect mls engine engine :=
  ⟨.refl sound.storage, rfl, sound.tip, sound.recovery⟩

/-- The engine with a message put in as created. -/
def Engine.buffered (mls : OpenMls Group) (engine : Engine Group) (message : TransportMessage)
    (epoch nowMs : Nat) : Engine Group :=
  { engine.putMessage
      { id := mls.contentDedupId message.payload
        groupId := engine.groupId
        epoch
        state := .created
        payload := .openmlsWire { message with id := mls.contentDedupId message.payload } }
    with lastConvergenceRelevantInputMs := some nowMs }

/-- A message that is buffered is stored as created, unless the table holds it. -/
theorem buffer_cases
    (buffered : bufferOpenmlsConvergenceMessage mls engine message nowMs = .ok next) :
    next = engine ∨ ∃ kind epoch,
      mls.decode message.payload = .ok (some ⟨kind, epoch⟩) ∧
      (∀ record, engine.getMessage (mls.contentDedupId message.payload) = some record →
        record.state = .peelDeferred) ∧
      next = engine.buffered mls message epoch nowMs := by
  have stores : ∀ {next : Engine Group},
      storeConvergenceMessage mls engine message nowMs = .ok next → next = engine ∨ ∃ kind epoch,
        mls.decode message.payload = .ok (some ⟨kind, epoch⟩) ∧
          next = engine.buffered mls message epoch nowMs := by
    intro next stored
    rw [storeConvergenceMessage, OpenMls.projectMlsMessage] at stored
    cases decoded : mls.decode message.payload with
    | error => simp only [decoded] at stored; cases stored
    | ok protocol =>
      cases protocol with
      | none => simp only [decoded] at stored; cases stored; exact Or.inl rfl
      | some protocol =>
        obtain ⟨kind, epoch⟩ := protocol
        simp only [decoded] at stored
        refine Or.inr ⟨kind, epoch, rfl, ?_⟩
        cases kind <;> simp only [kindFromContentType] at stored <;> cases stored <;> rfl
  rw [bufferOpenmlsConvergenceMessage] at buffered
  cases known : engine.getMessage (mls.contentDedupId message.payload) with
  | none =>
    simp only [known] at buffered
    rcases stores buffered with same | ⟨kind, epoch, decoded, next⟩
    · exact Or.inl same
    · exact Or.inr ⟨kind, epoch, decoded, by simp, next⟩
  | some =>
    simp only [known] at buffered
    split_ifs at buffered with deferred
    · rcases stores buffered with same | ⟨kind, epoch, decoded, next⟩
      · exact Or.inl same
      · refine Or.inr ⟨kind, epoch, decoded, ?_, next⟩
        intro _ same
        cases same
        exact deferred
    · cases buffered
      exact Or.inl rfl

theorem buffer_effect (sound : engine.Sound mls)
    (buffered : bufferOpenmlsConvergenceMessage mls engine message nowMs = .ok next) :
    StepEffect mls engine next := by
  rcases buffer_cases buffered with rfl | ⟨kind, epoch, decoded, _, rfl⟩
  · exact .refl sound
  · refine ⟨.rows rfl rfl (putMessage_grows _) (sound.storage.rows.put ?_)
      (sound.storage.timely.put sound.storage.rows.ids ?_) fun _ => rfl, rfl, sound.tip,
      sound.recovery⟩
    · intro _ payload
      cases payload
      exact ⟨rfl, kind, epoch, decoded⟩
    · intro _ payload _
      cases payload
      rw [OpenMls.sourceEpochOf, decoded]

theorem pass_effect (laws : mls.EpochLaws) (sound : engine.Sound mls)
    {reported : Except OpenMlsProjectionError CanonicalizationResult}
    {observed : List OpenMlsReplayObservation}
    (effect : PassEffect mls engine nowMs reported observed after) :
    StepEffect mls engine after := by
  cases effect with
  | halted | refused | waiting => exact .refl sound
  | lost =>
    exact ⟨.refl sound.storage, rfl, sound.tip, sound.recovery⟩
  | failed decision quiet same =>
    rcases same with rfl | rfl
    · exact .refl sound
    · exact ⟨.retained rfl fun _ => rfl, rfl, sound.tip, sound.recovery⟩
  | idle decision quiet none =>
    refine ⟨.rows rfl rfl ?_ (sound.storage.rows.settled _) (sound.storage.timely.settled _)
      fun _ => rfl, rfl, ?_, sound.recovery⟩
    · exact settledRows_ids _ _ ▸ prefix_rfl
    · simp only [Engine.applied, none, Option.map_none, Option.getD_none]
      exact sound.tip
  | @moved result group tip start path before after output decision quiet selected ended accepted
      reached proposals applications begins replayed delivers =>
    obtain ⟨rfl, rfl⟩ :=
      decision.start_eq sound.storage.rows sound.storage.timely selected begins
    generalize (engine.storage.startingAt (engine.passStart mls)).mls = group at *
    have starts : engine.storage.Holds (engine.passStart mls) group := decision.starts
    have onlyCommits := commitsOf_path sound.storage.rows ended proposals applications
    have advances : mls.Advances group output.group := by
      refine .replayed replayed ?_
      rw [onlyCommits]
      obtain ⟨_, _, _, here, _⟩ := passPaths_first ended
      rw [here]
      exact cons_ne_nil _ _
    have forward : engine.passStart mls < mls.epoch output.group :=
      (sound.storage.start_epoch starts).1 ▸ advances.epoch_lt laws
    have rows := sound.storage.replayed_messages (engine.passStart mls) output.group result
    have grown : engine.storage.live.messages.map MessageRecord.id <+:
        (engine.storage.replayed mls (engine.passStart mls) output.group result).messages.map
          MessageRecord.id := by
      rw [rows, settledRows_ids]
    refine ⟨.moved starts advances rfl grown ?_ ?_ ⟨rfl, rfl, grown⟩
      fun epoch => anchor_moved _ _ forward, rfl, ?_, sound.recovery⟩
    · show SoundRows mls
        (engine.storage.replayed mls (engine.passStart mls) output.group result).messages
      rw [rows]
      exact sound.storage.rows.settled _
    · show TimelyCommits mls
        (engine.storage.replayed mls (engine.passStart mls) output.group result).messages
      rw [rows]
      exact sound.storage.timely.settled _
    · simp only [Engine.applied, selected, Option.map_some, Option.getD_some, moved_live, reached]
      have counted := epoch_of_replay laws replayed
      rw [onlyCommits] at counted
      exact counted.symm

/-! ### Publishing -/

def Engine.withRows (engine : Engine Group) (messages otherRows : List MessageRecord) :
    Engine Group :=
  { engine with
    storage := { engine.storage with live := { engine.storage.live with messages } }
    otherRows }

/-- Rows that grew from older ones and are sound when those are. -/
structure GrownRows (mls : OpenMls Group) (older rows : List MessageRecord) : Prop where
  ids : older.map MessageRecord.id <+: rows.map MessageRecord.id
  sound : SoundRows mls older → SoundRows mls rows
  timely : SoundRows mls older → TimelyCommits mls older → TimelyCommits mls rows

theorem GrownRows.refl (rows : List MessageRecord) : GrownRows mls rows rows :=
  ⟨prefix_rfl, id, fun _ => id⟩

theorem GrownRows.trans {older newer : List MessageRecord} (first : GrownRows mls older rows)
    (second : GrownRows mls rows newer) : GrownRows mls older newer :=
  ⟨first.ids.trans second.ids, fun sound => second.sound (first.sound sound),
    fun sound timely => second.timely (first.sound sound) (first.timely sound timely)⟩

theorem GrownRows.put (stored : StoredRow mls record) (onTime : TimelyRow mls record) :
    GrownRows mls rows (putMessage rows record) :=
  ⟨putMessage_grows record, fun sound => sound.put stored,
    fun sound timely => timely.put sound.ids onTime⟩

theorem persist_rows (engine : Engine Group) (id : String) (epoch : Nat) (state : MessageState)
    (payload : StoredMessagePayload) :
    (engine.persistStoredMessagePayload id epoch state payload = engine ∧
        ∃ previous, engine.getMessage id = some previous ∧ previous.epoch = epoch ∧
          previous.state = state) ∨
      engine.persistStoredMessagePayload id epoch state payload =
        engine.putMessage ⟨id, engine.groupId, epoch, state, payload⟩ := by
  rw [Engine.persistStoredMessagePayload]
  cases known : engine.getMessage id with
  | none => exact Or.inr rfl
  | some previous =>
    simp only
    split_ifs with same
    · exact Or.inl ⟨rfl, previous, rfl, same.2⟩
    · exact Or.inr rfl

theorem SoundRows.engine_getMessage (sound : SoundRows mls engine.storage.live.messages)
    (member : record ∈ engine.storage.live.messages) :
    engine.getMessage record.id = some record := by
  have found := sound.getMessage_eq member
  rw [Darkmatter.getMessage] at found
  rw [Engine.getMessage, Darkmatter.getMessage, find?_append, found]
  rfl

theorem persist_cases (mls : OpenMls Group) (engine : Engine Group) (id : String) (epoch : Nat)
    (state : MessageState) (payload : StoredMessagePayload) :
    ∃ messages otherRows,
      engine.persistStoredMessagePayload id epoch state payload =
        engine.withRows messages otherRows ∧
      (StoredRow mls ⟨id, engine.groupId, epoch, state, payload⟩ →
        TimelyRow mls ⟨id, engine.groupId, epoch, state, payload⟩ →
          GrownRows mls engine.storage.live.messages messages) := by
  rcases persist_rows engine id epoch state payload with ⟨same, _⟩ | put
  · rw [same]
    exact ⟨_, _, rfl, fun _ _ => .refl _⟩
  · rw [put]
    exact ⟨_, _, rfl, GrownRows.put⟩

theorem recordSent_cases (mls : OpenMls Group) (engine : Engine Group) (message : TransportMessage)
    (mlsBytes : Bytes) (epoch : Nat) :
    ∃ messages otherRows sentMessageIds,
      engine.recordSentOpenmlsMessage mls message mlsBytes epoch =
        { engine.withRows messages otherRows with sentMessageIds } ∧
      (∀ kind, mls.decode mlsBytes = .ok (some ⟨kind, epoch⟩) →
        GrownRows mls engine.storage.live.messages messages) := by
  obtain ⟨messages, otherRows, sent, first⟩ := persist_cases mls engine message.id epoch .sent
    (.openmlsWire { message with payload := mlsBytes })
  have grown : ∀ kind, mls.decode mlsBytes = .ok (some ⟨kind, epoch⟩) →
      GrownRows mls engine.storage.live.messages messages := by
    intro kind decoded
    refine first (fun stored payload => ?_) fun stored payload _ => ?_
    · cases payload
      exact ⟨rfl, _, _, decoded⟩
    · cases payload
      rw [OpenMls.sourceEpochOf, decoded]
  simp only [Engine.recordSentOpenmlsMessage, sent]
  split_ifs with named
  · exact ⟨messages, otherRows, _, rfl, grown⟩
  · obtain ⟨messages', otherRows', marked, second⟩ :=
      persist_cases mls (engine.withRows messages otherRows) (mls.contentDedupId mlsBytes) epoch
        .sent
        (.rawTransport { message with payload := mlsBytes, id := mls.contentDedupId mlsBytes })
    refine ⟨messages', otherRows', _, by rw [marked]; rfl, fun kind decoded =>
      (grown kind decoded).trans ?_⟩
    exact second (fun _ payload => by cases payload) fun _ payload => by cases payload

theorem release_snapshots (records : List CommitRecoveryRecord) (storage : GroupStorage Group) :
    (records.foldl (fun storage record => storage.releaseGroupSnapshot record.snapshotName)
        storage).live = storage.live ∧
      ∀ name, (records.foldl (fun storage record =>
        storage.releaseGroupSnapshot record.snapshotName) storage).snapshots name =
          if name ∈ records.map CommitRecoveryRecord.snapshotName then none
          else storage.snapshots name := by
  induction records generalizing storage with
  | nil => exact ⟨rfl, fun name => by simp⟩
  | cons record rest ih =>
    obtain ⟨live, snapshots⟩ := ih (storage.releaseGroupSnapshot record.snapshotName)
    refine ⟨live, fun name => ?_⟩
    rw [foldl_cons, snapshots, map_cons]
    by_cases later : name ∈ rest.map CommitRecoveryRecord.snapshotName
    · rw [if_pos later, if_pos (mem_cons_of_mem _ later)]
    · rw [if_neg later]
      by_cases here : name = record.snapshotName
      · rw [if_pos (here ▸ mem_cons_self)]
        exact if_pos here
      · rw [if_neg fun member => (mem_cons.mp member).elim here later]
        exact if_neg here

/-- Forgetting what is too old leaves the live group alone. -/
@[simp] theorem pruneForkRecovery_live (engine : Engine Group) :
    engine.pruneForkRecovery.storage.live = engine.storage.live :=
  (release_snapshots _ engine.storage).1

/-- Releasing recovery snapshots leaves the anchors alone. -/
theorem pruneForkRecovery_fields
    (recovery : ∀ record ∈ engine.incumbents, ∃ sourceEpoch counter,
      record.snapshotName = .forkRecovery sourceEpoch counter) :
    engine.pruneForkRecovery.storage.live = engine.storage.live ∧
      (∀ epoch, engine.pruneForkRecovery.storage.anchor epoch = engine.storage.anchor epoch) ∧
      ∀ record ∈ engine.pruneForkRecovery.incumbents, ∃ sourceEpoch counter,
        record.snapshotName = .forkRecovery sourceEpoch counter := by
  refine ⟨pruneForkRecovery_live engine, fun epoch => ?_, fun record member =>
    recovery record (mem_filter.mp member).1⟩
  rw [GroupStorage.anchor, GroupStorage.anchor]
  refine ((release_snapshots _ engine.storage).2 _).trans (if_neg fun released => ?_)
  obtain ⟨record, member, same⟩ := mem_map.mp released
  obtain ⟨_, _, name⟩ := recovery record (mem_filter.mp member).1
  rw [name] at same
  cases same

/-- The engine after the group was captured for a recovery. -/
def Engine.captured (mls : OpenMls Group) (engine : Engine Group) : Engine Group :=
  { engine with
    storage := engine.storage.createGroupSnapshot
      (.forkRecovery (mls.epoch engine.storage.live.mls) (engine.snapshotCounter + 1)) }

/-- **What staging a commit does**: the group is captured, the commit is recorded as sent, and its
publication is waited for. -/
theorem stageCommit_cases {staged : Engine Group}
    (isStaged : stageCommit mls engine message mlsBytes priority committer = some staged) :
    ∃ epoch messages otherRows sentMessageIds, engine.epochState = .stable epoch ∧
      (∀ kind, mls.decode mlsBytes = .ok (some ⟨kind, mls.epoch engine.storage.live.mls⟩) →
        GrownRows mls engine.storage.live.messages messages) ∧
      (engine.captured mls).recordSentOpenmlsMessage mls message mlsBytes
        (mls.epoch engine.storage.live.mls) =
          { (engine.captured mls).withRows messages otherRows with sentMessageIds } ∧
      staged = { (engine.captured mls).withRows messages otherRows with
        sentMessageIds
        snapshotCounter := engine.snapshotCounter + 1
        committedFrom := mls.epoch engine.storage.live.mls :: engine.committedFrom
        epochState := .pendingPublish (mls.epoch engine.storage.live.mls + 1)
        pendingCommit := some ⟨mlsBytes, ⟨mls.epoch engine.storage.live.mls,
          ⟨mls.epoch engine.storage.live.mls, priority, committer, mls.sha256 mlsBytes⟩, message.id,
          .forkRecovery (mls.epoch engine.storage.live.mls) (engine.snapshotCounter + 1)⟩⟩ } := by
  rw [stageCommit] at isStaged
  split at isStaged
  swap
  · cases isStaged
  rename_i epoch stable
  obtain ⟨messages, otherRows, sentMessageIds, sent, grows⟩ := recordSent_cases mls
    (engine.captured mls) message mlsBytes (mls.epoch engine.storage.live.mls)
  refine ⟨epoch, messages, otherRows, sentMessageIds, stable, grows, sent, ?_⟩
  rw [Engine.captured] at sent
  simp only [sent] at isStaged
  exact (Option.some.inj isStaged).symm

/-- The engine with the merged commit in its storage, and anchors before and after it. -/
def Engine.mergedTo (mls : OpenMls Group) (engine : Engine Group) (epoch : Nat) (merged : Group)
    (messages : List MessageRecord) : Engine Group :=
  { engine with
    storage := ({ engine.storage.retainCurrentGroupEpochSnapshot
        engine.policy.convergence.maxRewindCommits with
      live := { engine.storage.live with mls := merged, epoch := mls.epoch merged, messages } } :
        GroupStorage Group).retainCurrentGroupEpochSnapshot
          engine.policy.convergence.maxRewindCommits
    epochState := .stable epoch
    pendingCommit := none
    events := engine.events ++ [.epochChanged (epoch - 1) epoch] }

/-- **What confirming a commit does**: the commit that was waited for is merged, and recorded as
applied. -/
theorem confirmPublished_cases (confirmed : confirmPublished mls engine = some after) :
    ∃ pending epoch merged messages, engine.pendingCommit = some pending ∧
      engine.epochState = .pendingPublish epoch ∧
      mls.mergePendingCommit engine.storage.live.mls pending.bytes = some merged ∧
      updateMessageState engine.storage.live.messages pending.record.storageId .processed =
        some messages ∧
      after = ((engine.mergedTo mls epoch merged messages).recordApplied
        pending.record).pruneForkRecovery := by
  rw [confirmPublished] at confirmed
  split at confirmed
  swap
  · cases confirmed
  rename_i pending epoch waits state
  simp only [retain_live] at confirmed
  split at confirmed
  swap
  · cases confirmed
  rename_i merged messages isMerged written
  cases confirmed
  exact ⟨pending, epoch, merged, messages, waits, state, isMerged, written, rfl⟩

/-- A commit that is confirmed moves the group on from the live state. -/
theorem confirmPublished_fields {pending : PendingCommit}
    (isPending : engine.pendingCommit = some pending)
    (recovery : ∀ record ∈ pending.record :: engine.incumbents, ∃ sourceEpoch counter,
      record.snapshotName = .forkRecovery sourceEpoch counter)
    (confirmed : confirmPublished mls engine = some after) :
    ∃ merged messages,
      mls.mergePendingCommit engine.storage.live.mls pending.bytes = some merged ∧
      updateMessageState engine.storage.live.messages pending.record.storageId .processed =
        some messages ∧
      after.storage.live =
        { engine.storage.live with mls := merged, epoch := mls.epoch merged, messages } ∧
      (∀ epoch, after.storage.anchor epoch =
        (engine.storage.moved engine.storage.live.epoch engine.policy.convergence.maxRewindCommits
          after.storage.live).anchor epoch) ∧
      after.policy = engine.policy ∧ after.epochState = .stable engine.epochState.epoch ∧
      ∀ record ∈ after.incumbents, ∃ sourceEpoch counter,
        record.snapshotName = .forkRecovery sourceEpoch counter := by
  obtain ⟨_, epoch, merged, messages, isPending', isState, isMerged, written, rfl⟩ :=
    confirmPublished_cases confirmed
  rw [isPending] at isPending'
  cases isPending'
  obtain ⟨live, anchors, kept⟩ := @pruneForkRecovery_fields _
    ((engine.mergedTo mls epoch merged messages).recordApplied pending.record) (by
      intro record member
      rcases mem_cons.mp member with rfl | old
      · exact recovery _ mem_cons_self
      · exact recovery record (mem_cons_of_mem _ (mem_filter.mp old).1))
  refine ⟨merged, messages, isMerged, written, live, fun e => ?_, rfl, by rw [isState]; rfl, kept⟩
  rw [live, anchors, GroupStorage.moved, if_pos rfl]
  rfl

/-- **What publishing a commit does.** -/
theorem publish_effect (laws : mls.PublishLaws) (sound : engine.Sound mls)
    (published : (stageCommit mls engine message mlsBytes priority committer).bind
      (confirmPublished mls) = some after) :
    StepEffect mls engine after ∧
      mls.mergePendingCommit engine.storage.live.mls mlsBytes = some after.storage.live.mls ∧
      after.epochState = .stable after.storage.live.epoch := by
  obtain ⟨_, isStaged, confirmed⟩ := Option.bind_eq_some_iff.mp published
  obtain ⟨_, messages, _, _, _, grows, _, rfl⟩ := stageCommit_cases isStaged
  obtain ⟨merged, updated, isMerged, written, live', anchors', policy', state', recovery⟩ :=
    confirmPublished_fields rfl (by
      intro record member
      rcases mem_cons.mp member with rfl | old
      · exact ⟨_, _, rfl⟩
      · exact sound.recovery record old) confirmed
  change mls.mergePendingCommit engine.storage.live.mls mlsBytes = some merged at isMerged
  change updateMessageState messages _ _ = some updated at written
  have grown := grows _ (laws.own isMerged)
  have rows := grown.sound sound.storage.rows
  obtain ⟨rows', ids⟩ := rows.updated written
  have next := laws.pendingMerged isMerged
  have forward : engine.storage.live.epoch < after.storage.live.epoch := by
    rw [sound.storage.epoch, live', next]
    exact Nat.lt_succ_self _
  rw [live']
  refine ⟨⟨@StorageEffect.moved _ mls _ _ _ engine.storage.live.epoch engine.storage.live.mls
    { engine.storage.live with messages } (Or.inl ⟨rfl, rfl⟩) ?_ ?_ ?_ ?_ ?_ ?_ ?_, policy', ?_,
    recovery⟩, isMerged, ?_⟩
  · rw [live']
    exact .merged isMerged
  · rw [live']
  · rw [live']
    exact ids ▸ grown.ids
  · rw [live']
    exact rows'
  · rw [live']
    exact (grown.timely sound.storage.rows sound.storage.timely).updated rows.ids written
  · rw [live']
    exact ⟨rfl, rfl, ids ▸ prefix_rfl⟩
  · intro _
    rw [anchors']
    exact anchor_moved _ _ forward
  · rw [state', live', next]
    rfl
  · rw [state', next]
    rfl

/-! ### Runs -/

/-- A step that buffers a message changes rows only. -/
theorem step_buffer (engine : Engine Group) (message : TransportMessage) (nowMs : Nat) :
    ∃ messages otherRows input, engine.step mls (.buffer message nowMs) =
      { engine.withRows messages otherRows with lastConvergenceRelevantInputMs := input } := by
  rw [Engine.step]
  cases buffered : bufferOpenmlsConvergenceMessage mls engine message nowMs with
  | error => exact ⟨_, _, engine.lastConvergenceRelevantInputMs, rfl⟩
  | ok next =>
    rcases buffer_cases buffered with rfl | ⟨_, _, _, _, rfl⟩
    · exact ⟨_, _, next.lastConvergenceRelevantInputMs, rfl⟩
    · exact ⟨_, _, some nowMs, rfl⟩

/-- **What a step does.** -/
theorem step_effect (laws : mls.PublishLaws) (sound : engine.Sound mls) (step : EngineStep) :
    StepEffect mls engine (engine.step mls step) := by
  cases step with
  | buffer message nowMs =>
    rw [Engine.step]
    cases buffered : bufferOpenmlsConvergenceMessage mls engine message nowMs with
    | ok => exact buffer_effect sound buffered
    | error => exact .refl sound
  | converge nowMs =>
    exact pass_effect laws.toEpochLaws sound (sound.storage.converge_cases laws.toEpochLaws nowMs)
  | publish message mlsBytes priority committer =>
    rw [Engine.step]
    cases published : (stageCommit mls engine message mlsBytes priority committer).bind
        (confirmPublished mls) with
    | none => exact .refl sound
    | some after => exact (publish_effect laws sound published).1

theorem run_append (steps : List EngineStep) (step : EngineStep) :
    engine.run mls (steps ++ [step]) = (engine.run mls steps).step mls step := by
  rw [Engine.run, foldl_append]
  rfl

/-- **The states of a run are sound.** -/
theorem run_sound (laws : mls.PublishLaws) (sound : engine.Sound mls) (steps : List EngineStep) :
    (engine.run mls steps).Sound mls ∧ (engine.run mls steps).policy = engine.policy := by
  induction steps using reverseRecOn with
  | nil => exact ⟨sound, rfl⟩
  | append_singleton steps step ih =>
    rw [run_append]
    have effect := step_effect laws ih.1 step
    exact ⟨effect.sound ih.1, effect.policy.trans ih.2⟩

end Steps

end Darkmatter
