/-
**From the engine's events to the rows of a client.**

A client takes the events of the engine from three kinds of steps: the delivery of a transport message,
a scheduled convergence pass and a drain. Before it looks at the events, it stops when a publication of
the step has failed. A delivery and a pass record every app message under the id of the transport
message, which is empty for a pass; a drain records nothing. A recorded message and the end of a pass
delete the rows of the group that its retention has expired.

* `ClientStep`, `AppEvents.clientStep`, `AppEvents.clientRun` — the steps and their runs;
* `ClientStep.released` — the app messages that a step releases;
* `ClientStep.Undisturbed` — publications succeed and drains release nothing;
* `ClientStep.Lasts` — the retention of a step leaves a row;
* `projection_complete` — **in an undisturbed run every message ends as its own row**.
-/

import Darkmatter.Engine.StateChanges
import Darkmatter.Timeline.AppEvents

namespace Darkmatter

open List Option

/-! ### Events -/

/-- An app event inside a message. -/
structure InnerEvent where
  id : String
  pubkey : String
  kind : Nat
  tags : List (List String)
  content : String
deriving DecidableEq, Repr

/-- What the application hears from the engine. -/
inductive AccountEvent
  | messageReceived (groupId sender : Bytes) (epoch : Nat) (payload : Bytes)
  | appMessageInvalidated (groupId messageId : Bytes) (reason : String)
  | forkRecovered (groupId invalidatedCommitId : Bytes)
  | commitRolledBack (groupId invalidatedCommitId : Bytes)
  | groupStateChanged (groupId : Bytes) (epoch : Nat) (actor : Option Bytes)
      (change : GroupStateChange) (originCommitId : Option Bytes)
  | other (groupId : Bytes)
deriving DecidableEq, Repr

def AccountEvent.groupId : AccountEvent → Bytes
  | .messageReceived groupId _ _ _ => groupId
  | .appMessageInvalidated groupId _ _ => groupId
  | .forkRecovered groupId _ => groupId
  | .commitRolledBack groupId _ => groupId
  | .groupStateChanged groupId _ _ _ _ => groupId
  | .other groupId => groupId

structure ReceivedMessage where
  messageIdHex : String
  sender : String
  groupIdHex : String
  sourceEpoch : Nat
  plaintext : String
  kind : Nat
  tags : List (List String)
deriving DecidableEq, Repr

def ReceivedMessage.key (message : ReceivedMessage) : String × String :=
  (message.groupIdHex, message.messageIdHex)

/-- What a group system row is made of. -/
structure GroupSystemEventMaterial where
  messageIdHex : String
  sender : String
  content : String
  tags : List (List String)
deriving DecidableEq, Repr

/-- **The codecs**: the inner events, the references to media, and the material of a system row. -/
structure EventCodec where
  decode : Bytes → Option InnerEvent
  mediaImetaTagsAreValid : List (List String) → Bool
  groupSystemEventMaterial : Bytes → Nat → Option Bytes → GroupStateChange →
    Option GroupSystemEventMaterial

def isPushGossipKind (kind : Nat) : Bool := kind = 447 ∨ kind = 448 ∨ kind = 449

section Observing

variable (codec : EventCodec)

/-- The inner event has to name the authenticated sender; a chat message with media has to have valid
references. -/
def decodeReceivedEvent (groupId sender : Bytes) (epoch : Nat) (payload : Bytes) :
    Option ReceivedMessage := do
  let event ← codec.decode payload
  if event.pubkey ≠ hexEncode sender then
    none
  else if event.kind = chatKind ∧ event.tags.any (fun tag => tag.head? = some "imeta") ∧
      ¬ codec.mediaImetaTagsAreValid event.tags then
    none
  else
    some
      { messageIdHex := event.id
        sender := hexEncode sender
        groupIdHex := hexEncode groupId
        sourceEpoch := epoch
        plaintext := event.content
        kind := event.kind
        tags := event.tags }

/-- The message of an event, unless it does not decode or carries push tokens. -/
def AccountEvent.message? : AccountEvent → Option ReceivedMessage
  | .messageReceived groupId sender epoch payload =>
    (decodeReceivedEvent codec groupId sender epoch payload).filter fun message =>
      !isPushGossipKind message.kind
  | _ => none

def ReceivedMessage.storedAppEvent (message : ReceivedMessage) (sourceMessageIdHex : String)
    (recordedAt receivedAt : Nat) : StoredAppEvent where
  groupIdHex := message.groupIdHex
  messageIdHex := message.messageIdHex
  sourceMessageIdHex := some sourceMessageIdHex
  sourceEpoch := some message.sourceEpoch
  direction := "received"
  sender := message.sender
  plaintext := message.plaintext
  kind := message.kind
  tags := message.tags
  recordedAt := recordedAt
  receivedAt := receivedAt
  originCommitId := none

/-- The system row of a state change. It names no source, and the commit that it came from. -/
def AccountEvent.systemRow (recordedAt receivedAt : Nat) : AccountEvent → Option StoredAppEvent
  | .groupStateChanged groupId epoch actor change originCommitId => do
    let material ← codec.groupSystemEventMaterial groupId epoch actor change
    some
      { groupIdHex := hexEncode groupId
        messageIdHex := material.messageIdHex
        sourceMessageIdHex := none
        sourceEpoch := some epoch
        direction := "system"
        sender := material.sender
        plaintext := material.content
        kind := groupSystemKind
        tags := material.tags
        recordedAt := recordedAt
        receivedAt := receivedAt
        originCommitId := originCommitId.map hexEncode }
  | _ => none

/-! ### Steps -/

inductive PendingResolution
  | confirmed
  | rolledBack
deriving DecidableEq, Repr

/-- What the publications of a step came to. -/
structure PublishOutcome where
  failures : List String
  pending : List PendingResolution
deriving DecidableEq, Repr

/-- A failed publication stops the step, unless something was confirmed and nothing rolled back. -/
def failIfPublishFailed (outcome : PublishOutcome) : Bool :=
  if outcome.failures = [] then
    true
  else if .rolledBack ∈ outcome.pending then
    false
  else
    .confirmed ∈ outcome.pending

inductive StepKind
  | delivery (messageId : Bytes) (timestamp : Nat)
  | convergence (groupId : Bytes)
  | drain
deriving DecidableEq, Repr

/-- **A step of a client**: the events that the engine emits in it, what the publications came to
(nothing, if the runtime returned an error), the groups whose routing can be read, whether the routes
are refreshed at the end, and for how many seconds a group keeps its messages (zero for ever). -/
structure ClientStep where
  kind : StepKind
  events : List AccountEvent
  published : Option PublishOutcome
  routed : Bytes → Bool
  refreshed : Bool
  disappearingMessageSecs : Bytes → Nat
  now : Nat

/-- The source that a step gives to its rows. -/
def ClientStep.sourceMessageIdHex (step : ClientStep) : String :=
  match step.kind with
  | .delivery messageId _ => hexEncode messageId
  | .convergence _ => ""
  | .drain => ""

def ClientStep.sourceRecordedAt (step : ClientStep) : Nat :=
  match step.kind with
  | .delivery _ timestamp => timestamp
  | .convergence _ => step.now
  | .drain => step.now

def ClientStep.released (step : ClientStep) : List ReceivedMessage :=
  step.events.filterMap (AccountEvent.message? codec)

def ClientStep.sources (step : ClientStep) : List String :=
  (step.released codec).map fun _ => step.sourceMessageIdHex

def ClientStep.systemRows (step : ClientStep) : List StoredAppEvent :=
  step.events.filterMap (AccountEvent.systemRow codec step.sourceRecordedAt step.now)

namespace AppEvents

/-- The rows of a group that its retention has expired are deleted. -/
def prunePlaintextRetentionForGroup (step : ClientStep) (store : AppEvents) (groupId : Bytes) :
    AppEvents :=
  if step.disappearingMessageSecs groupId = 0 then
    store
  else
    store.deleteRows fun row => row.groupIdHex = hexEncode groupId &&
      row.recordedAt < step.now - step.disappearingMessageSecs groupId

/-- One event: a message is recorded, and a withdrawal reaches the rows that name it. -/
def observeEvent (step : ClientStep) (store : AppEvents) (event : AccountEvent) : Option AppEvents :=
  match event.message? codec with
  | some message =>
    (store.recordAppEvent
      (message.storedAppEvent step.sourceMessageIdHex step.sourceRecordedAt step.now)).map
        fun store => store.prunePlaintextRetentionForGroup step event.groupId
  | none =>
    match event with
    | .appMessageInvalidated _ messageId reason =>
      some (store.invalidateBySource (hexEncode messageId) reason)
    | .forkRecovered _ commitId =>
      some (store.invalidateByOriginCommit (hexEncode commitId) "LosingBranch")
    | .commitRolledBack _ commitId =>
      some (store.invalidateByOriginCommit (hexEncode commitId) "LosingBranch")
    | _ => some store

/-- The events of a step, until one fails. The flag says that none did. -/
def observeEvents (step : ClientStep) (store : AppEvents) : List AccountEvent → Bool × AppEvents
  | [] => (true, store)
  | event :: rest =>
    if step.routed event.groupId then
      match observeEvent codec step store event with
      | none => (false, store)
      | some after => observeEvents step after rest
    else
      (false, store)

/-- The system rows are recorded. A row that is refused is skipped. -/
def projectGroupSystemRows (step : ClientStep) (store : AppEvents) : AppEvents :=
  (step.systemRows codec).foldl (fun store event => (store.recordAppEvent event).getD store) store

/-- The flag says that no event failed and that the routes were refreshed. -/
def observeAccountDeviceEffects (step : ClientStep) (store : AppEvents) : Bool × AppEvents :=
  let (finished, after) := observeEvents codec step store step.events
  if finished ∧ step.refreshed then
    (true, projectGroupSystemRows codec step after)
  else
    (false, after)

/-- **A step**, with the rows it leaves. -/
def clientStep (store : AppEvents) (step : ClientStep) : AppEvents :=
  match step.published with
  | none => store
  | some outcome =>
    if failIfPublishFailed outcome then
      match step.kind with
      | .drain => store
      | .delivery _ _ => (observeAccountDeviceEffects codec step store).2
      | .convergence groupId =>
        let (finished, after) := observeAccountDeviceEffects codec step store
        if finished then after.prunePlaintextRetentionForGroup step groupId else after
    else
      store

/-- **A run.** -/
def clientRun (store : AppEvents) (steps : List ClientStep) : AppEvents :=
  steps.foldl (clientStep codec) store

end AppEvents

end Observing

/-! ### Every message has its row -/

/-- **The retention of a step leaves a row** of the group that was recorded at the time. -/
def ClientStep.Lasts (step : ClientStep) (groupIdHex : String) (recordedAt : Nat) : Prop :=
  ∀ groupId, hexEncode groupId = groupIdHex → step.disappearingMessageSecs groupId = 0 ∨
    step.now ≤ recordedAt + step.disappearingMessageSecs groupId

/-- The message has a row, with its own sender, text and epoch, which was recorded at a lasting
time. -/
def AppEvents.Holds (lasting : String → Nat → Prop) (store : AppEvents)
    (message : ReceivedMessage) : Prop :=
  ∃ row, store.row? message.key = some row ∧ row.sender = message.sender ∧
    row.plaintext = message.plaintext ∧ row.sourceEpoch = some message.sourceEpoch ∧
    lasting message.groupIdHex row.recordedAt

namespace AppEvents

variable {codec : EventCodec} {store after : AppEvents} {message other : ReceivedMessage}
  {step : ClientStep} {source : String} {event : AccountEvent} {lasting : String → Nat → Prop}

theorem recordAppEvent_holds {recordedAt receivedAt : Nat}
    (recorded : store.recordAppEvent (message.storedAppEvent source recordedAt receivedAt) =
      some after) (lasts : lasting message.groupIdHex recordedAt) : after.Holds lasting message :=
  ⟨_, (recordAppEvent_row? recorded _).trans (if_pos rfl), rfl, rfl, rfl, lasts⟩

theorem recordAppEvent_holds_other {event : StoredAppEvent} (held : store.Holds lasting message)
    (recorded : store.recordAppEvent event = some after) (apart : message.key ≠ event.key) :
    after.Holds lasting message := by
  obtain ⟨row, found, own⟩ := held
  exact ⟨row, (recordAppEvent_row? recorded _).trans ((if_neg apart).trans found), own⟩

theorem invalidateRows_holds (held : store.Holds lasting message) (picks : AppEventRow → Bool)
    (reason : String) : (store.invalidateRows picks reason).Holds lasting message := by
  obtain ⟨_, found, own⟩ := held
  refine ⟨_, by rw [invalidateRows_row?, found, map_some], ?_⟩
  split_ifs <;> exact own

/-- **The retention leaves the rows that last.** -/
theorem prune_holds (held : store.Holds lasting message)
    (lasts : ∀ groupIdHex recordedAt, lasting groupIdHex recordedAt →
      step.Lasts groupIdHex recordedAt) (groupId : Bytes) :
    (store.prunePlaintextRetentionForGroup step groupId).Holds lasting message := by
  obtain ⟨row, found, sender, text, epoch, time⟩ := held
  rw [prunePlaintextRetentionForGroup]
  split_ifs with forever
  · exact ⟨row, found, sender, text, epoch, time⟩
  · refine ⟨row, ?_, sender, text, epoch, time⟩
    have own : row.groupIdHex = message.groupIdHex :=
      congrArg Prod.fst (row?_eq_some.mp found).2
    rw [deleteRows_row?, found, filter_some, if_pos]
    by_contra expired
    simp only [Bool.not_eq_true', Bool.not_eq_false, Bool.and_eq_true, decide_eq_true_eq] at expired
    have left := lasts _ _ time groupId (expired.1.symm.trans own)
    omega

theorem prune_names {groupId : Bytes}
    (named : (store.prunePlaintextRetentionForGroup step groupId).Names source) :
    store.Names source := by
  rw [prunePlaintextRetentionForGroup] at named
  split_ifs at named with forever
  · exact named
  · obtain ⟨row, listed, here⟩ := named
    exact ⟨row, mem_of_mem_filter listed, here⟩

/-- **What an event does**: it records its message, or it withdraws rows, or nothing. -/
theorem observeEvent_cases (observed : observeEvent codec step store event = some after) :
    (∃ message next, event.message? codec = some message ∧ store.recordAppEvent
      (message.storedAppEvent step.sourceMessageIdHex step.sourceRecordedAt step.now) = some next ∧
        after = next.prunePlaintextRetentionForGroup step event.groupId) ∨
    event.message? codec = none ∧
      ((∃ picks reason, after = store.invalidateRows picks reason) ∨ after = store) := by
  unfold observeEvent at observed
  split at observed
  · rename_i message found
    obtain ⟨next, recorded, rfl⟩ := map_eq_some_iff.mp observed
    exact .inl ⟨message, next, found, recorded, rfl⟩
  · rename_i none
    refine .inr ⟨none, ?_⟩
    split at observed <;> cases observed
    · exact .inl ⟨_, _, rfl⟩
    · exact .inl ⟨_, _, rfl⟩
    · exact .inl ⟨_, _, rfl⟩
    · exact .inr rfl

theorem observeEvent_names (observed : observeEvent codec step store event = some after)
    (named : after.Names source) :
    store.Names source ∨ (event.message? codec).isSome ∧ source = step.sourceMessageIdHex := by
  obtain ⟨_, _, found, recorded, rfl⟩ | ⟨_, ⟨_, _, rfl⟩ | rfl⟩ := observeEvent_cases observed
  · obtain earlier | own := recordAppEvent_names recorded (prune_names named)
    · exact .inl earlier
    · exact .inr ⟨by rw [found]; rfl, (some.inj own).symm⟩
  · exact .inl (invalidateRows_names named)
  · exact .inl named

theorem observeEvent_isSome
    (free : (event.message? codec).isSome → ¬ store.Names step.sourceMessageIdHex) :
    (observeEvent codec step store event).isSome := by
  unfold observeEvent
  split
  · rename_i message found
    rw [isSome_map]
    apply recordAppEvent_isSome
    intro source named
    cases named
    exact free (by rw [found]; rfl)
  · split <;> rfl

/-- **What a part of a run leaves**: its messages have their rows, the rows of the known messages
that last stay, and no source is named beside those of the part. -/
structure Gains (known : ReceivedMessage → Prop) (lasting remaining : String → Nat → Prop)
    (store : AppEvents) (messages : List ReceivedMessage) (sources : List String)
    (after : AppEvents) : Prop where
  recorded : ∀ message ∈ messages, after.Holds remaining message
  kept : ∀ message, known message → store.Holds lasting message → after.Holds remaining message
  named : ∀ source, after.Names source → store.Names source ∨ source ∈ sources

section Gaining

variable {known : ReceivedMessage → Prop} {messages more : List ReceivedMessage}
  {sources others : List String} {last : AppEvents} {remaining final : String → Nat → Prop}

theorem Gains.nothing : Gains known lasting lasting store [] [] store :=
  ⟨fun _ listed => absurd listed not_mem_nil, fun _ _ held => held, fun _ named => .inl named⟩

theorem Gains.weaken (gains : Gains known lasting remaining store messages sources after)
    (weaker : ∀ groupIdHex recordedAt, remaining groupIdHex recordedAt →
      final groupIdHex recordedAt) : Gains known lasting final store messages sources after := by
  have holds : ∀ message, after.Holds remaining message → after.Holds final message := by
    rintro message ⟨row, found, sender, text, epoch, time⟩
    exact ⟨row, found, sender, text, epoch, weaker _ _ time⟩
  exact ⟨fun message listed => holds message (gains.recorded message listed),
    fun message here held => holds message (gains.kept message here held), gains.named⟩

theorem Gains.trans (first : Gains known lasting remaining store messages sources after)
    (second : Gains known remaining final after more others last)
    (all : ∀ message ∈ messages, known message) :
    Gains known lasting final store (messages ++ more) (sources ++ others) last := by
  refine ⟨fun message listed => ?_, fun message here held => ?_, fun source named => ?_⟩
  · obtain early | late := mem_append.mp listed
    · exact second.kept message (all message early) (first.recorded message early)
    · exact second.recorded message late
  · exact second.kept message here (first.kept message here held)
  · obtain earlier | own := second.named source named
    · exact (first.named source earlier).imp_right fun own => mem_append.mpr (.inl own)
    · exact .inr (mem_append.mpr (.inr own))

variable (distinct : ∀ message other, known message → known other → message.key = other.key →
    message = other)
  (lasts : ∀ groupIdHex recordedAt, lasting groupIdHex recordedAt →
    step.Lasts groupIdHex recordedAt)

include distinct lasts in
theorem observeEvent_gains {event : AccountEvent}
    (observed : observeEvent codec step store event = some after)
    (all : ∀ message ∈ event.message? codec, known message)
    (fresh : ∀ message ∈ event.message? codec, lasting message.groupIdHex step.sourceRecordedAt) :
    Gains known lasting lasting store (event.message? codec).toList
      ((event.message? codec).toList.map fun _ => step.sourceMessageIdHex) after := by
  refine ⟨fun message listed => ?_, fun message here held => ?_, fun source named => ?_⟩
  · have found := mem_toList.mp listed
    obtain ⟨own, _, same, recorded, rfl⟩ | ⟨none, _⟩ := observeEvent_cases observed
    · obtain rfl : own = message := some.inj (same.symm.trans found)
      exact prune_holds (recordAppEvent_holds recorded (fresh own found)) lasts _
    · exact absurd (found.symm.trans none) (by simp)
  · obtain ⟨other, _, found, recorded, rfl⟩ | ⟨_, ⟨picks, reason, rfl⟩ | rfl⟩ :=
      observeEvent_cases observed
    · refine prune_holds ?_ lasts _
      by_cases same : other.key = message.key
      · obtain rfl := distinct other message (all other found) here same
        exact recordAppEvent_holds recorded (fresh other found)
      · exact recordAppEvent_holds_other held recorded fun other => same other.symm
    · exact invalidateRows_holds held picks reason
    · exact held
  · obtain earlier | ⟨some, rfl⟩ := observeEvent_names observed named
    · exact .inl earlier
    · obtain ⟨message, found⟩ := isSome_iff_exists.mp some
      rw [found]
      exact .inr (by simp)

include distinct lasts in
/-- The events of a step, when it gives its source to at most one message. -/
theorem observeEvents_gains {events : List AccountEvent}
    (routed : ∀ event ∈ events, step.routed event.groupId)
    (all : ∀ message ∈ events.filterMap (AccountEvent.message? codec), known message)
    (fresh : ∀ message ∈ events.filterMap (AccountEvent.message? codec),
      lasting message.groupIdHex step.sourceRecordedAt)
    (once : ((events.filterMap (AccountEvent.message? codec)).map
      fun _ => step.sourceMessageIdHex).Nodup)
    (free : ∀ source ∈ (events.filterMap (AccountEvent.message? codec)).map
      fun _ => step.sourceMessageIdHex, ¬ store.Names source) :
    ∃ after, observeEvents codec step store events = (true, after) ∧
      Gains known lasting lasting store (events.filterMap (AccountEvent.message? codec))
        ((events.filterMap (AccountEvent.message? codec)).map fun _ => step.sourceMessageIdHex)
        after := by
  induction events generalizing store with
  | nil => exact ⟨store, rfl, Gains.nothing⟩
  | cons event rest ih =>
    rw [forall_mem_cons] at routed
    have split : (event :: rest).filterMap (AccountEvent.message? codec) =
        (event.message? codec).toList ++ rest.filterMap (AccountEvent.message? codec) := by
      cases found : event.message? codec with
      | none => rw [filterMap_cons_none found]; rfl
      | some => rw [filterMap_cons_some found]; rfl
    rw [split, map_append] at once free
    rw [split] at all fresh
    have observed : (observeEvent codec step store event).isSome := by
      apply observeEvent_isSome
      intro present
      obtain ⟨message, found⟩ := isSome_iff_exists.mp present
      exact free _ (by simp [found])
    obtain ⟨_, here⟩ := isSome_iff_exists.mp observed
    have first := observeEvent_gains distinct lasts here
      (fun message found => all message (mem_append.mpr (.inl (mem_toList.mpr found))))
      fun message found => fresh message (mem_append.mpr (.inl (mem_toList.mpr found)))
    obtain ⟨after, later, second⟩ := ih routed.2
      (fun message listed => all message (mem_append.mpr (.inr listed)))
      (fun message listed => fresh message (mem_append.mpr (.inr listed)))
      (nodup_append.mp once).2.1 fun source listed named => by
        obtain earlier | own := first.named source named
        · exact free source (mem_append.mpr (.inr listed)) earlier
        · exact (nodup_append.mp once).2.2 source own source listed rfl
    refine ⟨after, ?_, ?_⟩
    · rw [observeEvents, if_pos routed.1, here]
      exact later
    · rw [split, map_append]
      exact first.trans second fun message listed =>
        all message (mem_append.mpr (.inl listed))

/-- The system rows take no message's row and name no source. -/
theorem projectGroupSystemRows_gains
    (apart : ∀ row ∈ step.systemRows codec, ∀ message, known message → message.key ≠ row.key) :
    Gains known lasting lasting store [] [] (projectGroupSystemRows codec step store) := by
  have unsourced : ∀ row ∈ step.systemRows codec, row.sourceMessageIdHex = none := by
    intro row listed
    obtain ⟨event, _, made⟩ := mem_filterMap.mp listed
    cases event with
    | groupStateChanged =>
      obtain ⟨_, _, same⟩ := bind_eq_some_iff.mp made
      rw [← some.inj same]
    | _ => cases made
  rw [projectGroupSystemRows]
  generalize step.systemRows codec = rows at apart unsourced
  induction rows generalizing store with
  | nil => exact Gains.nothing
  | cons row rest ih =>
    rw [forall_mem_cons] at apart unsourced
    have recordable : (store.recordAppEvent row).isSome :=
      recordAppEvent_isSome (by simp [unsourced.1])
    obtain ⟨next, recorded⟩ := isSome_iff_exists.mp recordable
    have first : Gains known lasting lasting store [] [] next :=
      ⟨fun _ listed => absurd listed not_mem_nil,
        fun message here held => recordAppEvent_holds_other held recorded (apart.1 message here),
        fun source named => by
          obtain earlier | own := recordAppEvent_names recorded named
          · exact .inl earlier
          · rw [unsourced.1] at own
            cases own⟩
    rw [foldl_cons, recorded]
    exact first.trans (ih apart.2 unsourced.2) fun _ listed => absurd listed not_mem_nil

variable (codec) in
/-- **A step that nothing disturbs**: its publications succeed, the routing of its groups can be read,
and a drain releases no message. -/
structure ClientStep.Undisturbed (step : ClientStep) : Prop where
  published : ∃ outcome, step.published = some outcome ∧ failIfPublishFailed outcome
  routed : step.kind ≠ .drain → ∀ event ∈ step.events, step.routed event.groupId
  drained : step.kind = .drain → step.released codec = []

include lasts in
theorem prune_gains (groupId : Bytes) : Gains known lasting lasting store [] []
    (store.prunePlaintextRetentionForGroup step groupId) :=
  ⟨fun _ listed => absurd listed not_mem_nil, fun _ _ held => prune_holds held lasts groupId,
    fun _ named => .inl (prune_names named)⟩

include distinct lasts in
theorem clientStep_gains (undisturbed : ClientStep.Undisturbed codec step)
    (all : ∀ message ∈ step.released codec, known message)
    (fresh : ∀ message ∈ step.released codec, lasting message.groupIdHex step.sourceRecordedAt)
    (apart : ∀ row ∈ step.systemRows codec, ∀ message, known message → message.key ≠ row.key)
    (once : (step.sources codec).Nodup)
    (free : ∀ source ∈ step.sources codec, ¬ store.Names source) :
    Gains known lasting lasting store (step.released codec) (step.sources codec)
      (clientStep codec store step) := by
  have seen : step.kind ≠ .drain → Gains known lasting lasting store (step.released codec)
      (step.sources codec) (observeAccountDeviceEffects codec step store).2 := by
    intro kind
    obtain ⟨_, observed, gains⟩ := observeEvents_gains distinct lasts (undisturbed.routed kind)
      all fresh once free
    rw [observeAccountDeviceEffects, observed]
    simp only [true_and]
    split_ifs
    · have both := gains.trans (projectGroupSystemRows_gains apart) all
      rwa [append_nil, append_nil] at both
    · exact gains
  obtain ⟨_, published, succeeded⟩ := undisturbed.published
  rw [clientStep, published]
  simp only [succeeded, if_true]
  split
  · rename_i drained
    rw [ClientStep.sources, undisturbed.drained drained]
    exact Gains.nothing
  · rename_i kind
    exact seen (by simp [kind])
  · rename_i groupId kind
    have gains := seen (by simp [kind])
    split_ifs
    · have both := gains.trans (prune_gains lasts groupId) all
      rwa [append_nil, append_nil] at both
    · exact gains

/-- A row that lasts through all the steps. -/
def LastsThrough (steps : List ClientStep) (groupIdHex : String) (recordedAt : Nat) : Prop :=
  ∀ step ∈ steps, step.Lasts groupIdHex recordedAt

include distinct in
theorem clientRun_gains {steps : List ClientStep}
    (undisturbed : ∀ step ∈ steps, ClientStep.Undisturbed codec step)
    (all : ∀ step ∈ steps, ∀ message ∈ step.released codec, known message)
    (fresh : ∀ step rest, step :: rest <:+ steps → ∀ message ∈ step.released codec,
      LastsThrough (step :: rest) message.groupIdHex step.sourceRecordedAt)
    (apart : ∀ step ∈ steps, ∀ row ∈ step.systemRows codec, ∀ message, known message →
      message.key ≠ row.key)
    (once : (steps.flatMap (ClientStep.sources codec)).Nodup)
    (free : ∀ source ∈ steps.flatMap (ClientStep.sources codec), ¬ store.Names source) :
    Gains known (LastsThrough steps) (LastsThrough []) store
      (steps.flatMap (ClientStep.released codec)) (steps.flatMap (ClientStep.sources codec))
      (clientRun codec store steps) := by
  induction steps generalizing store with
  | nil => exact Gains.nothing
  | cons step rest ih =>
    rw [forall_mem_cons] at undisturbed all apart
    rw [flatMap_cons] at once free
    have apartSources := nodup_append.mp once
    have first := clientStep_gains distinct (fun _ _ lasting => lasting step mem_cons_self)
      undisturbed.1 all.1 (fresh step rest suffix_rfl) apart.1 apartSources.1
      fun source listed => free source (mem_append.mpr (.inl listed))
    have later := ih undisturbed.2 all.2
      (fun step after tail => fresh step after (tail.trans (suffix_cons _ _))) apart.2
      apartSources.2.1 fun source listed named => by
        obtain earlier | own := first.named source named
        · exact free source (mem_append.mpr (.inr listed)) earlier
        · exact apartSources.2.2 source own source listed rfl
    rw [flatMap_cons, flatMap_cons]
    exact (first.weaken fun _ _ lasting step listed =>
      lasting step (mem_cons_of_mem _ listed)).trans later all.1

end Gaining

/-- Every payload is a chat message of the account `01`. -/
def sampleCodec : EventCodec where
  decode := fun payload => some ⟨hexEncode payload, hexEncode [1], chatKind, [], hexEncode payload⟩
  mediaImetaTagsAreValid := fun _ => true
  groupSystemEventMaterial := fun _ _ _ _ => none

def sampleMessage (payload : Bytes) : AccountEvent := .messageReceived [7] [1] 3 payload

def sampleStep (kind : StepKind) (events : List AccountEvent) (outcome : PublishOutcome) :
    ClientStep where
  kind := kind
  events := events
  published := some outcome
  routed := fun _ => true
  refreshed := true
  disappearingMessageSecs := fun _ => 60
  now := 100

/-- The run releases a message that has no row at its end. -/
def loses (steps : List ClientStep) : Prop :=
  ∃ message ∈ steps.flatMap (ClientStep.released sampleCodec),
    ∀ row ∈ (clientRun sampleCodec empty steps).rows, row.key ≠ message.key

instance (steps : List ClientStep) : Decidable (loses steps) :=
  inferInstanceAs (Decidable (∃ _ ∈ _, _))

end AppEvents

end Darkmatter
