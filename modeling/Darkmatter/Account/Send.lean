/-
**Sending an app message.**

A client shows a message before it is sent: it records a row without a source. Then it hands the
message to the session and publishes whatever the session asks for, which is the message itself and
any commits and proposals that were waiting. When that fails it withdraws the row, and when it
succeeds it records the row again, with the first report of the batch as its source.

* `SendBackend`, `sendAppEvent` — the session and the transport, and a send;
* `SendBackend.ownReport` — what the transport says of the message's own transport event;
* `SendBackend.others` — what the other items of the batch come to;
* `publishSessionEffects_first` — a batch is its first message and the batch of the others;
* `Attributed` — the row is withdrawn exactly when no endpoint accepted the message, and names the
  message's own report otherwise;
* `attributed_iff` — **when a send attributes its outcome to its own message**.
-/

import Darkmatter.Account.Publish
import Darkmatter.Timeline.Client

namespace Darkmatter

open AppEvents PublishReport List

/-! ### A send -/

/-- An app event that an account sends, with the time at which it was made. -/
structure SentEvent extends InnerEvent where
  createdAt : Nat
deriving DecidableEq, Repr

/-- The row of an event of the account itself. -/
def SentEvent.storedAppEvent (event : SentEvent) (groupIdHex sender : String)
    (sourceMessageIdHex : Option String) (sourceEpoch : Option Nat) (now : Nat) :
    StoredAppEvent where
  groupIdHex := groupIdHex
  messageIdHex := event.id
  sourceMessageIdHex := sourceMessageIdHex
  sourceEpoch := sourceEpoch
  direction := "sent"
  sender := sender
  plaintext := event.content
  kind := event.kind
  tags := event.tags
  recordedAt := event.createdAt
  receivedAt := now
  originCommitId := none

/-- What the engine makes of an app message: a message to publish, or an intent that it keeps until
the group is settled. -/
inductive AppMessageResult
  | applicationMessage (msg : TransportMessage)
  | queued (groupId : Bytes) (intentId : String)
deriving DecidableEq, Repr

/-- The effects of a send: the result first, and after it what the engine had waiting. -/
def collectEffects {Event : Type} (result : AppMessageResult) (drained : SessionEffects Event) :
    SessionEffects Event :=
  match result with
  | .applicationMessage msg =>
    { drained with publish := .applicationMessage msg :: drained.publish }
  | .queued groupId intentId => { drained with queued := (groupId, intentId) :: drained.queued }

/-- **The transport and the session of a send.** The session encrypts the event, or refuses. -/
structure SendBackend (State Event : Type) extends AccountBackend State Event where
  syncRuntimeGroups : State → Except String Unit × State
  sendAppMessage : State → SentEvent →
    Except SessionError (AppMessageResult × SessionEffects Event) × State

inductive SendError
  | runtime (reason : String)
  | session (error : SessionError)
  | publish (reasons : String)
  | storage
deriving DecidableEq, Repr

/-- What the publications of a batch came to. -/
def AccountDeviceEffects.outcome {Event : Type} (effects : AccountDeviceEffects Event) :
    PublishOutcome where
  failures := effects.failures.map PublishFailure.reason
  pending := effects.pending.map fun
    | .confirmed _ => .confirmed
    | .rolledBack _ => .rolledBack

section Send

variable {State Event : Type} (backend : SendBackend State Event)

/-- The part of a send that may fail: the routes are brought up to date, the session encrypts the
event, and its effects are published. -/
def SendBackend.runtimeSend (rounds : Nat) (session : State) (event : SentEvent) :
    Option (Except SendError (AccountDeviceEffects Event)) :=
  match backend.syncRuntimeGroups session with
  | (.error reason, _) => some (.error (.runtime reason))
  | (.ok (), session) =>
    match backend.sendAppMessage session event with
    | (.error error, _) => some (.error (.session error))
    | (.ok (result, drained), session) =>
      match publishSessionEffects backend.toAccountBackend rounds session
        (collectEffects result drained) with
      | none => none
      | some (.error error) => some (.error (.session error))
      | some (.ok effects) =>
        if failIfPublishFailed effects.outcome then
          some (.ok effects)
        else
          some (.error (.publish ("; ".intercalate effects.outcome.failures)))

/-- Where and when a send is recorded. -/
structure SendContext where
  groupIdHex : String
  sender : String
  sourceEpoch : Option Nat
  now : Nat
deriving DecidableEq, Repr

def SendContext.row (context : SendContext) (event : SentEvent) (source : Option String) :
    StoredAppEvent :=
  event.storedAppEvent context.groupIdHex context.sender source context.sourceEpoch context.now

/-- **A send**, with the rows it leaves. The batch has a number of rounds, and there is no result when
they do not suffice. -/
def sendAppEvent (rounds : Nat) (session : State) (context : SendContext) (event : SentEvent)
    (store : AppEvents) :
    Option (Except SendError (AccountDeviceEffects Event) × AppEvents) :=
  let shouldProjectLocally := !isPushGossipKind event.kind
  let projected :=
    if shouldProjectLocally then store.recordAppEvent (context.row event none) else some store
  match projected with
  | none => some (.error .storage, store)
  | some store =>
    match backend.runtimeSend rounds session event with
    | none => none
    | some (.error error) =>
      some (.error error,
        if shouldProjectLocally then
          store.invalidateByMessageId context.groupIdHex event.id "local_publish_failed"
        else
          store)
    | some (.ok effects) =>
      let source := effects.reports.head?.map messageId
      if shouldProjectLocally then
        match store.recordAppEvent (context.row event source) with
        | none => some (.error .storage, store)
        | some after => some (.ok effects, after)
      else
        some (.ok effects, store)

/-! ### The message and the rest of its batch -/

/-- What the transport says of a message: nothing, if it has no route or the transport fails. -/
def AccountBackend.answer (backend : AccountBackend State Event) (session : State)
    (msg : TransportMessage) : Option PublishReport × List PublishFailure × State :=
  match backend.publishTarget session msg with
  | .error reason => (none, [⟨msg.id, reason⟩], session)
  | .ok () =>
    match backend.publish session msg with
    | (.error reason, session) => (none, [⟨msg.id, reason⟩], session)
    | (.ok report, session) =>
      (some report,
        if report.metRequiredAcks then []
        else [⟨report.messageId, "insufficient publish acknowledgements"⟩], session)

/-- **What the send hands out**: the message, if the engine encrypts it now, and the rest. -/
def SendBackend.handsOut (session : State) (event : SentEvent) :
    Option (Option TransportMessage × SessionEffects Event × State) :=
  match backend.syncRuntimeGroups session with
  | (.error _, _) => none
  | (.ok (), session) =>
    match backend.sendAppMessage session event with
    | (.error _, _) => none
    | (.ok (.applicationMessage msg, drained), session) => some (some msg, drained, session)
    | (.ok (.queued groupId intentId, drained), session) =>
      some (none, { drained with queued := (groupId, intentId) :: drained.queued }, session)

/-- **The report of the message's own transport event.** -/
def SendBackend.ownReport (session : State) (event : SentEvent) : Option PublishReport :=
  match backend.handsOut session event with
  | some (some msg, _, session) => (backend.answer session msg).1
  | _ => none

/-- An endpoint accepted the message. -/
def SendBackend.Accepted (session : State) (event : SentEvent) : Prop :=
  ∃ report, backend.ownReport session event = some report ∧ report.accepted ≠ []

/-- The failures of the message's own publication. -/
def SendBackend.ownFailures (session : State) (event : SentEvent) : List PublishFailure :=
  match backend.handsOut session event with
  | some (some msg, _, session) => (backend.answer session msg).2.1
  | _ => []

/-- **What the other items of the batch come to**, when they are published after the message. There
is no batch when nothing is handed out. -/
def SendBackend.others (rounds : Nat) (session : State) (event : SentEvent) :
    Option (Option (Except SessionError (AccountDeviceEffects Event))) :=
  match backend.handsOut session event with
  | none => none
  | some (some msg, drained, session) =>
    some (publishSessionEffects backend.toAccountBackend (rounds - 1)
      (backend.answer session msg).2.2 drained)
  | some (none, drained, session) =>
    some (publishSessionEffects backend.toAccountBackend rounds session drained)

/-- **The outcome is attributed to the message**: its row is withdrawn exactly when no endpoint
accepted the message, and names the message's own report if one did. -/
def SendBackend.Attributed (session : State) (context : SendContext) (event : SentEvent)
    (after : AppEvents) : Prop :=
  ∃ row, after.row? (context.groupIdHex, event.id) = some row ∧
    (row.invalidated = true ∧ row.invalidationReason = some "local_publish_failed" ↔
      ¬ backend.Accepted session event) ∧
    (backend.Accepted session event →
      row.sourceMessageIdHex = (backend.ownReport session event).map messageId)

/-- The batch counts as published: no message failed, or a commit was confirmed and none rolled
back. -/
def CountsAsPublished (failures : List PublishFailure) (effects : AccountDeviceEffects Event) :
    Prop :=
  failures = [] ∧ effects.failures = [] ∨
    (∃ pending, Resolution.confirmed pending ∈ effects.pending) ∧
      ∀ pending, Resolution.rolledBack pending ∉ effects.pending

/-- **When an outcome can be attributed.** When the other items end with an error, no endpoint
accepted the message; else an endpoint accepted it exactly when the batch counts as published, and no
other row names the report of an accepted message. -/
def SendBackend.Attributable (rounds : Nat) (session : State) (context : SendContext)
    (event : SentEvent) (store : AppEvents) : Prop :=
  match backend.others rounds session event with
  | some (some (.ok effects)) =>
    (backend.Accepted session event ↔
      CountsAsPublished (backend.ownFailures session event) effects) ∧
    (backend.Accepted session event → ∀ report, backend.ownReport session event = some report →
      ∀ row ∈ store.rows, row.key ≠ (context.groupIdHex, event.id) →
        row.sourceMessageIdHex ≠ some report.messageId)
  | _ => ¬ backend.Accepted session event

/-! ### A batch without its first message -/

namespace PublishRun

/-- **One run is ahead of another** by reports and failures: they have the same session and the same
queue, and report the same otherwise. -/
structure Ahead (reports : List PublishReport) (failures : List PublishFailure)
    (long short : PublishRun State Event) : Prop where
  session : long.session = short.session
  queue : long.queue = short.queue
  reports : long.output.reports = reports ++ short.output.reports
  failures : long.output.failures = failures ++ short.output.failures
  pending : long.output.pending = short.output.pending

variable (backend : AccountBackend State Event) {reports : List PublishReport}
  {failures : List PublishFailure} {long short : PublishRun State Event}

section Ahead

variable (ahead : long.Ahead reports failures short)

include ahead

theorem Ahead.notePublished (msg : TransportMessage) (session : State) (accepted : Bool)
    (noted : List PublishReport) (failed : List PublishFailure) :
    (long.notePublished msg session accepted noted failed).Ahead reports failures
      (short.notePublished msg session accepted noted failed) where
  session := rfl
  queue := ahead.queue
  reports := by
    change long.output.reports ++ noted = reports ++ (short.output.reports ++ noted)
    rw [ahead.reports, append_assoc]
  failures := by
    change long.output.failures ++ failed = failures ++ (short.output.failures ++ failed)
    rw [ahead.failures, append_assoc]
  pending := ahead.pending

open PublishRun (publishMessages publishWelcomes)

theorem Ahead.publishOne (msg : TransportMessage) :
    (long.publishOne backend msg).1 = (short.publishOne backend msg).1 ∧
      (long.publishOne backend msg).2.Ahead reports failures (short.publishOne backend msg).2 := by
  unfold PublishRun.publishOne
  rw [ahead.session]
  split
  · exact ⟨rfl, ahead.notePublished ..⟩
  · split
    · exact ⟨rfl, ahead.notePublished ..⟩
    · exact ⟨rfl, ahead.notePublished ..⟩

theorem Ahead.publishMessages (messages : List TransportMessage) :
    (publishMessages backend messages long).1 = (publishMessages backend messages short).1 ∧
      (publishMessages backend messages long).2.Ahead reports failures
        (publishMessages backend messages short).2 := by
  induction messages generalizing long short with
  | nil => exact ⟨rfl, ahead⟩
  | cons msg rest ih =>
    obtain ⟨status, first⟩ := ahead.publishOne backend msg
    obtain ⟨later, kept⟩ := ih first
    rw [publishMessages, publishMessages]
    dsimp only
    rw [status, later]
    exact ⟨rfl, kept⟩

theorem Ahead.publishWelcomes (exposed : Bool) (welcomes : List TransportMessage) :
    (publishWelcomes backend exposed welcomes long).1 =
        (publishWelcomes backend exposed welcomes short).1 ∧
      (publishWelcomes backend exposed welcomes long).2.Ahead reports failures
        (publishWelcomes backend exposed welcomes short).2 := by
  induction welcomes generalizing long short exposed with
  | nil => exact ⟨rfl, ahead⟩
  | cons welcome rest ih =>
    obtain ⟨status, first⟩ := ahead.publishOne backend welcome
    rw [publishWelcomes, publishWelcomes]
    dsimp only
    rw [status]
    split_ifs
    · exact ⟨rfl, first⟩
    · obtain ⟨later, kept⟩ := ih first _
      rw [later]
      exact ⟨rfl, kept⟩

theorem Ahead.settlePending (pending : Nat) (confirm : Bool) :
    (long.settlePending backend pending confirm).1 =
        (short.settlePending backend pending confirm).1 ∧
      (long.settlePending backend pending confirm).2.Ahead reports failures
        (short.settlePending backend pending confirm).2 := by
  unfold PublishRun.settlePending
  rw [ahead.session]
  dsimp only
  split
  · exact ⟨rfl, rfl, ahead.queue, ahead.reports, ahead.failures, ahead.pending⟩
  · next effects _ =>
    refine ⟨rfl, rfl, ?_, ahead.reports, ahead.failures, ?_⟩
    · change long.queue ++ effects.publish = short.queue ++ effects.publish
      rw [ahead.queue]
    · change long.output.pending ++ _ = short.output.pending ++ _
      rw [ahead.pending]

theorem Ahead.publishWork (work : PublishWork) :
    (long.publishWork backend work).1 = (short.publishWork backend work).1 ∧
      (long.publishWork backend work).2.Ahead reports failures
        (short.publishWork backend work).2 := by
  cases work with
  | applicationMessage msg | proposal msg => exact ⟨rfl, (ahead.publishOne backend msg).2⟩
  | autoPublish msg pending =>
    simp only [PublishRun.publishWork, publishPending_eq]
    obtain ⟨status, first⟩ := ahead.publishOne backend msg
    rw [status]
    exact first.settlePending backend pending _
  | groupCreated welcomes pending =>
    simp only [PublishRun.publishWork, publishGroupCreated]
    obtain ⟨status, first⟩ := ahead.publishWelcomes backend false welcomes
    rw [status]
    exact first.settlePending backend pending _
  | groupEvolution msg welcomes pending =>
    simp only [PublishRun.publishWork, publishGroupEvolution]
    obtain ⟨status, first⟩ := ahead.publishOne backend msg
    rw [status]
    split_ifs with counts
    · obtain ⟨result, second⟩ := first.settlePending backend pending true
      generalize (long.publishOne backend msg).2.settlePending backend pending true = settled
        at result second ⊢
      generalize (short.publishOne backend msg).2.settlePending backend pending true = settled'
        at result second ⊢
      obtain ⟨answer, settled⟩ := settled
      obtain ⟨answer', settled'⟩ := settled'
      obtain rfl : answer = answer' := result
      cases answer with
      | error => exact ⟨rfl, second⟩
      | ok => exact ⟨rfl, (second.publishMessages backend welcomes).2⟩
    · exact first.settlePending backend pending false

/-- **A round keeps a run ahead.** -/
theorem Ahead.step :
    (∃ error, long.step backend = .error error ∧ short.step backend = .error error) ∨
      ∃ after after', long.step backend = .ok after ∧ short.step backend = .ok after' ∧
        after.Ahead reports failures after' := by
  unfold PublishRun.step
  rw [ahead.queue]
  split
  · exact .inr ⟨long, short, rfl, rfl, ahead⟩
  · next work rest _ =>
    have popped : (long.pop rest).Ahead reports failures (short.pop rest) :=
      ⟨ahead.session, rfl, ahead.reports, ahead.failures, ahead.pending⟩
    obtain ⟨result, kept⟩ := popped.publishWork backend work
    generalize (long.pop rest).publishWork backend work = outcome at result kept ⊢
    generalize (short.pop rest).publishWork backend work = outcome' at result kept ⊢
    obtain ⟨answer, _⟩ := outcome
    obtain ⟨answer', _⟩ := outcome'
    obtain rfl : answer = answer' := result
    cases answer with
    | error error => exact .inl ⟨error, rfl, rfl⟩
    | ok =>
      exact .inr ⟨_, _, rfl, rfl, kept.session, kept.queue, kept.reports, kept.failures,
        kept.pending⟩

end Ahead

theorem publishOne_answer (run : PublishRun State Event) (msg : TransportMessage) :
    ∃ accepted, (run.publishOne backend msg).2 =
      run.notePublished msg (backend.answer run.session msg).2.2 accepted
        (backend.answer run.session msg).1.toList (backend.answer run.session msg).2.1 := by
  unfold publishOne AccountBackend.answer
  cases backend.publishTarget run.session msg with
  | error => exact ⟨false, rfl⟩
  | ok =>
    obtain ⟨answer, _⟩ := backend.publish run.session msg
    cases answer with
    | error => exact ⟨false, rfl⟩
    | ok report => exact ⟨!report.accepted.isEmpty, rfl⟩

end PublishRun

/-- **The rounds of a batch are the rounds of the others**, after the first. -/
theorem reach_first (backend : AccountBackend State Event) (session : State)
    (msg : TransportMessage) (drained : SessionEffects Event) (rounds : Nat) :
    (∃ error,
      reach backend session (collectEffects (.applicationMessage msg) drained) (rounds + 1) =
          .error error ∧
        reach backend (backend.answer session msg).2.2 drained rounds = .error error) ∨
      ∃ long short,
        reach backend session (collectEffects (.applicationMessage msg) drained) (rounds + 1) =
            .ok long ∧
          reach backend (backend.answer session msg).2.2 drained rounds = .ok short ∧
          long.Ahead (backend.answer session msg).1.toList (backend.answer session msg).2.1
            short := by
  induction rounds with
  | zero =>
    refine .inr ⟨_, _, rfl, rfl, ?_⟩
    obtain ⟨_, noted⟩ := PublishRun.publishOne_answer backend
      ((PublishRun.start session (collectEffects (.applicationMessage msg) drained)).pop
        drained.publish) msg
    rw [noted]
    exact ⟨rfl, rfl, (append_nil _).symm, (append_nil _).symm, rfl⟩
  | succ rounds ih =>
    rw [reach, reach.eq_def backend _ drained]
    dsimp only
    obtain ⟨error, failed, failed'⟩ | ⟨_, _, reached, reached', ahead⟩ := ih
    · rw [failed, failed']
      exact .inl ⟨error, rfl, rfl⟩
    · rw [reached, reached']
      exact ahead.step backend

/-- **A batch is its first message and the batch of the others**: it ends with their error, or with
their report and that of the message in front of it. -/
theorem publishSessionEffects_first {backend : AccountBackend State Event} {session : State}
    {msg : TransportMessage} {drained : SessionEffects Event} {rounds : Nat}
    {result : Except SessionError (AccountDeviceEffects Event)}
    (ends : publishSessionEffects backend rounds session
      (collectEffects (.applicationMessage msg) drained) = some result) :
    (∃ error, result = .error error ∧
      publishSessionEffects backend (rounds - 1) (backend.answer session msg).2.2 drained =
        some (.error error)) ∨
    ∃ all effects, result = .ok all ∧
      publishSessionEffects backend (rounds - 1) (backend.answer session msg).2.2 drained =
        some (.ok effects) ∧
      all.reports = (backend.answer session msg).1.toList ++ effects.reports ∧
      all.failures = (backend.answer session msg).2.1 ++ effects.failures ∧
      all.pending = effects.pending := by
  cases rounds with
  | zero => cases ends
  | succ rounds =>
    rw [Nat.add_sub_cancel]
    unfold publishSessionEffects at ends ⊢
    obtain ⟨error, failed, failed'⟩ | ⟨_, _, reached, reached', ahead⟩ :=
      reach_first backend session msg drained rounds
    · rw [failed] at ends
      rw [failed']
      cases ends
      exact .inl ⟨error, rfl, rfl⟩
    · rw [reached] at ends
      rw [reached']
      dsimp only at ends ⊢
      rw [ahead.queue] at ends
      split_ifs at ends with done
      cases ends
      rw [if_pos done]
      exact .inr ⟨_, _, rfl, rfl, ahead.reports, ahead.failures, ahead.pending⟩

/-! ### Attribution -/

section Attribution

variable {backend : SendBackend State Event} {session : State} {event : SentEvent}
  {context : SendContext} {rounds : Nat} {store after : AppEvents}
  {all : AccountDeviceEffects Event} {row : AppEventRow} {first : AppEvents}

theorem failIfPublishFailed_iff {failures : List PublishFailure}
    {effects : AccountDeviceEffects Event} (failed : all.failures = failures ++ effects.failures)
    (resolved : all.pending = effects.pending) :
    failIfPublishFailed all.outcome = true ↔ CountsAsPublished failures effects := by
  have none : all.outcome.failures = [] ↔ failures = [] ∧ effects.failures = [] := by
    rw [AccountDeviceEffects.outcome, map_eq_nil_iff, failed, append_eq_nil_iff]
  have confirmed : .confirmed ∈ all.outcome.pending ↔
      ∃ pending, Resolution.confirmed pending ∈ effects.pending := by
    rw [AccountDeviceEffects.outcome, resolved, mem_map]
    constructor
    · rintro ⟨resolution, listed, kind⟩
      cases resolution with
      | confirmed pending => exact ⟨pending, listed⟩
      | rolledBack => cases kind
    · rintro ⟨pending, listed⟩
      exact ⟨_, listed, rfl⟩
  have rolledBack : .rolledBack ∈ all.outcome.pending ↔
      ∃ pending, Resolution.rolledBack pending ∈ effects.pending := by
    rw [AccountDeviceEffects.outcome, resolved, mem_map]
    constructor
    · rintro ⟨resolution, listed, kind⟩
      cases resolution with
      | confirmed => cases kind
      | rolledBack pending => exact ⟨pending, listed⟩
    · rintro ⟨pending, listed⟩
      exact ⟨_, listed, rfl⟩
  rw [failIfPublishFailed, CountsAsPublished, ← none, ← confirmed]
  split_ifs with clean rolled
  · simp [clean]
  · simp only [clean, false_or, false_iff, not_and]
    intro _ kept
    obtain ⟨pending, listed⟩ := rolledBack.mp rolled
    exact kept pending listed
  · have kept : ∀ pending, Resolution.rolledBack pending ∉ effects.pending :=
      fun pending listed => rolled (rolledBack.mpr ⟨pending, listed⟩)
    simp [clean, kept]

variable {result : Except SendError (AccountDeviceEffects Event)}

/-- **How the part of a send that may fail ends.** Nothing is handed out; or the others end with an
error; or the reports of the message and of the others pass the gate or not. -/
theorem runtimeSend_cases (ends : backend.runtimeSend rounds session event = some result) :
    (backend.others rounds session event = none ∧ (∃ error, result = .error error) ∧
      backend.ownReport session event = none) ∨
    (∃ error, backend.others rounds session event = some (some (.error error)) ∧
      result = .error (.session error)) ∨
    ∃ all effects, backend.others rounds session event = some (some (.ok effects)) ∧
      all.reports = (backend.ownReport session event).toList ++ effects.reports ∧
      all.failures = backend.ownFailures session event ++ effects.failures ∧
      all.pending = effects.pending ∧
      result = if failIfPublishFailed all.outcome then .ok all
        else .error (.publish ("; ".intercalate all.outcome.failures)) := by
  revert ends
  unfold SendBackend.runtimeSend SendBackend.others SendBackend.ownReport SendBackend.ownFailures
    SendBackend.handsOut
  obtain ⟨synced, session'⟩ := backend.syncRuntimeGroups session
  cases synced with
  | error =>
    intro ends
    cases ends
    exact .inl ⟨rfl, ⟨_, rfl⟩, rfl⟩
  | ok =>
    dsimp only
    obtain ⟨sent, session''⟩ := backend.sendAppMessage session' event
    cases sent with
    | error =>
      intro ends
      cases ends
      exact .inl ⟨rfl, ⟨_, rfl⟩, rfl⟩
    | ok sent =>
      obtain ⟨made, drained⟩ := sent
      cases made with
      | applicationMessage msg =>
        dsimp only
        cases published : publishSessionEffects backend.toAccountBackend rounds session''
            (collectEffects (.applicationMessage msg) drained) with
        | none =>
          intro ends
          cases ends
        | some outcome =>
          obtain ⟨error, rfl, others⟩ | ⟨all, effects, rfl, others, reports, failures, pending⟩ :=
            publishSessionEffects_first published
          · intro ends
            cases ends
            exact .inr (.inl ⟨error, by rw [others], rfl⟩)
          · intro ends
            refine .inr (.inr ⟨all, effects, by rw [others], reports, failures, pending, ?_⟩)
            dsimp only at ends
            split_ifs at ends ⊢ <;> cases ends <;> rfl
      | queued groupId intentId =>
        dsimp only [collectEffects]
        cases publishSessionEffects backend.toAccountBackend rounds session''
            { drained with queued := (groupId, intentId) :: drained.queued } with
        | none =>
          intro ends
          cases ends
        | some outcome =>
          cases outcome with
          | error error =>
            intro ends
            cases ends
            exact .inr (.inl ⟨error, rfl, rfl⟩)
          | ok effects =>
            intro ends
            refine .inr (.inr ⟨effects, effects, rfl, rfl, rfl, rfl, ?_⟩)
            dsimp only at ends
            split_ifs at ends ⊢ <;> cases ends <;> rfl

theorem attributed_withdrawn_iff (found : store.row? (context.groupIdHex, event.id) = some row) :
    backend.Attributed session context event
        (store.invalidateByMessageId context.groupIdHex event.id "local_publish_failed") ↔
      ¬ backend.Accepted session event := by
  have withdrawn : (store.invalidateByMessageId context.groupIdHex event.id
      "local_publish_failed").row? (context.groupIdHex, event.id) =
      some { row with invalidated := true, invalidationReason := some "local_publish_failed" } := by
    rw [invalidateByMessageId, invalidateRows_row?, found, Option.map_some,
      if_pos (decide_eq_true (row?_eq_some.mp found).2)]
  constructor
  · rintro ⟨_, here, withdrawal, -⟩
    rw [withdrawn] at here
    cases here
    exact withdrawal.mp ⟨rfl, rfl⟩
  · intro refused
    exact ⟨_, withdrawn, ⟨fun _ => refused, fun _ => ⟨rfl, rfl⟩⟩,
      fun accepted => absurd accepted refused⟩

/-- A row that is valid is attributed exactly when an endpoint accepted the message and the row names
its report. -/
theorem attributed_kept_iff (found : store.row? (context.groupIdHex, event.id) = some row)
    (valid : row.invalidated = false) :
    backend.Attributed session context event store ↔ backend.Accepted session event ∧
      row.sourceMessageIdHex = (backend.ownReport session event).map messageId := by
  constructor
  · rintro ⟨_, here, withdrawal, named⟩
    rw [found] at here
    cases here
    have accepted : backend.Accepted session event := by
      by_contra refused
      rw [(withdrawal.mpr refused).1] at valid
      cases valid
    exact ⟨accepted, named accepted⟩
  · rintro ⟨accepted, named⟩
    refine ⟨row, found, ⟨fun withdrawn => ?_, fun refused => absurd accepted refused⟩,
      fun _ => named⟩
    rw [valid] at withdrawn
    cases withdrawn.1

/-- What the second recording leaves: the row with the source, or the row without it when another row
names the source. -/
theorem record_again (source : Option String)
    (recorded : store.recordAppEvent (context.row event none) = some first) :
    ((first.recordAppEvent (context.row event source)).isSome ↔
      ∀ named ∈ source, ∀ row ∈ store.rows, row.key ≠ (context.groupIdHex, event.id) →
        row.sourceMessageIdHex ≠ some named) := by
  have rows : ∀ row, row.key ≠ (context.groupIdHex, event.id) →
      (row ∈ first.rows ↔ row ∈ store.rows) := by
    intro row other
    have same : first.row? row.key = store.row? row.key :=
      (recordAppEvent_row? recorded row.key).trans (if_neg other)
    constructor
    · intro listed
      rw [row?_eq_some.mpr ⟨listed, rfl⟩] at same
      exact (row?_eq_some.mp same.symm).1
    · intro listed
      rw [row?_eq_some.mpr ⟨listed, rfl⟩] at same
      exact (row?_eq_some.mp same).1
  have free : (first.recordAppEvent (context.row event source)).isSome ↔
      first.clashes (context.row event source) = false := by
    rw [recordAppEvent]
    split_ifs with free <;> simp [free]
  rw [free, clashes_eq_false]
  constructor
  · intro apart named here row listed other same
    refine apart row ((rows row other).mpr listed) other (by rw [same]; rfl) ?_
    exact same.trans (Option.mem_def.mp here).symm
  · intro apart row listed other named same
    obtain ⟨name, here⟩ := Option.isSome_iff_exists.mp named
    exact apart name (same.symm.trans here) row ((rows row other).mp listed) other here

/-- The row of a batch that passed the gate is attributed exactly when an endpoint accepted the message
and no other row names its report. The report of the message is the first of the batch. -/
theorem kept_iff {others : List PublishReport}
    (recorded : store.recordAppEvent (context.row event none) = some first)
    (reports : all.reports = (backend.ownReport session event).toList ++ others)
    (ends : after = (first.recordAppEvent
      (context.row event (all.reports.head?.map messageId))).getD first) :
    backend.Attributed session context event after ↔ backend.Accepted session event ∧
      (backend.Accepted session event → ∀ report, backend.ownReport session event = some report →
        ∀ row ∈ store.rows, row.key ≠ (context.groupIdHex, event.id) →
          row.sourceMessageIdHex ≠ some report.messageId) := by
  have again := record_again (all.reports.head?.map messageId) recorded
  have own : ∀ report, backend.ownReport session event = some report →
      all.reports.head?.map messageId = some report.messageId := by
    intro report here
    rw [reports, here]
    rfl
  cases second : first.recordAppEvent
      (context.row event (all.reports.head?.map messageId)) with
  | none =>
    rw [second] at ends again
    subst ends
    rw [attributed_kept_iff ((recordAppEvent_row? recorded _).trans (if_pos rfl)) rfl]
    constructor
    · rintro ⟨⟨report, here, -⟩, named⟩
      rw [here] at named
      cases named
    · rintro ⟨accepted, apart⟩
      have free := apart accepted
      obtain ⟨report, here, -⟩ := accepted
      refine absurd (again.mpr fun named source => ?_) (by simp)
      rw [own report here] at source
      cases source
      exact free report here
  | some final =>
    rw [second] at ends again
    subst ends
    rw [attributed_kept_iff ((recordAppEvent_row? second _).trans (if_pos rfl)) rfl]
    constructor
    · rintro ⟨accepted, -⟩
      refine ⟨accepted, fun _ report here => again.mp rfl report.messageId ?_⟩
      exact own report here
    · rintro ⟨accepted, -⟩
      refine ⟨accepted, ?_⟩
      obtain ⟨report, here, -⟩ := accepted
      rw [here]
      exact own report here

end Attribution

/-! ### Outcomes that go to the wrong message -/

/-- A session that hands out a message and commits, and a transport with a given answer for the
message; it accepts every commit at one endpoint. Commits can be confirmed or not. -/
def mixedBackend (own : Except String PublishReport) (confirms : Bool)
    (waiting : List PublishWork) : SendBackend Unit Nat where
  publishTarget := fun _ _ => .ok ()
  publish := fun session msg =>
    (if msg.id = "own" then own else .ok ⟨msg.id, ["relay"], [], 1⟩, session)
  confirmPublished := fun session _ =>
    (if confirms then .ok ⟨[], [], [], []⟩ else .error ⟨false, "storage"⟩, session)
  publishFailed := fun session _ => (.ok ⟨[], [], [], []⟩, session)
  syncRuntimeGroups := fun session => (.ok (), session)
  sendAppMessage := fun session _ =>
    (.ok (.applicationMessage (commitMessage "own"), ⟨[], waiting, [], []⟩), session)

def chatEvent : SentEvent := ⟨⟨"chat", "alice", chatKind, [], "hello"⟩, 5⟩

def chatContext : SendContext := ⟨"group", "alice", none, 5⟩

/-- The row of the chat event after a send: whether it is withdrawn, and its source. -/
def sentRow (backend : SendBackend Unit Nat) (rounds : Nat) : Option (Bool × Option String) := do
  let (_, after) ← sendAppEvent backend rounds () chatContext chatEvent .empty
  let row ← after.row? ("group", "chat")
  some (row.invalidated, row.sourceMessageIdHex)

/-- A row that is withdrawn although an endpoint accepted the message, or valid without naming its
report, is not attributed. -/
theorem not_attributed {backend : SendBackend Unit Nat} {rounds : Nat} {withdrawn : Bool}
    {source : Option String} (sent : sentRow backend rounds = some (withdrawn, source))
    (wrong : withdrawn = true ∧ backend.Accepted () chatEvent ∧ source = none ∨
      withdrawn = false ∧ ¬ backend.Accepted () chatEvent) :
    ∃ result after, sendAppEvent backend rounds () chatContext chatEvent .empty =
      some (result, after) ∧ ¬ backend.Attributed () chatContext chatEvent after := by
  unfold sentRow at sent
  simp only [Option.bind_eq_bind, Option.bind_eq_some_iff, Option.some.injEq, Prod.mk.injEq] at sent
  obtain ⟨⟨result, after⟩, ends, row, found, rfl, rfl⟩ := sent
  refine ⟨result, after, ends, ?_⟩
  rintro ⟨kept, here, withdrawal, named⟩
  obtain rfl : row = kept := Option.some.inj (found.symm.trans here)
  obtain ⟨-, accepted, unnamed⟩ | ⟨valid, refused⟩ := wrong
  · have own := named accepted
    obtain ⟨_, reported, -⟩ := accepted
    rw [unnamed, reported] at own
    cases own
  · rw [(withdrawal.mpr refused).1] at valid
    cases valid

end Send

end Darkmatter
