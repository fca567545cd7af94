/-
**Publishing what a session asks for.**

A session hands out effects: events, and messages to publish. A commit waits for its publication
under a reference, and is confirmed or rolled back when its messages went out. Resolving a reference
yields effects in turn, so the queue grows while it is worked off.

* `AccountBackend` — what the transport and the session answer, at any moment;
* `PublishRun.publishWork`, `PublishRun.step`, `reach` — one item, one round, and the loop;
* `Discharged` — what has to be done for an item;
* `PublishRun.Faithful` — every item is taken or queued, every reference of a taken item is resolved
  once, and every event is kept;
* `PublishRun.Smooth` — the session resolves the reference, and no message counts as published that no
  endpoint accepted;
* `obligations_resolved_iff` — **every obligation is resolved exactly when every round is smooth**.
-/

import Darkmatter.Projection.Replay

namespace Darkmatter

open List

/-! ### Effects -/

/-- The report of a publication: the endpoints that accepted it, and those that failed. -/
structure PublishReport where
  messageId : String
  accepted : List String
  failed : List (String × String)
  requiredAcks : Nat
deriving DecidableEq, Repr

def PublishReport.metRequiredAcks (report : PublishReport) : Bool :=
  report.requiredAcks ≤ report.accepted.length

/-- An item of work. A commit has the reference under which it waits. -/
inductive PublishWork
  | applicationMessage (msg : TransportMessage)
  | proposal (msg : TransportMessage)
  | groupEvolution (msg : TransportMessage) (welcomes : List TransportMessage) (pending : Nat)
  | groupCreated (welcomes : List TransportMessage) (pending : Nat)
  | autoPublish (msg : TransportMessage) (pending : Nat)
deriving DecidableEq, Repr

def PublishWork.pending? : PublishWork → Option Nat
  | .applicationMessage _ | .proposal _ => none
  | .groupEvolution _ _ pending | .groupCreated _ pending | .autoPublish _ pending => some pending

structure SessionEffects (Event : Type) where
  events : List Event
  publish : List PublishWork
  queued : List (Bytes × String)
  pendingConvergence : List Bytes
deriving DecidableEq, Repr

/-- How a reference was resolved. -/
inductive Resolution
  | confirmed (pending : Nat)
  | rolledBack (pending : Nat)
deriving DecidableEq, Repr

def Resolution.pending : Resolution → Nat
  | .confirmed pending | .rolledBack pending => pending

structure PublishFailure where
  messageId : String
  reason : String
deriving DecidableEq, Repr

/-- What the account reports of a batch. -/
structure AccountDeviceEffects (Event : Type) where
  events : List Event
  queued : List (Bytes × String)
  pendingConvergence : List Bytes
  reports : List PublishReport
  failures : List PublishFailure
  pending : List Resolution
deriving DecidableEq, Repr

structure SessionError where
  isTransient : Bool
  text : String
deriving DecidableEq, Repr

/-- **The transport and the session**, as they answer in a state. A message may have no route. -/
structure AccountBackend (State Event : Type) where
  publishTarget : State → TransportMessage → Except String Unit
  publish : State → TransportMessage → Except String PublishReport × State
  confirmPublished : State → Nat → Except SessionError (SessionEffects Event) × State
  publishFailed : State → Nat → Except SessionError (SessionEffects Event) × State

structure PublishStatus where
  metRequiredAcks : Bool
  acceptedByAnyEndpoint : Bool
deriving DecidableEq, Repr

/-- The message counts as published. -/
abbrev PublishStatus.counts (status : PublishStatus) : Bool :=
  status.metRequiredAcks || status.acceptedByAnyEndpoint

/-- What is done for an item: a message is published, and accepted by an endpoint or not; a reference
is resolved, by confirming or by rolling back. -/
inductive PublishCall
  | published (msg : TransportMessage) (accepted : Bool)
  | settled (pending : Nat) (confirmed : Bool)
deriving DecidableEq, Repr

def PublishCall.resolution? : PublishCall → Option Resolution
  | .published _ _ => none
  | .settled pending true => some (.confirmed pending)
  | .settled pending false => some (.rolledBack pending)

/-- **A batch on its way**: the session, the report so far and the queue; and, as its history, what
was done for the item at hand and for the items before it, and the effects that were absorbed. -/
structure PublishRun (State Event : Type) where
  session : State
  output : AccountDeviceEffects Event
  queue : List PublishWork
  calls : List PublishCall
  taken : List (PublishWork × List PublishCall)
  absorbed : List (SessionEffects Event)

/-! ### The loop -/

section Loop

variable {State Event : Type} (backend : AccountBackend State Event)

/-- Confirming is repeated while the error is transient, `retries` times at most. -/
def confirmPublishedRetrying (session : State) (pending : Nat) :
    Nat → Except SessionError (SessionEffects Event) × State
  | 0 => backend.confirmPublished session pending
  | retries + 1 =>
    match backend.confirmPublished session pending with
    | (.ok effects, session) => (.ok effects, session)
    | (.error error, session) =>
      if error.isTransient then confirmPublishedRetrying session pending retries
      else (.error error, session)

namespace PublishRun

variable (run : PublishRun State Event)

def absorbSessionEffects (effects : SessionEffects Event) : PublishRun State Event :=
  { run with
    output :=
      { run.output with
        events := run.output.events ++ effects.events
        queued := run.output.queued ++ effects.queued
        pendingConvergence := run.output.pendingConvergence ++ effects.pendingConvergence }
    queue := run.queue ++ effects.publish
    absorbed := run.absorbed ++ [effects] }

variable (msg : TransportMessage) (session : State)

/-- What is noted of a message that was handed to the transport, or that had no route. -/
def notePublished (accepted : Bool)
    (reports : List PublishReport) (failures : List PublishFailure) : PublishRun State Event :=
  { run with
    session := session
    output :=
      { run.output with
        reports := run.output.reports ++ reports
        failures := run.output.failures ++ failures }
    calls := run.calls ++ [.published msg accepted] }

/-- **One message.** A missing route and an error of the transport are noted and are no error of the
batch. -/
def publishOne : PublishStatus × PublishRun State Event :=
  match backend.publishTarget run.session msg with
  | .error reason => (⟨false, false⟩, run.notePublished msg run.session false [] [⟨msg.id, reason⟩])
  | .ok () =>
    match backend.publish run.session msg with
    | (.error reason, session) =>
      (⟨false, false⟩, run.notePublished msg session false [] [⟨msg.id, reason⟩])
    | (.ok report, session) =>
      let accepted := !report.accepted.isEmpty
      (⟨report.metRequiredAcks, accepted⟩,
        run.notePublished msg session accepted [report]
          (if report.metRequiredAcks then []
           else [⟨report.messageId, "insufficient publish acknowledgements"⟩]))

/-- Messages one after another: whether all met their acknowledgements, and whether an endpoint
accepted one. -/
def publishMessages : List TransportMessage → PublishRun State Event →
    PublishStatus × PublishRun State Event
  | [], run => (⟨true, false⟩, run)
  | msg :: rest, run =>
    let (status, run) := run.publishOne backend msg
    let (later, run) := publishMessages rest run
    (⟨status.metRequiredAcks && later.metRequiredAcks,
      status.acceptedByAnyEndpoint || later.acceptedByAnyEndpoint⟩, run)

/-- The Welcomes of a new group. It stops at a Welcome that does not meet its acknowledgements while
none was exposed. -/
def publishWelcomes (exposed : Bool) : List TransportMessage → PublishRun State Event →
    PublishStatus × PublishRun State Event
  | [], run => (⟨true, exposed⟩, run)
  | welcome :: rest, run =>
    let (status, run) := run.publishOne backend welcome
    let exposed := exposed || status.acceptedByAnyEndpoint
    if !status.metRequiredAcks && !exposed then
      (⟨false, exposed⟩, run)
    else
      let (later, run) := publishWelcomes exposed rest run
      (⟨status.metRequiredAcks && later.metRequiredAcks, later.acceptedByAnyEndpoint⟩, run)

def noteSettled (pending : Nat) (confirm : Bool) : PublishRun State Event :=
  { run with
    session := session
    output :=
      { run.output with
        pending := run.output.pending ++
          [if confirm then Resolution.confirmed pending else .rolledBack pending] }
    calls := run.calls ++ [.settled pending confirm] }

/-- **A reference is resolved**, and the effects of that are absorbed. -/
def settlePending (pending : Nat) (confirm : Bool) :
    Except SessionError Unit × PublishRun State Event :=
  let (result, session) :=
    if confirm then confirmPublishedRetrying backend run.session pending 3
    else backend.publishFailed run.session pending
  match result with
  | .error error => (.error error, { run with session := session })
  | .ok effects =>
    (.ok (), (run.noteSettled session pending confirm).absorbSessionEffects effects)

def publishPending (pending : Nat) : Except SessionError Unit × PublishRun State Event :=
  let (status, run) := publishMessages backend [msg] run
  run.settlePending backend pending (status.metRequiredAcks || status.acceptedByAnyEndpoint)

def publishGroupCreated (welcomes : List TransportMessage) (pending : Nat) :
    Except SessionError Unit × PublishRun State Event :=
  let (status, run) := publishWelcomes backend false welcomes run
  run.settlePending backend pending (status.metRequiredAcks || status.acceptedByAnyEndpoint)

/-- The Welcomes of an evolution go out after its commit is confirmed. -/
def publishGroupEvolution (welcomes : List TransportMessage)
    (pending : Nat) : Except SessionError Unit × PublishRun State Event :=
  let (status, run) := run.publishOne backend msg
  if status.metRequiredAcks || status.acceptedByAnyEndpoint then
    match run.settlePending backend pending true with
    | (.error error, run) => (.error error, run)
    | (.ok (), run) => (.ok (), (publishMessages backend welcomes run).2)
  else
    run.settlePending backend pending false

def publishWork : PublishWork → Except SessionError Unit × PublishRun State Event
  | .applicationMessage msg | .proposal msg => (.ok (), (run.publishOne backend msg).2)
  | .groupCreated welcomes pending => run.publishGroupCreated backend welcomes pending
  | .groupEvolution msg welcomes pending =>
    run.publishGroupEvolution backend msg welcomes pending
  | .autoPublish msg pending => run.publishPending backend msg pending

/-- The first item leaves the queue. -/
def pop (rest : List PublishWork) : PublishRun State Event :=
  { run with queue := rest, calls := [] }

def noteTaken (work : PublishWork) : PublishRun State Event :=
  { run with taken := run.taken ++ [(work, run.calls)] }

/-- **One round of the loop.** -/
def step : Except SessionError (PublishRun State Event) :=
  match run.queue with
  | [] => .ok run
  | work :: rest =>
    match (run.pop rest).publishWork backend work with
    | (.error error, _) => .error error
    | (.ok (), next) => .ok (next.noteTaken work)

/-- A batch begins with the effects it is given. -/
def start (effects : SessionEffects Event) : PublishRun State Event :=
  absorbSessionEffects ⟨session, ⟨[], [], [], [], [], []⟩, [], [], [], []⟩ effects

end PublishRun

/-- The run after a number of rounds, or the error that ended it. -/
def reach (session : State) (effects : SessionEffects Event) :
    Nat → Except SessionError (PublishRun State Event)
  | 0 => .ok (.start session effects)
  | rounds + 1 => do (← reach session effects rounds).step backend

/-- **The effects of a session are published.** The report is there when the queue is empty; an error
ends the loop, and with it the report. -/
def publishSessionEffects (rounds : Nat) (session : State) (effects : SessionEffects Event) :
    Option (Except SessionError (AccountDeviceEffects Event)) :=
  match reach backend session effects rounds with
  | .error error => some (.error error)
  | .ok run => if run.queue.isEmpty then some (.ok run.output) else none

end Loop

/-! ### Obligations -/

def PublishCall.isAccepted : PublishCall → Bool
  | .published _ accepted => accepted
  | .settled _ _ => false

open PublishCall

/-- The calls publish the messages, one after another. -/
def Publications (messages : List TransportMessage) (calls : List PublishCall) : Prop :=
  List.Forall₂ (fun msg call => ∃ accepted, call = .published msg accepted) messages calls

/-- **What has to be done for an item.** Its message is published. The reference of a commit is
confirmed if an endpoint accepted the commit and rolled back if not; the Welcomes follow a confirmed
commit. A new group is confirmed if an endpoint accepted one of its Welcomes or there are none, all of
which are published then, and rolled back if not. -/
def Discharged : PublishWork → List PublishCall → Prop
  | .applicationMessage msg, calls => ∃ accepted, calls = [.published msg accepted]
  | .proposal msg, calls => ∃ accepted, calls = [.published msg accepted]
  | .autoPublish msg pending, calls =>
    ∃ accepted, calls = [.published msg accepted, .settled pending accepted]
  | .groupEvolution msg welcomes pending, calls => ∃ accepted sent,
    calls = .published msg accepted :: .settled pending accepted :: sent ∧
      Publications (if accepted then welcomes else []) sent
  | .groupCreated welcomes pending, calls => ∃ tried sent confirmed,
    calls = sent ++ [.settled pending confirmed] ∧ tried <+: welcomes ∧ Publications tried sent ∧
      (confirmed = true ↔ welcomes = [] ∨ sent.any isAccepted = true) ∧
      (confirmed = true → tried = welcomes) ∧ (tried = [] → welcomes = [])

namespace PublishRun

variable {State Event : Type}

/-- **The run is faithful**: the items that were taken and those in the queue are the ones that were
absorbed, in order; every taken item is discharged; the report has the resolutions, one for every
reference of a taken item, and every event. -/
structure Faithful (run : PublishRun State Event) : Prop where
  order : run.taken.map Prod.fst ++ run.queue = run.absorbed.flatMap SessionEffects.publish
  discharged : ∀ entry ∈ run.taken, Discharged entry.1 entry.2
  reported : run.output.pending = run.taken.flatMap fun entry => entry.2.filterMap resolution?
  resolved : run.output.pending.map Resolution.pending =
    (run.taken.map Prod.fst).filterMap PublishWork.pending?
  events : run.output.events = run.absorbed.flatMap SessionEffects.events

/-- **The round is smooth**: the session resolves the reference, and a commit or a new group that
counts as published was accepted by an endpoint. -/
def Smooth (backend : AccountBackend State Event) (run : PublishRun State Event) :
    PublishWork → Prop
  | .applicationMessage _ | .proposal _ => True
  | .autoPublish msg pending =>
    let published := run.publishOne backend msg
    (published.1.metRequiredAcks = true → published.1.acceptedByAnyEndpoint = true) ∧
      (published.2.settlePending backend pending published.1.acceptedByAnyEndpoint).1 = .ok ()
  | .groupEvolution msg _ pending =>
    let published := run.publishOne backend msg
    (published.1.metRequiredAcks = true → published.1.acceptedByAnyEndpoint = true) ∧
      (published.2.settlePending backend pending published.1.acceptedByAnyEndpoint).1 = .ok ()
  | .groupCreated welcomes pending =>
    let published := publishWelcomes backend false welcomes run
    (published.1.metRequiredAcks = true →
      welcomes = [] ∨ published.1.acceptedByAnyEndpoint = true) ∧
      (published.2.settlePending backend pending
        (published.1.metRequiredAcks || published.1.acceptedByAnyEndpoint)).1 = .ok ()

/-! ### Publishing -/

variable {backend : AccountBackend State Event} {run middle after : PublishRun State Event}
  {sent later : List PublishCall}

/-- Messages were published, and nothing else happened. -/
structure Publishes (run after : PublishRun State Event) (sent : List PublishCall) : Prop where
  calls : after.calls = run.calls ++ sent
  queue : after.queue = run.queue
  taken : after.taken = run.taken
  absorbed : after.absorbed = run.absorbed
  events : after.output.events = run.output.events
  pending : after.output.pending = run.output.pending

theorem Publishes.refl (run : PublishRun State Event) : run.Publishes run [] :=
  ⟨(append_nil _).symm, rfl, rfl, rfl, rfl, rfl⟩

theorem Publishes.trans (first : run.Publishes middle sent) (second : middle.Publishes after later) :
    run.Publishes after (sent ++ later) :=
  ⟨by rw [second.calls, first.calls, append_assoc], second.queue.trans first.queue,
    second.taken.trans first.taken, second.absorbed.trans first.absorbed,
    second.events.trans first.events, second.pending.trans first.pending⟩

theorem publishOne_publishes (backend : AccountBackend State Event)
    (run : PublishRun State Event) (msg : TransportMessage) :
    run.Publishes (run.publishOne backend msg).2
      [.published msg (run.publishOne backend msg).1.acceptedByAnyEndpoint] := by
  unfold publishOne
  split
  · exact ⟨rfl, rfl, rfl, rfl, rfl, rfl⟩
  · split <;> exact ⟨rfl, rfl, rfl, rfl, rfl, rfl⟩

theorem publishMessages_publishes (backend : AccountBackend State Event)
    (messages : List TransportMessage) (run : PublishRun State Event) :
    ∃ sent, run.Publishes (publishMessages backend messages run).2 sent ∧
      Publications messages sent := by
  induction messages generalizing run with
  | nil => exact ⟨[], .refl run, .nil⟩
  | cons msg rest ih =>
    obtain ⟨sent, publishes, listed⟩ := ih (run.publishOne backend msg).2
    exact ⟨_ :: sent, (publishOne_publishes backend run msg).trans publishes, .cons ⟨_, rfl⟩ listed⟩

/-- **The Welcomes of a new group**: some of them are published, all of them if they count as
published or one is accepted. -/
theorem publishWelcomes_publishes (backend : AccountBackend State Event) (exposed : Bool)
    (welcomes : List TransportMessage) (run : PublishRun State Event) :
    ∃ tried sent, run.Publishes (publishWelcomes backend exposed welcomes run).2 sent ∧
      tried <+: welcomes ∧ Publications tried sent ∧
      (publishWelcomes backend exposed welcomes run).1.acceptedByAnyEndpoint =
        (exposed || sent.any isAccepted) ∧
      ((publishWelcomes backend exposed welcomes run).1.metRequiredAcks = true ∨
        (publishWelcomes backend exposed welcomes run).1.acceptedByAnyEndpoint = true →
          tried = welcomes) ∧
      (tried = [] → welcomes = []) := by
  induction welcomes generalizing run exposed with
  | nil =>
    exact ⟨[], [], .refl run, prefix_rfl, .nil, by simp [publishWelcomes], fun _ => rfl,
      fun _ => rfl⟩
  | cons welcome rest ih =>
    have first := publishOne_publishes backend run welcome
    rw [publishWelcomes]
    dsimp only
    split_ifs with stops
    · simp only [Bool.and_eq_true, Bool.not_eq_true', Bool.or_eq_false_iff] at stops
      refine ⟨[welcome], _, first, by simp, .cons ⟨_, rfl⟩ .nil, by simp [isAccepted], ?_, by simp⟩
      simp [stops.2.1, stops.2.2]
    · obtain ⟨tried, sent, publishes, part, listed, accepted, all, -⟩ :=
        ih (exposed || (run.publishOne backend welcome).1.acceptedByAnyEndpoint)
          (run.publishOne backend welcome).2
      refine ⟨welcome :: tried, _ :: sent, first.trans publishes,
        cons_prefix_cons.mpr ⟨rfl, part⟩, .cons ⟨_, rfl⟩ listed, ?_, ?_, by simp⟩
      · rw [accepted]
        simp [isAccepted, Bool.or_assoc]
      · intro counts
        rw [all (counts.imp_left fun met => (Bool.and_eq_true_iff.mp met).2)]

/-! ### One item -/

section Items

variable {work : PublishWork}

/-- **Calls were made, and what came of them is kept**: the effects of resolutions are absorbed, and
the resolutions are reported. -/
structure Handles (run after : PublishRun State Event) (sent : List PublishCall) : Prop where
  calls : after.calls = run.calls ++ sent
  taken : after.taken = run.taken
  pending : after.output.pending = run.output.pending ++ sent.filterMap resolution?
  absorbs : ∃ effects, after.absorbed = run.absorbed ++ effects ∧
    after.queue = run.queue ++ effects.flatMap SessionEffects.publish ∧
    after.output.events = run.output.events ++ effects.flatMap SessionEffects.events

theorem Handles.trans (first : run.Handles middle sent) (second : middle.Handles after later) :
    run.Handles after (sent ++ later) := by
  obtain ⟨effects, absorbed, queue, events⟩ := first.absorbs
  obtain ⟨effects', absorbed', queue', events'⟩ := second.absorbs
  refine ⟨by rw [second.calls, first.calls, append_assoc], second.taken.trans first.taken,
    by rw [second.pending, first.pending, filterMap_append, append_assoc],
    effects ++ effects', ?_, ?_, ?_⟩
  · rw [absorbed', absorbed, append_assoc]
  · rw [queue', queue, flatMap_append, append_assoc]
  · rw [events', events, flatMap_append, append_assoc]

variable {messages : List TransportMessage}

theorem Publications.filterMap_resolution? (listed : Publications messages sent) :
    sent.filterMap resolution? = [] := by
  induction listed with
  | nil => rfl
  | cons published _ ih =>
    obtain ⟨_, rfl⟩ := published
    simpa [resolution?] using ih

theorem Publishes.handles (publishes : run.Publishes after sent)
    (listed : Publications messages sent) : run.Handles after sent :=
  ⟨publishes.calls, publishes.taken,
    by rw [publishes.pending, Publications.filterMap_resolution? listed, append_nil],
    [], by rw [publishes.absorbed, append_nil], by simp [publishes.queue],
    by simp [publishes.events]⟩

theorem settlePending_handles {pending : Nat} {confirm : Bool}
    (resolves : (run.settlePending backend pending confirm).1 = .ok ()) :
    run.Handles (run.settlePending backend pending confirm).2 [.settled pending confirm] := by
  unfold settlePending at resolves ⊢
  dsimp only at resolves ⊢
  split at resolves
  · cases resolves
  · next effects answered =>
    refine ⟨rfl, rfl, ?_, [effects], rfl, ?_, ?_⟩
    · cases confirm <;> rfl
    · simp [absorbSessionEffects, noteSettled]
    · simp [absorbSessionEffects, noteSettled]

theorem publishOne_handles (backend : AccountBackend State Event) (run : PublishRun State Event)
    (msg : TransportMessage) :
    run.Handles (run.publishOne backend msg).2
      [.published msg (run.publishOne backend msg).1.acceptedByAnyEndpoint] :=
  (publishOne_publishes backend run msg).handles (List.Forall₂.cons ⟨_, rfl⟩ .nil)

theorem publishPending_eq (backend : AccountBackend State Event) (run : PublishRun State Event)
    (msg : TransportMessage) (pending : Nat) :
    run.publishPending backend msg pending =
      (run.publishOne backend msg).2.settlePending backend pending
        (run.publishOne backend msg).1.counts := by
  simp [publishPending, publishMessages]

theorem counts_iff (status : PublishStatus) :
    status.counts = status.acceptedByAnyEndpoint ↔
      (status.metRequiredAcks = true → status.acceptedByAnyEndpoint = true) := by
  obtain ⟨met, accepted⟩ := status
  cases met <;> cases accepted <;> simp

theorem autoPublish_iff (msg : TransportMessage) (pending : Nat) (fresh : run.calls = []) :
    ((run.publishWork backend (.autoPublish msg pending)).1 = .ok () ∧
      Discharged (.autoPublish msg pending)
        (run.publishWork backend (.autoPublish msg pending)).2.calls) ↔
      run.Smooth backend (.autoPublish msg pending) := by
  simp only [publishWork, publishPending_eq, Smooth, ← counts_iff]
  have first := publishOne_handles backend run msg
  generalize run.publishOne backend msg = published at first ⊢
  constructor
  · rintro ⟨resolves, _, done⟩
    rw [(first.trans (settlePending_handles resolves)).calls, fresh] at done
    simp only [nil_append, cons_append, cons.injEq, PublishCall.published.injEq,
      PublishCall.settled.injEq, true_and, and_true] at done
    obtain ⟨rfl, same⟩ := done
    exact ⟨same, by rwa [same] at resolves⟩
  · rintro ⟨same, resolves⟩
    rw [same]
    refine ⟨resolves, published.1.acceptedByAnyEndpoint, ?_⟩
    rw [(first.trans (settlePending_handles resolves)).calls, fresh]
    rfl

/-- An evolution that counts as published: its reference is confirmed and its Welcomes go out. -/
theorem publishGroupEvolution_confirms {msg : TransportMessage}
    (welcomes : List TransportMessage) (pending : Nat)
    (counts : (run.publishOne backend msg).1.counts) :
    (run.publishGroupEvolution backend msg welcomes pending).1 =
        ((run.publishOne backend msg).2.settlePending backend pending true).1 ∧
    ((run.publishGroupEvolution backend msg welcomes pending).1 = .ok () →
      ∃ sent, Publications welcomes sent ∧
        run.Handles (run.publishGroupEvolution backend msg welcomes pending).2
          (.published msg (run.publishOne backend msg).1.acceptedByAnyEndpoint ::
            .settled pending true :: sent)) := by
  have first := publishOne_handles backend run msg
  unfold publishGroupEvolution
  dsimp only
  rw [if_pos counts]
  cases resolved : (run.publishOne backend msg).2.settlePending backend pending true with
  | mk result settled =>
    cases result with
    | error => exact ⟨rfl, fun done => by cases done⟩
    | ok =>
      refine ⟨rfl, fun _ => ?_⟩
      have resolves : ((run.publishOne backend msg).2.settlePending backend pending true).1 =
          .ok () := by
        rw [resolved]
      have second := settlePending_handles resolves
      rw [resolved] at second
      obtain ⟨sent, publishes, listed⟩ := publishMessages_publishes backend welcomes settled
      exact ⟨sent, listed, first.trans (second.trans (publishes.handles listed))⟩

theorem groupEvolution_iff (msg : TransportMessage) (welcomes : List TransportMessage)
    (pending : Nat) (fresh : run.calls = []) :
    ((run.publishWork backend (.groupEvolution msg welcomes pending)).1 = .ok () ∧
      Discharged (.groupEvolution msg welcomes pending)
        (run.publishWork backend (.groupEvolution msg welcomes pending)).2.calls) ↔
      run.Smooth backend (.groupEvolution msg welcomes pending) := by
  simp only [publishWork, Smooth, ← counts_iff]
  have first := publishOne_handles backend run msg
  cases counts : (run.publishOne backend msg).1.counts with
  | false =>
    have unaccepted : (run.publishOne backend msg).1.acceptedByAnyEndpoint = false :=
      (Bool.or_eq_false_iff.mp counts).2
    have rolled : run.publishGroupEvolution backend msg welcomes pending =
        (run.publishOne backend msg).2.settlePending backend pending false := by
      unfold publishGroupEvolution
      dsimp only
      rw [if_neg (by simp [counts])]
    rw [rolled, unaccepted]
    refine ⟨fun done => ⟨rfl, done.1⟩, fun smooth => ⟨smooth.2, false, [], ?_, .nil⟩⟩
    rw [(first.trans (settlePending_handles smooth.2)).calls, fresh, unaccepted]
    rfl
  | true =>
    obtain ⟨result, calls⟩ := publishGroupEvolution_confirms welcomes pending counts
    constructor
    · rintro ⟨resolves, _, sent, done, -⟩
      obtain ⟨_, -, handled⟩ := calls resolves
      rw [handled.calls, fresh, nil_append, cons.injEq, cons.injEq,
        PublishCall.published.injEq, PublishCall.settled.injEq] at done
      obtain ⟨⟨-, same⟩, ⟨-, confirmed⟩, -⟩ := done
      have accepts := same.trans confirmed.symm
      rw [result] at resolves
      exact ⟨accepts.symm, by rwa [accepts]⟩
    · rintro ⟨same, resolves⟩
      rw [← same, ← result] at resolves
      obtain ⟨sent, listed, handled⟩ := calls resolves
      refine ⟨resolves, true, sent, ?_, listed⟩
      rw [handled.calls, fresh, ← same]
      rfl

theorem groupCreated_iff (welcomes : List TransportMessage) (pending : Nat)
    (fresh : run.calls = []) :
    ((run.publishWork backend (.groupCreated welcomes pending)).1 = .ok () ∧
      Discharged (.groupCreated welcomes pending)
        (run.publishWork backend (.groupCreated welcomes pending)).2.calls) ↔
      run.Smooth backend (.groupCreated welcomes pending) := by
  simp only [publishWork, Smooth, publishGroupCreated]
  obtain ⟨tried, sent, publishes, part, listed, accepted, all, some⟩ :=
    publishWelcomes_publishes backend false welcomes run
  have none : welcomes = [] →
      (publishWelcomes backend false welcomes run).1.metRequiredAcks = true := by
    rintro rfl
    rfl
  generalize publishWelcomes backend false welcomes run = published at publishes accepted all none ⊢
  rw [Bool.false_or] at accepted
  have first := publishes.handles listed
  constructor
  · rintro ⟨resolves, _, _, confirmed, done, -, -, counts, -⟩
    rw [(first.trans (settlePending_handles resolves)).calls, fresh, nil_append] at done
    obtain ⟨rfl, last⟩ := append_inj' done rfl
    simp only [cons.injEq, PublishCall.settled.injEq, true_and, and_true] at last
    refine ⟨fun met => ?_, resolves⟩
    rw [accepted]
    exact counts.mp (by rw [← last, met, Bool.true_or])
  · rintro ⟨counts, resolves⟩
    refine ⟨resolves, tried, sent,
      published.1.metRequiredAcks || published.1.acceptedByAnyEndpoint, ?_, part, listed, ?_,
      fun confirmed => all (Bool.or_eq_true_iff.mp confirmed), some⟩
    · rw [(first.trans (settlePending_handles resolves)).calls, fresh, nil_append]
    · rw [Bool.or_eq_true_iff, ← accepted]
      exact ⟨fun confirmed => confirmed.elim counts .inr, Or.imp_left none⟩

/-- **An item is discharged exactly when its round is smooth.** -/
theorem publishWork_iff (fresh : run.calls = []) :
    ((run.publishWork backend work).1 = .ok () ∧
      Discharged work (run.publishWork backend work).2.calls) ↔ run.Smooth backend work := by
  cases work with
  | applicationMessage msg | proposal msg =>
    refine iff_of_true ⟨rfl, (run.publishOne backend msg).1.acceptedByAnyEndpoint, ?_⟩ trivial
    change (run.publishOne backend msg).2.calls = _
    rw [(publishOne_handles backend run msg).calls, fresh]
    rfl
  | groupEvolution msg welcomes pending => exact groupEvolution_iff msg welcomes pending fresh
  | groupCreated welcomes pending => exact groupCreated_iff welcomes pending fresh
  | autoPublish msg pending => exact autoPublish_iff msg pending fresh

theorem publishWork_handles (ends : (run.publishWork backend work).1 = .ok ()) :
    ∃ sent, run.Handles (run.publishWork backend work).2 sent := by
  cases work with
  | applicationMessage msg | proposal msg => exact ⟨_, publishOne_handles backend run msg⟩
  | groupEvolution msg welcomes pending =>
    cases counts : (run.publishOne backend msg).1.counts with
    | false =>
      have rolled : run.publishWork backend (.groupEvolution msg welcomes pending) =
          (run.publishOne backend msg).2.settlePending backend pending false := by
        simp only [publishWork, publishGroupEvolution]
        rw [if_neg (by simp [counts])]
      rw [rolled] at ends ⊢
      exact ⟨_, (publishOne_handles backend run msg).trans (settlePending_handles ends)⟩
    | true =>
      obtain ⟨-, calls⟩ := publishGroupEvolution_confirms welcomes pending counts
      obtain ⟨_, -, handled⟩ := calls ends
      exact ⟨_, handled⟩
  | groupCreated welcomes =>
    obtain ⟨_, _, publishes, -, listed, -⟩ :=
      publishWelcomes_publishes backend false welcomes run
    exact ⟨_, (publishes.handles listed).trans (settlePending_handles ends)⟩
  | autoPublish msg =>
    simp only [publishWork, publishPending_eq] at ends ⊢
    exact ⟨_, (publishOne_handles backend run msg).trans (settlePending_handles ends)⟩

theorem Discharged.resolves {calls : List PublishCall} (discharged : Discharged work calls) :
    (calls.filterMap resolution?).map Resolution.pending = work.pending?.toList := by
  cases work with
  | applicationMessage msg | proposal msg =>
    obtain ⟨accepted, rfl⟩ := discharged
    rfl
  | autoPublish =>
    obtain ⟨accepted, rfl⟩ := discharged
    cases accepted <;> rfl
  | groupEvolution msg welcomes pending =>
    obtain ⟨accepted, sent, rfl, listed⟩ := discharged
    change (([PublishCall.published msg accepted, .settled pending accepted] ++ sent).filterMap
      resolution?).map Resolution.pending = _
    rw [filterMap_append, Publications.filterMap_resolution? listed]
    cases accepted <;> rfl
  | groupCreated =>
    obtain ⟨_, _, confirmed, rfl, -, listed, -⟩ := discharged
    rw [filterMap_append, Publications.filterMap_resolution? listed]
    cases confirmed <;> rfl

end Items

/-! ### The batch -/

section Batch

variable {run : PublishRun State Event}

theorem start_faithful (session : State) (effects : SessionEffects Event) :
    (start session effects).Faithful :=
  ⟨by simp [start, absorbSessionEffects], by simp [start, absorbSessionEffects],
    by simp [start, absorbSessionEffects], by simp [start, absorbSessionEffects],
    by simp [start, absorbSessionEffects]⟩

/-- **One round keeps a run faithful** when it discharges its item. -/
theorem Faithful.take {work : PublishWork} {rest : List PublishWork} (faithful : run.Faithful)
    (queued : run.queue = work :: rest)
    (ends : ((run.pop rest).publishWork backend work).1 = .ok ())
    (discharged : Discharged work ((run.pop rest).publishWork backend work).2.calls) :
    (((run.pop rest).publishWork backend work).2.noteTaken work).Faithful := by
  obtain ⟨sent, handled⟩ := publishWork_handles ends
  generalize ((run.pop rest).publishWork backend work).2 = next at discharged handled ⊢
  obtain ⟨_, absorbed, queue, events⟩ := handled.absorbs
  have calls : next.calls = sent := handled.calls
  have taken : next.taken = run.taken := handled.taken
  have pending : next.output.pending =
      run.output.pending ++ sent.filterMap resolution? := handled.pending
  rw [calls] at discharged
  constructor
  · change (next.taken ++ [(work, next.calls)]).map Prod.fst ++ next.queue =
      next.absorbed.flatMap SessionEffects.publish
    have order := faithful.order
    rw [queued] at order
    rw [taken, queue, absorbed, flatMap_append]
    change _ = run.absorbed.flatMap SessionEffects.publish ++ _
    rw [← order]
    simp [pop]
  · change ∀ entry ∈ next.taken ++ [(work, next.calls)], Discharged entry.1 entry.2
    rw [taken, calls, forall_mem_append]
    exact ⟨faithful.discharged, by simpa using discharged⟩
  · change next.output.pending = (next.taken ++ [(work, next.calls)]).flatMap _
    rw [pending, taken, calls, flatMap_append, faithful.reported]
    simp
  · change next.output.pending.map Resolution.pending =
      ((next.taken ++ [(work, next.calls)]).map Prod.fst).filterMap PublishWork.pending?
    rw [pending, taken, map_append, faithful.resolved, Discharged.resolves discharged,
      map_append, filterMap_append]
    cases work <;> rfl
  · change next.output.events = next.absorbed.flatMap SessionEffects.events
    rw [events, absorbed, flatMap_append]
    change run.output.events ++ _ = run.absorbed.flatMap SessionEffects.events ++ _
    rw [faithful.events]

/-- The run is where the queue is worked off, or every round so far has taken an item. -/
def Advanced (rounds : Nat) (run : PublishRun State Event) : Prop :=
  run.queue = [] ∨ run.taken.length = rounds

theorem Faithful.step {rounds : Nat} (faithful : run.Faithful) (advanced : run.Advanced rounds)
    (smooth : ∀ work rest, run.queue = work :: rest → (run.pop rest).Smooth backend work) :
    ∃ next, run.step backend = .ok next ∧ next.Faithful ∧ next.Advanced (rounds + 1) := by
  unfold PublishRun.step
  cases queued : run.queue with
  | nil => exact ⟨run, rfl, faithful, .inl queued⟩
  | cons work rest =>
    obtain ⟨ends, discharged⟩ := (publishWork_iff rfl).mpr (smooth work rest queued)
    have kept := faithful.take queued ends discharged
    obtain ⟨_, handled⟩ := publishWork_handles ends
    dsimp only
    generalize (run.pop rest).publishWork backend work = outcome at ends kept handled ⊢
    obtain ⟨result, next⟩ := outcome
    obtain rfl : result = .ok () := ends
    refine ⟨next.noteTaken work, rfl, kept, .inr ?_⟩
    have taken : next.taken = run.taken := handled.taken
    have full := advanced.resolve_left (by simp [queued])
    simp [noteTaken, taken, full]

end Batch

end PublishRun

/-- **Every obligation is resolved exactly when every round is smooth.** The run goes on for any
number of rounds, every round takes the next item until none is left, and the run stays faithful. -/
theorem obligations_resolved_iff {State Event : Type} (backend : AccountBackend State Event)
    (session : State) (effects : SessionEffects Event) :
    (∀ rounds, ∃ run, reach backend session effects rounds = .ok run ∧ run.Faithful ∧
      run.Advanced rounds) ↔
    ∀ rounds run work rest, reach backend session effects rounds = .ok run →
      run.queue = work :: rest → (run.pop rest).Smooth backend work := by
  constructor
  · intro resolved rounds run work rest reached queued
    -- the next round took this item and discharged it
    obtain ⟨next, after, faithful, -⟩ := resolved (rounds + 1)
    have stepped : run.step backend = .ok next := by
      rw [← after, reach, reached]
      rfl
    unfold PublishRun.step at stepped
    rw [queued] at stepped
    dsimp only at stepped
    refine (PublishRun.publishWork_iff rfl).mp ?_
    generalize (run.pop rest).publishWork backend work = outcome at stepped ⊢
    obtain ⟨result, final⟩ := outcome
    cases result with
    | error error => cases stepped
    | ok done =>
      cases stepped
      exact ⟨rfl, faithful.discharged (work, final.calls) (by simp [PublishRun.noteTaken])⟩
  · intro smooth rounds
    induction rounds with
    | zero => exact ⟨_, rfl, PublishRun.start_faithful session effects, .inr rfl⟩
    | succ rounds ih =>
      obtain ⟨run, reached, faithful, advanced⟩ := ih
      obtain ⟨next, stepped, kept⟩ := faithful.step advanced fun work rest queued =>
        smooth rounds run work rest reached queued
      refine ⟨next, ?_, kept⟩
      rw [reach, reached]
      exact stepped

/-! ### A confirmation that fails -/

/-- A transport that accepts every message at one endpoint, and a session that cannot confirm the
first reference. The state is the list of the references that were confirmed. -/
def stubbornBackend : AccountBackend (List Nat) Nat where
  publishTarget := fun _ _ => .ok ()
  publish := fun session msg => (.ok ⟨msg.id, ["relay"], [], 1⟩, session)
  confirmPublished := fun session pending =>
    if pending = 1 then (.error ⟨false, "storage"⟩, session)
    else (.ok ⟨[pending], [], [], []⟩, session ++ [pending])
  publishFailed := fun session pending => (.ok ⟨[], [], [], []⟩, session ++ [pending])

/-- The same, without a reference that cannot be confirmed, and with a transport that is not asked
for acknowledgements and reaches no endpoint. -/
def silentBackend : AccountBackend (List Nat) Nat :=
  { stubbornBackend with
    publish := fun session msg => (.ok ⟨msg.id, [], [], 0⟩, session)
    confirmPublished := fun session pending => (.ok ⟨[], [], [], []⟩, session ++ [pending]) }

def commitMessage (id : String) : TransportMessage := ⟨id, [], [], .groupMessage []⟩

/-- Two commits of two groups, and an event. -/
def twoCommits : SessionEffects Nat :=
  ⟨[7], [.autoPublish (commitMessage "first") 1, .autoPublish (commitMessage "second") 2], [], []⟩

/-- **An obligation is left open.** The commit of the first group is published, but the session cannot
confirm it: the batch ends with an error. The commit of the second group is still in the queue, its
reference is not resolved, and the event that was absorbed is not reported. With a transport that is
not asked for acknowledgements, a commit is confirmed that no endpoint accepted. -/
theorem obligation_left_open :
    publishSessionEffects stubbornBackend 2 [] twoCommits = some (.error ⟨false, "storage"⟩) ∧
    (PublishRun.start ([] : List Nat) twoCommits).output.events = [7] ∧
    (((PublishRun.start [] twoCommits).pop
      [.autoPublish (commitMessage "second") 2]).publishWork stubbornBackend
        (.autoPublish (commitMessage "first") 1)).2.queue =
          [.autoPublish (commitMessage "second") 2] ∧
    (((PublishRun.start [] twoCommits).pop
      [.autoPublish (commitMessage "second") 2]).publishWork stubbornBackend
        (.autoPublish (commitMessage "first") 1)).2.session = [] ∧
    (((PublishRun.start [] twoCommits).pop []).publishWork silentBackend
      (.autoPublish (commitMessage "first") 1)).2.calls =
        [.published (commitMessage "first") false, .settled 1 true] ∧
    ¬ ∀ rounds, ∃ run, reach stubbornBackend [] twoCommits rounds = .ok run ∧ run.Faithful ∧
      run.Advanced rounds := by
  have fails : publishSessionEffects stubbornBackend 1 [] twoCommits =
      some (.error ⟨false, "storage"⟩) := by
    decide +kernel
  refine ⟨by decide +kernel, rfl, by decide +kernel, by decide +kernel, by decide +kernel,
    fun resolved => ?_⟩
  obtain ⟨run, reached, -⟩ := resolved 1
  rw [publishSessionEffects, reached] at fails
  dsimp only at fails
  split_ifs at fails
  cases fails

end Darkmatter
