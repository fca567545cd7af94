/-
**Catching up with the relays.**

A client keeps the ids of the relay events it has seen and a cursor, the latest time of an event. Both
are kept in memory and saved now and then. After a restart, and whenever its routes change, it asks
the relays for the events since the cursor, less an overlap. Between the relays and the client there
is a queue of bounded length that drops what does not fit. An event is noted as seen before it is
ingested, and the cursor moves when it was.

* `SyncState`, `rememberSeenEvent`, `clampedTransportCursor`, `subscriptionRebuildSince` — the state;
* `CatchUp`, `SyncMove`, `CatchUp.perform` — the relays, the queue, the memory and what is saved;
* `nextEvent`, `syncSdkRelay`, `SyncStep` — the two loops of the client, and what else goes on;
* `CatchUp.Excludes` — an event will not be ingested any more;
* `SyncMove.Careful` — what is asked of the times of the events and of the outcomes of ingestion;
* `catch_up_complete` — **in a careful session no event is excluded before it is ingested**.
-/

import Darkmatter.Lib.Program

namespace Darkmatter

open Lib List

/-! ### What a client keeps -/

structure SyncState where
  seenEvents : List String
  lastTransportTimestamp : Option Nat
deriving DecidableEq, Repr

/-- The bounds of the client: the number of ids it keeps, the length of the queue, the overlap of a
new subscription (there may be none, and then all events are asked for), the widening of that overlap
for Welcomes, and how far the cursor may run ahead of the clock. -/
structure SyncLimits where
  maxSeenEventIds : Nat
  accountDeliveryBuffer : Nat
  subscriptionRebuildLookback : Option Nat
  timestampTweakSecs : Nat
  maxFutureSkew : Nat
deriving DecidableEq, Repr

def syncLimits : SyncLimits where
  maxSeenEventIds := 16384
  accountDeliveryBuffer := 1024
  subscriptionRebuildLookback := some 120
  timestampTweakSecs := 172800
  maxFutureSkew := 300

section Sync

variable (limits : SyncLimits)

def pruneSeenEvents (seenEvents : List String) : List String :=
  seenEvents.drop (seenEvents.length - limits.maxSeenEventIds)

def SyncState.rememberSeenEvent (state : SyncState) (eventId : String) : SyncState :=
  if eventId ∈ state.seenEvents then
    state
  else
    { state with seenEvents := pruneSeenEvents limits (state.seenEvents ++ [eventId]) }

/-- The cursor after an event with a time. Both the time and the old cursor are held back to the clock
and the skew. -/
def clampedTransportCursor (current : Option Nat) (candidate now maxFutureSkew : Nat) : Nat :=
  let maxAllowed := now + maxFutureSkew
  let clamped := min candidate maxAllowed
  match current with
  | none => clamped
  | some current => max (min current maxAllowed) clamped

def SyncState.rememberTransportCursor (state : SyncState) (timestamp now : Nat) : SyncState :=
  { state with
    lastTransportTimestamp := some (clampedTransportCursor state.lastTransportTimestamp timestamp
      now limits.maxFutureSkew) }

/-- From when on events are asked for. A cursor in the future is not trusted. -/
def subscriptionRebuildSince (lastTransportTimestamp : Option Nat) (now : Nat) : Option Nat := do
  let lookback ← limits.subscriptionRebuildLookback
  let last ← lastTransportTimestamp
  if now < last then none else some (last - lookback)

def inboxSince (since : Option Nat) : Option Nat :=
  since.map (· - limits.timestampTweakSecs)

/-! ### Relays, queue and client -/

/-- An event of a group, or a Welcome for the inbox, with the time that its sender gave it. -/
structure RelayEvent where
  id : String
  timestamp : Nat
  inbox : Bool
  pubkey : String
deriving DecidableEq, Repr

/-- From when on events of this kind are asked for. -/
def sinceFor (event : RelayEvent) (lastTransportTimestamp : Option Nat) (now : Nat) : Option Nat :=
  let since := subscriptionRebuildSince limits lastTransportTimestamp now
  if event.inbox then inboxSince limits since else since

/-- **The relays, the queue and a client.** There are three histories: the events that were ingested or
that the account published itself, the times that moved the cursor, held back to the clock and the skew,
and whether an ingestion failed since the client was opened. -/
structure CatchUp where
  relay : List RelayEvent
  queue : List RelayEvent
  memory : SyncState
  saved : SyncState
  ingested : List String
  times : List Nat
  failed : Bool
deriving DecidableEq, Repr

/-- How an ingestion ends: it has something to report, or nothing, or it fails before the cursor moves,
or after. -/
inductive IngestResult
  | ingested (reports : Bool)
  | failedBeforeCursor
  | failedAfterCursor
deriving DecidableEq, Repr

def IngestResult.succeeds : IngestResult → Bool
  | .ingested _ => true
  | _ => false

/-- What goes on without the client: an event is posted, or the router hands it over. -/
inductive Traffic
  | post (event : RelayEvent)
  | forward (event : RelayEvent)
deriving DecidableEq, Repr

inductive SyncMove
  | traffic (traffic : Traffic)
  | skip
  | ingest (result : IngestResult) (now : Nat)
  | published (eventIds : List String)
  | saveState
  | restart
deriving DecidableEq, Repr

def isOwnRelayEcho (event : RelayEvent) (localAccountIdHex : String)
    (knownEventIds : List String) : Bool :=
  event.id ∈ knownEventIds && event.pubkey = localAccountIdHex

namespace CatchUp

variable (state : CatchUp)

/-- The router hands an event to the queue of the account, or drops it. -/
def forward (event : RelayEvent) : CatchUp :=
  if event ∈ state.relay ∧ state.queue.length < limits.accountDeliveryBuffer then
    { state with queue := state.queue ++ [event] }
  else
    state

/-- No delivery is there, or a known one. -/
def skips (localAccountIdHex : String) : Bool :=
  match state.queue with
  | [] => true
  | event :: _ =>
    isOwnRelayEcho event localAccountIdHex state.memory.seenEvents ||
      event.id ∈ state.memory.seenEvents

def rememberTransportCursor (timestamp now : Nat) : CatchUp :=
  { state with
    memory := state.memory.rememberTransportCursor limits timestamp now
    times := min timestamp (now + limits.maxFutureSkew) :: state.times }

def ingestDelivery (event : RelayEvent) (result : IngestResult) (now : Nat) : CatchUp :=
  match result with
  | .failedBeforeCursor => { state with failed := true }
  | .failedAfterCursor =>
    { state.rememberTransportCursor limits event.timestamp now with failed := true }
  | .ingested _ =>
    { state.rememberTransportCursor limits event.timestamp now with
      ingested := event.id :: state.ingested }

/-- A delivery is noted as seen and then ingested. -/
def ingest (result : IngestResult) (now : Nat) : CatchUp :=
  match state.queue with
  | [] => state
  | event :: rest =>
    ({ state with
      queue := rest
      memory := state.memory.rememberSeenEvent limits event.id }).ingestDelivery limits event result
        now

/-- The ids of the events that the account published are noted as seen. -/
def rememberPublishedReports (eventIds : List String) : CatchUp :=
  { state with
    memory := eventIds.foldl (fun memory eventId => memory.rememberSeenEvent limits eventId)
      state.memory
    ingested := eventIds ++ state.ingested }

end CatchUp

/-- **A move of the system.** A client that is opened again has what was saved and an empty queue. -/
def CatchUp.perform (move : SyncMove) (state : CatchUp) : CatchUp :=
  match move with
  | .traffic (.post event) => { state with relay := event :: state.relay }
  | .traffic (.forward event) => state.forward limits event
  | .skip => { state with queue := state.queue.tail }
  | .ingest result now => state.ingest limits result now
  | .published eventIds => state.rememberPublishedReports limits eventIds
  | .saveState => { state with saved := state.memory }
  | .restart => { state with memory := state.saved, queue := [], failed := false }

/-! ### The loops of the client -/

abbrev SyncTask := Program CatchUp SyncMove Unit

/-- A round of a loop: what goes on while the client waits, and how the ingestion of the next delivery
would end. -/
structure SyncRound where
  meanwhile : List Traffic
  result : IngestResult
  now : Nat
deriving DecidableEq, Repr

def afterTraffic (next : SyncTask) (meanwhile : List Traffic) : SyncTask :=
  meanwhile.foldr (fun traffic rest => .act (.traffic traffic) rest) next

variable (localAccountIdHex : String)

/-- **The live loop.** It takes deliveries until one has something to report, and saves the state after
each that was ingested. A failed ingestion ends it. -/
def nextEvent : List SyncRound → SyncTask
  | [] => .done ()
  | round :: rest =>
    afterTraffic (.look fun state =>
      if state.skips localAccountIdHex then
        .act .skip (nextEvent rest)
      else
        .act (.ingest round.result round.now) <|
          match round.result with
          | .ingested reports => .act .saveState (if reports then .done () else nextEvent rest)
          | _ => .done ()) round.meanwhile

/-- **The catch-up loop.** It takes deliveries until the queue is silent, and saves the state then. A
failed ingestion ends it, and nothing is saved. -/
def syncSdkRelay : List SyncRound → SyncTask
  | [] => .act .saveState (.done ())
  | round :: rest =>
    afterTraffic (.look fun state =>
      if state.skips localAccountIdHex then
        .act .skip (syncSdkRelay rest)
      else
        .act (.ingest round.result round.now) <|
          if round.result.succeeds then syncSdkRelay rest else .done ()) round.meanwhile

/-- **A step**: a loop of the client, or what goes on beside the loops. -/
inductive SyncStep
  | nextEvent (rounds : List SyncRound)
  | syncSdkRelay (rounds : List SyncRound)
  | other (move : SyncMove)
deriving DecidableEq, Repr

def SyncStep.task : SyncStep → SyncTask
  | .nextEvent rounds => Darkmatter.nextEvent localAccountIdHex rounds
  | .syncSdkRelay rounds => Darkmatter.syncSdkRelay localAccountIdHex rounds
  | .other move => .act move (.done ())

def syncSession : List SyncStep → SyncTask
  | [] => .done ()
  | step :: rest => (step.task localAccountIdHex).bind fun _ => syncSession rest

/-! ### Events that are left behind -/

/-- **An event will not be ingested any more**: the saved state knows its id, or it is older than
what the next subscriptions ask for, without a restart or after one. -/
def CatchUp.Excludes (state : CatchUp) (event : RelayEvent) (now : Nat) : Prop :=
  event.id ∈ state.saved.seenEvents ∨
    (∃ since ∈ sinceFor limits event state.memory.lastTransportTimestamp now,
      event.timestamp < since) ∨
    ∃ since ∈ sinceFor limits event state.saved.lastTransportTimestamp now, event.timestamp < since

/-- Only events that were ingested are excluded. -/
def CatchUp.Complete (state : CatchUp) : Prop :=
  ∀ event ∈ state.relay, event.id ∉ state.ingested → ∀ now, ¬ state.Excludes limits event now

/-- How far back a new subscription reaches. -/
def SyncLimits.overlap (event : RelayEvent) : Option Nat :=
  limits.subscriptionRebuildLookback.map
    (· + if event.inbox then limits.timestampTweakSecs else 0)

/-- Subscriptions from a time on, less the overlap, reach the event. -/
def StillAsked (time : Nat) (event : RelayEvent) : Prop :=
  ∀ overlap ∈ limits.overlap event, time ≤ event.timestamp + overlap

instance decidableStillAsked (time : Nat) (event : RelayEvent) :
    Decidable (StillAsked limits time event) :=
  inferInstanceAs (Decidable (∀ overlap ∈ limits.overlap event, time ≤ event.timestamp + overlap))

/-- **What is asked of the times of the events and of the outcomes of ingestion.** An event is posted
with a time that is at most the overlap behind the times that moved the cursor. The time of a delivery
that moves it is at most the overlap ahead of every event that was not ingested. The state is saved when
no ingestion failed since the client was opened. -/
def SyncMove.Careful (state : CatchUp) : SyncMove → Prop
  | .traffic (.post event) => ∀ time ∈ state.times, StillAsked limits time event
  | .ingest result now => ∀ event ∈ state.queue.head?, result ≠ .failedBeforeCursor →
    ∀ other ∈ state.relay, other.id ∉ state.ingested → (result.succeeds → other.id ≠ event.id) →
      StillAsked limits (min event.timestamp (now + limits.maxFutureSkew)) other
  | .saveState => state.failed = false
  | _ => True

instance SyncMove.decidableCareful (state : CatchUp) (move : SyncMove) :
    Decidable (move.Careful limits state) := by
  unfold SyncMove.Careful
  split <;> infer_instance

/-! ### No event is left behind -/

/-- A cursor was moved there by the time of an event. -/
def CatchUp.Moved (state : CatchUp) (cursor : Option Nat) : Prop :=
  ∀ last ∈ cursor, ∃ time ∈ state.times, last ≤ time

/-- **What careful moves keep**: what is saved as seen was ingested, the cursors are behind the times
that moved them, and these reach every event that was not ingested. -/
structure CatchUp.Sound (state : CatchUp) : Prop where
  saved : state.saved.seenEvents ⊆ state.ingested
  memory : state.failed = false → state.memory.seenEvents ⊆ state.ingested
  cursor : state.Moved state.memory.lastTransportTimestamp
  savedCursor : state.Moved state.saved.lastTransportTimestamp
  reached : ∀ event ∈ state.relay, event.id ∉ state.ingested → ∀ time ∈ state.times,
    StillAsked limits time event

variable {limits localAccountIdHex} {state : CatchUp} {event : RelayEvent}

theorem StillAsked.asks {last : Option Nat} (reaches : ∀ cursor ∈ last, StillAsked limits cursor event)
    {now since : Nat} (asked : since ∈ sinceFor limits event last now) : since ≤ event.timestamp := by
  have plain : ∀ first, subscriptionRebuildSince limits last now = some first →
      ∃ lookback ∈ limits.subscriptionRebuildLookback, ∃ cursor ∈ last, first = cursor - lookback ∧
        cursor ≤ event.timestamp +
          (lookback + if event.inbox then limits.timestampTweakSecs else 0) := by
    intro first asked
    simp only [subscriptionRebuildSince, Option.bind_eq_bind, Option.bind_eq_some_iff] at asked
    obtain ⟨lookback, known, cursor, here, asked⟩ := asked
    split_ifs at asked
    refine ⟨lookback, known, cursor, here, (Option.some.inj asked).symm, ?_⟩
    refine reaches cursor here _ ?_
    rw [SyncLimits.overlap, known]
    rfl
  unfold sinceFor inboxSince at asked
  dsimp only at asked
  split_ifs at asked with inbox
  · obtain ⟨first, wide, rfl⟩ := Option.map_eq_some_iff.mp asked
    obtain ⟨lookback, _, cursor, _, rfl, reach⟩ := plain first wide
    rw [if_pos inbox] at reach
    omega
  · obtain ⟨lookback, _, cursor, _, rfl, reach⟩ := plain since asked
    rw [if_neg inbox] at reach
    omega

theorem CatchUp.Sound.complete (sound : state.Sound limits) : state.Complete limits := by
  intro event listed waits now
  have reaches {cursor : Option Nat} (moved : state.Moved cursor) (last : Nat)
      (here : last ∈ cursor) : StillAsked limits last event := by
    obtain ⟨time, known, behind⟩ := moved last here
    intro overlap within
    exact behind.trans (sound.reached event listed waits time known overlap within)
  rintro (saved | ⟨since, asked, older⟩ | ⟨since, asked, older⟩)
  · exact waits (sound.saved saved)
  · exact absurd (StillAsked.asks (reaches sound.cursor) asked) (by omega)
  · exact absurd (StillAsked.asks (reaches sound.savedCursor) asked) (by omega)

/-! ### Moves -/

theorem rememberSeenEvent_subset (memory : SyncState) (eventId : String) :
    (memory.rememberSeenEvent limits eventId).seenEvents ⊆ eventId :: memory.seenEvents := by
  unfold SyncState.rememberSeenEvent
  split_ifs
  · exact subset_cons_self _ _
  · intro other member
    rw [mem_cons, or_comm, ← mem_singleton, ← mem_append]
    exact mem_of_mem_drop member

theorem rememberSeenEvent_cursor (memory : SyncState) (eventId : String) :
    (memory.rememberSeenEvent limits eventId).lastTransportTimestamp =
      memory.lastTransportTimestamp := by
  unfold SyncState.rememberSeenEvent
  split_ifs <;> rfl

theorem rememberPublished (memory : SyncState) (eventIds : List String) :
    (eventIds.foldl (fun memory eventId => memory.rememberSeenEvent limits eventId)
        memory).lastTransportTimestamp = memory.lastTransportTimestamp ∧
      (eventIds.foldl (fun memory eventId => memory.rememberSeenEvent limits eventId)
        memory).seenEvents ⊆ eventIds ++ memory.seenEvents := by
  induction eventIds generalizing memory with
  | nil => exact ⟨rfl, Subset.refl _⟩
  | cons eventId rest ih =>
    obtain ⟨cursor, seen⟩ := ih (memory.rememberSeenEvent limits eventId)
    refine ⟨cursor.trans (rememberSeenEvent_cursor _ _), fun other member => ?_⟩
    rcases mem_append.mp (seen member) with later | known
    · exact mem_cons_of_mem _ (mem_append_left _ later)
    · rcases mem_cons.mp (rememberSeenEvent_subset _ _ known) with rfl | old
      · exact mem_cons_self
      · exact mem_cons_of_mem _ (mem_append_right _ old)

/-- The cursor after an event is at most the old one or the time of the event. -/
theorem CatchUp.Moved.cursor {timestamp now : Nat}
    (moved : state.Moved state.memory.lastTransportTimestamp) :
    (state.rememberTransportCursor limits timestamp now).Moved
      (state.memory.rememberTransportCursor limits timestamp now).lastTransportTimestamp := by
  rintro _ ⟨⟩
  unfold clampedTransportCursor
  dsimp only
  split
  · exact ⟨_, mem_cons_self, le_rfl⟩
  · rename_i current before
    obtain ⟨time, known, behind⟩ := moved current before
    rcases le_total (min current (now + limits.maxFutureSkew))
        (min timestamp (now + limits.maxFutureSkew)) with later | earlier
    · exact ⟨_, mem_cons_self, (max_eq_right later).le⟩
    · refine ⟨time, mem_cons_of_mem _ known, ?_⟩
      rw [max_eq_left earlier]
      exact (min_le_left _ _).trans behind

/-- **A careful move keeps the state sound.** -/
theorem CatchUp.Sound.perform {move : SyncMove} (careful : move.Careful limits state)
    (sound : state.Sound limits) : (state.perform limits move).Sound limits := by
  obtain ⟨saved, memory, cursor, savedCursor, reached⟩ := sound
  cases move with
  | traffic traffic =>
    cases traffic with
    | post event =>
      refine ⟨saved, memory, cursor, savedCursor, fun other listed waits time known => ?_⟩
      rcases mem_cons.mp listed with rfl | old
      · exact careful time known
      · exact reached other old waits time known
    | forward event =>
      rw [CatchUp.perform, CatchUp.forward]
      split_ifs <;> exact ⟨saved, memory, cursor, savedCursor, reached⟩
  | skip => exact ⟨saved, memory, cursor, savedCursor, reached⟩
  | ingest result now =>
    rw [CatchUp.perform, CatchUp.ingest]
    split
    · exact ⟨saved, memory, cursor, savedCursor, reached⟩
    rename_i event rest queued
    have seen := @rememberSeenEvent_subset limits state.memory event.id
    have same := @rememberSeenEvent_cursor limits state.memory event.id
    have stays : ∀ last ∈ state.saved.lastTransportTimestamp, ∃ time ∈
        min event.timestamp (now + limits.maxFutureSkew) :: state.times, last ≤ time := by
      intro last here
      obtain ⟨time, known, behind⟩ := savedCursor last here
      exact ⟨time, mem_cons_of_mem _ known, behind⟩
    have moves (moves : result ≠ .failedBeforeCursor) (other : RelayEvent)
        (listed : other ∈ state.relay) (waits : other.id ∉ state.ingested)
        (apart : result.succeeds → other.id ≠ event.id) :
        ∀ time ∈ min event.timestamp (now + limits.maxFutureSkew) :: state.times,
          StillAsked limits time other := by
      intro time known
      rcases mem_cons.mp known with rfl | old
      · exact careful event (by rw [queued]; rfl) moves other listed waits apart
      · exact reached other listed waits time old
    have moved : (CatchUp.rememberTransportCursor limits { state with
        queue := rest
        memory := state.memory.rememberSeenEvent limits event.id } event.timestamp now).Moved
          ((state.memory.rememberSeenEvent limits event.id).rememberTransportCursor limits
            event.timestamp now).lastTransportTimestamp :=
      CatchUp.Moved.cursor (by rw [same]; exact cursor)
    cases result with
    | failedBeforeCursor =>
      refine ⟨saved, by rintro ⟨⟩, ?_, savedCursor, reached⟩
      rw [CatchUp.ingestDelivery, same]
      exact cursor
    | failedAfterCursor =>
      exact ⟨saved, by rintro ⟨⟩, moved, stays, fun other listed waits =>
        moves (by simp) other listed waits (by simp [IngestResult.succeeds])⟩
    | ingested =>
      refine ⟨fun id known => mem_cons_of_mem _ (saved known), fun fine id known => ?_, moved, stays,
        fun other listed waits => ?_⟩
      · exact cons_subset_cons _ (memory fine) (seen known)
      · obtain ⟨apart, old⟩ := not_or.mp (mem_cons.not.mp waits)
        exact moves (by simp) other listed old fun _ => apart
  | published eventIds =>
    obtain ⟨same, seen⟩ := @rememberPublished limits state.memory eventIds
    refine ⟨fun id known => mem_append_right _ (saved known), fun fine id known => ?_, ?_, savedCursor,
      fun other listed waits => reached other listed fun old => waits (mem_append_right _ old)⟩
    · rcases mem_append.mp (seen known) with own | old
      · exact mem_append_left _ own
      · exact mem_append_right _ (memory fine old)
    · rw [CatchUp.perform, CatchUp.rememberPublishedReports, same]
      exact cursor
  | saveState => exact ⟨memory careful, memory, cursor, cursor, reached⟩
  | restart => exact ⟨saved, fun _ => saved, savedCursor, savedCursor, reached⟩

/-- A client that has seen nothing. -/
def CatchUp.fresh (relay : List RelayEvent) : CatchUp :=
  ⟨relay, [], ⟨[], none⟩, ⟨[], none⟩, [], [], false⟩

/-- **In a careful session no event is excluded before it is ingested**: before every move, and at the
end. -/
theorem catch_up_complete (relay : List RelayEvent) (steps : List SyncStep)
    (careful : ∀ move ∈ (syncSession localAccountIdHex steps).trace (CatchUp.perform limits)
      (.fresh relay), move.2.Careful limits move.1) :
    (∀ move ∈ (syncSession localAccountIdHex steps).trace (CatchUp.perform limits) (.fresh relay),
        move.1.Complete limits) ∧
      ((syncSession localAccountIdHex steps).run (CatchUp.perform limits)
        (.fresh relay)).2.Complete limits := by
  have begins : (CatchUp.fresh relay).Sound limits :=
    ⟨Subset.refl _, fun _ => Subset.refl _, by rintro _ ⟨⟩, by rintro _ ⟨⟩,
      fun _ _ _ _ known => absurd known not_mem_nil⟩
  have meets : (syncSession localAccountIdHex steps).Meets (CatchUp.perform limits)
      (fun state move => move.Careful limits state) (fun _ _ => True) (.fresh relay) :=
    Program.meets_iff.mpr ⟨careful, trivial⟩
  obtain ⟨before, ended, _⟩ := Program.meets_iff.mp <|
    meets.invariant (fun state => state.Sound limits) begins
      fun state move sound careful => sound.perform careful
  exact ⟨fun move member => (before move member).1.complete, ended.complete⟩

end Sync

/-! ### Events that are left behind, with the bounds of the code -/

def failedEvent : RelayEvent := ⟨"failed", 1000, false, "bob"⟩

def laterEvent : RelayEvent := ⟨"later", 1010, false, "bob"⟩

def earlyEvent : RelayEvent := ⟨"early", 100, false, "bob"⟩

/-- The state after a session of a client that has seen nothing. -/
def aliceAfter (relay : List RelayEvent) (steps : List SyncStep) : CatchUp :=
  ((syncSession "alice" steps).run (CatchUp.perform syncLimits) (.fresh relay)).2

/-- An event fails to be ingested in a catch-up; then another one arrives and is ingested. -/
def failedThenLater : CatchUp :=
  aliceAfter [failedEvent, laterEvent]
    [.syncSdkRelay [⟨[.forward failedEvent], .failedBeforeCursor, 1000⟩],
      .nextEvent [⟨[.forward laterEvent], .ingested true, 1010⟩]]

/-- An event is ingested before an earlier one was handed over. -/
def passedOver : CatchUp :=
  aliceAfter [earlyEvent, laterEvent] [.nextEvent [⟨[.forward laterEvent], .ingested true, 1010⟩]]

/-- **Events are left behind.** An ingestion failed, and the next one that succeeds saves the id of the
failed event as seen. An event was ingested, and the cursor has moved past an earlier one. -/
theorem events_left_behind :
    (failedThenLater.ingested = ["later"] ∧ "failed" ∈ failedThenLater.saved.seenEvents ∧
      ¬ failedThenLater.Complete syncLimits) ∧
    passedOver.ingested = ["later"] ∧
      sinceFor syncLimits earlyEvent passedOver.saved.lastTransportTimestamp 1010 = some 890 ∧
      ¬ passedOver.Complete syncLimits := by
  have failed : failedThenLater.ingested = ["later"] := by decide +kernel
  have seen : "failed" ∈ failedThenLater.saved.seenEvents := by decide +kernel
  have passed : passedOver.ingested = ["later"] := by decide +kernel
  have since : sinceFor syncLimits earlyEvent passedOver.saved.lastTransportTimestamp 1010 =
      some 890 := by decide +kernel
  refine ⟨⟨failed, seen, fun complete => ?_⟩, passed, since, fun complete => ?_⟩
  · exact complete failedEvent (by decide +kernel) (by rw [failed]; decide) 1010 (.inl seen)
  · exact complete earlyEvent (by decide +kernel) (by rw [passed]; decide) 1010
      (.inr (.inr ⟨890, since, by decide⟩))

/-- An ingestion fails and the client is opened again; then a later event and the failed one are
ingested. -/
def carefulSteps : List SyncStep :=
  [.other (.traffic (.post laterEvent)),
    .syncSdkRelay [⟨[.forward failedEvent], .failedBeforeCursor, 1000⟩], .other .restart,
    .nextEvent [⟨[.forward laterEvent, .forward failedEvent], .ingested false, 1010⟩,
      ⟨[], .ingested true, 1011⟩]]

theorem careful_catch_up :
    (aliceAfter [failedEvent] carefulSteps).saved.seenEvents = ["later", "failed"] ∧
      (aliceAfter [failedEvent] carefulSteps).Complete syncLimits :=
  ⟨by decide +kernel, (catch_up_complete [failedEvent] carefulSteps (by decide +kernel)).2⟩

end Darkmatter
