/-
**Withdrawn messages and the rows of a client.**

The engine withdraws a message by its content id, the digest of the MLS bytes. The rows of a client
name the transport message whose delivery released them, and a withdrawal looks for the row that names
the content id.

* `WireMessage` — a message with the bytes that carried it;
* `AppEvents.clientTrace` — the events that a client handles in a run, with the rows before and after;
* `AppEvents.Released` — where a row comes from: a row that was there, a system row, or a message that
  a step released and that the row names the source of;
* `Withdraws` — one row is withdrawn and no other row changes;
* `withdrawal_reaches_iff` — **a withdrawal reaches its row exactly when the row names the content id**,
  and the row names the source of the step that released the message.
-/

import Darkmatter.Timeline.Client

namespace Darkmatter

open List Option

/-- A message of the engine, with the MLS bytes that carried it. -/
structure WireMessage where
  mlsBytes : Bytes
  groupId : Bytes
  sender : Bytes
  epoch : Nat
  payload : Bytes
deriving DecidableEq, Repr

namespace WireMessage

variable (digest : Bytes → Bytes) (message : WireMessage)

def contentDedupId : Bytes := digest message.mlsBytes

def received : AccountEvent :=
  .messageReceived message.groupId message.sender message.epoch message.payload

def withdrawn (reason : String) : AccountEvent :=
  .appMessageInvalidated message.groupId (message.contentDedupId digest) reason

/-- The row of the message, if it decodes and has one. -/
def row? (codec : EventCodec) (store : AppEvents) : Option AppEventRow :=
  (message.received.message? codec).bind fun received => store.row? received.key

end WireMessage

namespace AppEvents

section Traces

variable (codec : EventCodec)

/-- The events that a step handles, with the rows before and after each. -/
def observeTrace (step : ClientStep) (store : AppEvents) :
    List AccountEvent → List (AppEvents × AccountEvent × AppEvents)
  | [] => []
  | event :: rest =>
    if step.routed event.groupId then
      match observeEvent codec step store event with
      | none => []
      | some after => (store, event, after) :: observeTrace step after rest
    else
      []

/-- A step that is stopped by a failed publication handles nothing, and neither does a drain. -/
def stepTrace (store : AppEvents) (step : ClientStep) : List (AppEvents × AccountEvent × AppEvents) :=
  match step.published, step.kind with
  | none, _ => []
  | _, .drain => []
  | some outcome, _ =>
    if failIfPublishFailed outcome then observeTrace codec step store step.events else []

/-- **The events that a client handles in a run.** -/
def clientTrace (store : AppEvents) : List ClientStep → List (AppEvents × AccountEvent × AppEvents)
  | [] => []
  | step :: rest => stepTrace codec store step ++ clientTrace (clientStep codec store step) rest

end Traces

section Handled

variable {codec : EventCodec} {store before after : AppEvents} {event : AccountEvent}

theorem observeTrace_handled {step : ClientStep} {events : List AccountEvent}
    (handled : (before, event, after) ∈ observeTrace codec step store events) :
    observeEvent codec step before event = some after := by
  induction events generalizing store with
  | nil => cases handled
  | cons first rest ih =>
    rw [observeTrace] at handled
    split_ifs at handled with routed
    · split at handled
      · cases handled
      · rename_i next observed
        obtain here | later := mem_cons.mp handled
        · cases here
          exact observed
        · exact ih later
    · cases handled

/-- **An event of a run is handled by one of its steps.** -/
theorem clientTrace_handled {steps : List ClientStep}
    (handled : (before, event, after) ∈ clientTrace codec store steps) :
    ∃ step ∈ steps, observeEvent codec step before event = some after := by
  induction steps generalizing store with
  | nil => cases handled
  | cons step rest ih =>
    obtain here | later := mem_append.mp handled
    · refine ⟨step, mem_cons_self, ?_⟩
      rw [stepTrace] at here
      split at here
      · cases here
      · cases here
      · split_ifs at here
        · exact observeTrace_handled here
        · cases here
    · obtain ⟨other, listed, observed⟩ := ih later
      exact ⟨other, mem_cons_of_mem step listed, observed⟩

/-! ### Where a row comes from -/

variable (codec) in
/-- **Where the rows of a store come from**: from the keys of an earlier store, from the system rows of
the steps, or from a message that one of the steps released under its source. -/
def Released (steps : List ClientStep) (earlier store : AppEvents) : Prop :=
  ∀ row ∈ store.rows, (earlier.row? row.key).isSome ∨
    (∃ step ∈ steps, ∃ system ∈ step.systemRows codec, system.key = row.key) ∨
    ∃ step ∈ steps, (∃ message ∈ step.released codec, message.key = row.key) ∧
      row.sourceMessageIdHex = some step.sourceMessageIdHex

variable {steps : List ClientStep} {earlier : AppEvents} {step : ClientStep}

theorem Released.refl : Released codec steps store store := fun _ listed =>
  .inl (isSome_of_eq_some (row?_eq_some.mpr ⟨listed, rfl⟩))

variable (released : Released codec steps earlier store) (listed : step ∈ steps)

include released

theorem Released.record {stored : StoredAppEvent}
    (recorded : store.recordAppEvent stored = some after)
    (own : ∀ row : AppEventRow, row.key = stored.key →
      row.sourceMessageIdHex = stored.sourceMessageIdHex →
      (∃ step ∈ steps, ∃ system ∈ step.systemRows codec, system.key = row.key) ∨
      ∃ step ∈ steps, (∃ message ∈ step.released codec, message.key = row.key) ∧
        row.sourceMessageIdHex = some step.sourceMessageIdHex) :
    Released codec steps earlier after := by
  intro row listed
  have found := row?_eq_some.mpr ⟨listed, rfl⟩
  rw [recordAppEvent_row? recorded] at found
  split_ifs at found with same
  · exact .inr (own row same (some.inj found ▸ rfl))
  · exact released row (row?_eq_some.mp found).1

theorem Released.prune (groupId : Bytes) :
    Released codec steps earlier (store.prunePlaintextRetentionForGroup step groupId) := by
  rw [prunePlaintextRetentionForGroup]
  split_ifs
  · exact released
  · exact fun row listed => released row (mem_of_mem_filter listed)

include listed

theorem Released.observeEvent (emitted : event ∈ step.events)
    (observed : observeEvent codec step store event = some after) :
    Released codec steps earlier after := by
  obtain ⟨message, next, found, recorded, rfl⟩ | ⟨_, ⟨picks, reason, rfl⟩ | rfl⟩ :=
    observeEvent_cases observed
  · refine Released.prune (released.record recorded fun row same source => ?_) _
    have sent : message ∈ step.released codec := mem_filterMap.mpr ⟨event, emitted, found⟩
    exact .inr ⟨step, listed, ⟨message, sent, same.symm⟩, source⟩
  · intro row withdrawn
    obtain ⟨was, there, rfl⟩ := mem_map.mp withdrawn
    split_ifs <;> exact released was there
  · exact released

theorem Released.recordSystemRows {rows : List StoredAppEvent}
    (own : rows ⊆ step.systemRows codec) :
    Released codec steps earlier
      (rows.foldl (fun store event => (store.recordAppEvent event).getD store) store) := by
  induction rows generalizing store with
  | nil => exact released
  | cons system rest ih =>
    obtain ⟨here, others⟩ := cons_subset.mp own
    rw [foldl_cons]
    refine ih ?_ others
    cases recorded : store.recordAppEvent system with
    | none => exact released
    | some next =>
      exact released.record recorded fun row same _ =>
        .inl ⟨step, listed, system, here, same.symm⟩

theorem Released.observeEvents {events : List AccountEvent}
    (emitted : ∀ event ∈ events, event ∈ step.events) :
    Released codec steps earlier (observeEvents codec step store events).2 ∧
      ∀ handled ∈ observeTrace codec step store events, Released codec steps earlier handled.1 := by
  induction events generalizing store with
  | nil => exact ⟨released, fun _ none => absurd none not_mem_nil⟩
  | cons event rest ih =>
    rw [forall_mem_cons] at emitted
    rw [AppEvents.observeEvents, observeTrace]
    split_ifs
    · cases observed : AppEvents.observeEvent codec step store event with
      | none => exact ⟨released, fun _ none => absurd none not_mem_nil⟩
      | some next =>
        have later := ih (released.observeEvent listed emitted.1 observed) emitted.2
        exact ⟨later.1, forall_mem_cons.mpr ⟨released, later.2⟩⟩
    · exact ⟨released, fun _ none => absurd none not_mem_nil⟩

theorem Released.observeAccountDeviceEffects :
    Released codec steps earlier (observeAccountDeviceEffects codec step store).2 := by
  have seen := (released.observeEvents listed (fun event emitted => emitted)).1
  rw [AppEvents.observeAccountDeviceEffects]
  dsimp only
  split_ifs
  · exact seen.recordSystemRows listed (Subset.refl _)
  · exact seen

theorem Released.clientStep :
    Released codec steps earlier (clientStep codec store step) := by
  have seen := released.observeAccountDeviceEffects listed
  rw [AppEvents.clientStep]
  split
  · exact released
  · split_ifs
    · split
      · exact released
      · exact seen
      · dsimp only
        split_ifs
        · exact seen.prune _
        · exact seen
    · exact released

theorem Released.stepTrace (handled : (before, event, after) ∈ stepTrace codec store step) :
    Released codec steps earlier before := by
  rw [AppEvents.stepTrace] at handled
  split at handled
  · cases handled
  · cases handled
  · split_ifs at handled
    · exact (released.observeEvents listed (fun event emitted => emitted)).2 _ handled
    · cases handled

omit listed in
/-- **The rows at every event of a run come from the run**, or from the store before it. -/
theorem clientTrace_released {run : List ClientStep} (part : ∀ step ∈ run, step ∈ steps)
    (handled : (before, event, after) ∈ clientTrace codec store run) :
    Released codec steps earlier before := by
  induction run generalizing store with
  | nil => cases handled
  | cons step rest ih =>
    rw [forall_mem_cons] at part
    obtain here | later := mem_append.mp handled
    · exact released.stepTrace part.1 here
    · exact ih (released.clientStep part.1) part.2 later

end Handled

/-! ### Withdrawals -/

def withdrawn? (store : AppEvents) (key : String × String) : Option Bool :=
  (store.row? key).map (·.invalidated)

/-- **A withdrawal of one row**: the row under the key is withdrawn, and no other row changes whether
it is withdrawn. -/
structure Withdraws (key : String × String) (before after : AppEvents) : Prop where
  reached : after.withdrawn? key = some true
  others : ∀ other, other ≠ key → after.withdrawn? other = before.withdrawn? other

section Reaching

variable {before : AppEvents} {key : String × String} {source reason : String} {row : AppEventRow}

theorem invalidateBySource_withdrawn? (stored : before.row? key = some row) :
    (before.invalidateBySource source reason).withdrawn? key =
      some (row.invalidated || decide (row.sourceMessageIdHex = some source)) := by
  rw [withdrawn?, invalidateBySource, invalidateRows_row?, stored, map_some, map_some]
  by_cases named : row.sourceMessageIdHex = some source <;> simp [named]

/-- **A withdrawal by source reaches a row exactly when the row names the source**, or when the row
was withdrawn before and no valid row names it. -/
theorem invalidateBySource_withdraws_iff (stored : before.row? key = some row) :
    Withdraws key before (before.invalidateBySource source reason) ↔
      row.sourceMessageIdHex = some source ∨
        row.invalidated ∧ ∀ other ∈ before.rows, other.sourceMessageIdHex = some source →
          other.invalidated := by
  have own := row?_eq_some.mp stored
  constructor
  · rintro ⟨reached, others⟩
    rw [invalidateBySource_withdrawn? stored] at reached
    by_cases named : row.sourceMessageIdHex = some source
    · exact .inl named
    · rw [decide_eq_false named, Bool.or_false] at reached
      refine .inr ⟨some.inj reached, fun other listed same => ?_⟩
      by_cases here : other.key = key
      · have one := some.inj ((row?_eq_some.mpr ⟨listed, here⟩).symm.trans stored)
        exact absurd (one ▸ same) named
      · have found : before.row? other.key = some other := row?_eq_some.mpr ⟨listed, rfl⟩
        have kept := others other.key here
        rw [invalidateBySource_withdrawn? found, withdrawn?, found, decide_eq_true same,
          Bool.or_true] at kept
        exact (some.inj kept).symm
  · intro condition
    refine ⟨?_, fun other apart => ?_⟩
    · rw [invalidateBySource_withdrawn? stored]
      obtain named | ⟨withdrawn, _⟩ := condition
      · rw [decide_eq_true named, Bool.or_true]
      · rw [withdrawn, Bool.true_or]
    · cases found : before.row? other with
      | none => rw [withdrawn?, invalidateBySource, invalidateRows_row?, withdrawn?, found]; rfl
      | some second =>
        rw [invalidateBySource_withdrawn? found, withdrawn?, found, map_some]
        have listed := row?_eq_some.mp found
        by_cases same : second.sourceMessageIdHex = some source
        · obtain named | ⟨_, all⟩ := condition
          · have one := sourced_eq own.1 listed.1 named same
            exact absurd (listed.2.symm.trans (one ▸ own.2)) apart
          · rw [all second listed.1 same, Bool.true_or]
        · rw [decide_eq_false same, Bool.or_false]

/-- **A withdrawal reaches its row exactly when the row names the content id**: whenever a client
handles the withdrawal of a message that it has a row for, this row is withdrawn and no other row
changes, if and only if the source of the row is the content id of the message (or the row was
withdrawn before, and no valid row names the content id). The source of a row that the run made for a
message is the transport id of the step that released the message. -/
theorem withdrawal_reaches_iff (codec : EventCodec) (digest : Bytes → Bytes) (store : AppEvents)
    (steps : List ClientStep) (message : WireMessage) (before after : AppEvents) (row : AppEventRow)
    (reason : String)
    (handled : (before, message.withdrawn digest reason, after) ∈ clientTrace codec store steps)
    (stored : message.row? codec before = some row) :
    (Withdraws row.key before after ↔
      row.sourceMessageIdHex = some (hexEncode (message.contentDedupId digest)) ∨
        row.invalidated ∧ ∀ other ∈ before.rows,
          other.sourceMessageIdHex = some (hexEncode (message.contentDedupId digest)) →
            other.invalidated) ∧
    (store.row? row.key = none →
      (∀ step ∈ steps, ∀ system ∈ step.systemRows codec, system.key ≠ row.key) →
      ∃ step ∈ steps, (∃ sent ∈ step.released codec, sent.key = row.key) ∧
        row.sourceMessageIdHex = some step.sourceMessageIdHex) := by
  obtain ⟨received, _, found⟩ := bind_eq_some_iff.mp stored
  obtain ⟨listed, own⟩ := row?_eq_some.mp found
  constructor
  · obtain ⟨step, _, observed⟩ := clientTrace_handled handled
    cases observed
    exact invalidateBySource_withdraws_iff (row?_eq_some.mpr ⟨listed, rfl⟩)
  · intro new apart
    have released : Released codec steps store before :=
      clientTrace_released Released.refl (fun _ own => own) handled
    obtain earlier | ⟨step, here, system, made, same⟩ | ⟨step, here, sent⟩ := released row listed
    · rw [new] at earlier
      cases earlier
    · exact absurd same (apart step here system made)
    · exact ⟨step, here, sent⟩

end Reaching

/-! ### A withdrawal that reaches nothing -/

/-- A digest that never repeats. -/
def sampleDigest (bytes : Bytes) : Bytes := 5 :: bytes

def sampleWire : WireMessage := ⟨[2, 2], [7], [1], 3, [2]⟩

/-- The message is delivered alone and withdrawn by a later pass. -/
def withdrawingSteps (transportId : Bytes) : List ClientStep :=
  [sampleStep (.delivery transportId 40) [sampleWire.received] ⟨[], []⟩,
    sampleStep (.convergence [7]) [sampleWire.withdrawn sampleDigest "LosingBranch"] ⟨[], []⟩]

theorem get_handled {trace : List (AppEvents × AccountEvent × AppEvents)} {event : AccountEvent}
    (index : Fin trace.length) (same : (trace.get index).2.1 = event) :
    ((trace.get index).1, event, (trace.get index).2.2) ∈ trace :=
  same ▸ get_mem trace index

/-- **A message that was delivered alone stays valid when it is withdrawn.** -/
theorem withdrawn_row_stays_valid : Function.Injective sampleDigest ∧ ∃ before after,
    (before, sampleWire.withdrawn sampleDigest "LosingBranch", after) ∈
      clientTrace sampleCodec empty (withdrawingSteps [9]) ∧
    (before.row? (hexEncode [7], hexEncode [2])).isSome ∧
    after.withdrawn? (hexEncode [7], hexEncode [2]) = some false ∧
    ¬ Withdraws (hexEncode [7], hexEncode [2]) before after := by
  have valid : ((clientTrace sampleCodec empty (withdrawingSteps [9])).get
      ⟨1, by decide +kernel⟩).2.2.withdrawn? (hexEncode [7], hexEncode [2]) = some false := by
    decide +kernel
  refine ⟨fun _ _ same => (cons.inj same).2, _, _,
    get_handled ⟨1, by decide +kernel⟩ (by decide +kernel), by decide +kernel, valid,
    fun reaches => ?_⟩
  exact absurd (valid.symm.trans reaches.reached) (by decide)

/-- A message whose transport id is its content id is withdrawn. -/
theorem content_named_row_withdrawn : ∃ before after,
    (before, sampleWire.withdrawn sampleDigest "LosingBranch", after) ∈
      clientTrace sampleCodec empty (withdrawingSteps [5, 2, 2]) ∧
    ∃ row, sampleWire.row? sampleCodec before = some row ∧ Withdraws row.key before after ∧
      ∃ step ∈ withdrawingSteps [5, 2, 2], step.released sampleCodec ≠ [] ∧
        row.sourceMessageIdHex = some step.sourceMessageIdHex := by
  have present : (sampleWire.row? sampleCodec
      ((clientTrace sampleCodec empty (withdrawingSteps [5, 2, 2])).get
        ⟨1, by decide +kernel⟩).1).map (·.sourceMessageIdHex) =
      some (some (hexEncode [5, 2, 2])) := by
    decide +kernel
  have event : ((clientTrace sampleCodec empty (withdrawingSteps [5, 2, 2])).get
      ⟨1, by decide +kernel⟩).2.1 = sampleWire.withdrawn sampleDigest "LosingBranch" := by
    decide +kernel
  have handled := get_handled _ event
  obtain ⟨row, stored, source⟩ := map_eq_some_iff.mp present
  obtain ⟨reaches, released⟩ := withdrawal_reaches_iff sampleCodec sampleDigest empty
    (withdrawingSteps [5, 2, 2]) sampleWire _ _ row "LosingBranch" handled stored
  obtain ⟨step, listed, ⟨sent, own, _⟩, named⟩ := released rfl (by
    intro step listed system made
    obtain rfl | rfl := mem_pair.mp listed <;> cases made)
  exact ⟨_, _, handled, row, stored, reaches.mpr (.inl source), step, listed,
    ne_nil_of_mem own, named⟩

end AppEvents

end Darkmatter
