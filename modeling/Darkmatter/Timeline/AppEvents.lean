/-
**The rows of the app events.**

A client keeps one row for every app event, under the group and the id of the inner event. A row may
name the transport message it came from, and no two rows name the same one. Recording an event
replaces the row under its key, or adds one; it is refused when another row names the event's source.

* `AppEvents` — the rows, with the two uniqueness constraints as fields;
* `recordAppEvent` — the upsert; `invalidateBySource`, `invalidateByMessageId` and
  `invalidateByOriginCommit` — the withdrawals;
* `recordAppEvent_row?`, `invalidateRows_row?`, `deleteRows_row?` — **what each leaves under every
  key**.
-/

import Darkmatter.Convergence

namespace Darkmatter

open List Option

/-! ### Rows -/

def chatKind : Nat := 9

def groupSystemKind : Nat := 1210

structure StoredAppEvent where
  groupIdHex : String
  messageIdHex : String
  sourceMessageIdHex : Option String
  sourceEpoch : Option Nat
  direction : String
  sender : String
  plaintext : String
  kind : Nat
  tags : List (List String)
  recordedAt : Nat
  receivedAt : Nat
  originCommitId : Option String
deriving DecidableEq, Repr

structure AppEventRow extends StoredAppEvent where
  invalidated : Bool
  invalidationReason : Option String
deriving DecidableEq, Repr

def StoredAppEvent.key (event : StoredAppEvent) : String × String :=
  (event.groupIdHex, event.messageIdHex)

/-- **The table.** A key has one row, and a source has at most one row. -/
structure AppEvents where
  rows : List AppEventRow
  keyed : rows.Pairwise fun row other => row.key ≠ other.key
  sourced : rows.Pairwise fun row other =>
    row.sourceMessageIdHex.isSome → row.sourceMessageIdHex ≠ other.sourceMessageIdHex

namespace AppEvents

variable (store : AppEvents)

def empty : AppEvents := ⟨[], .nil, .nil⟩

def row? (key : String × String) : Option AppEventRow :=
  store.rows.find? fun row => row.key = key

/-- Another row names the source of the event. -/
def clashes (event : StoredAppEvent) : Bool :=
  store.rows.any fun row => row.key ≠ event.key ∧ row.sourceMessageIdHex.isSome ∧
    row.sourceMessageIdHex = event.sourceMessageIdHex

/-- The row of an event that is recorded over an earlier row. It is valid again, and it keeps the
origin commit of the earlier row unless the event has one. -/
def upserted (event : StoredAppEvent) (earlier : Option AppEventRow) : AppEventRow :=
  { event with
    originCommitId := event.originCommitId.or (earlier.bind (·.originCommitId))
    invalidated := false
    invalidationReason := none }

theorem upserted_key (event : StoredAppEvent) (earlier : Option AppEventRow) :
    (upserted event earlier).key = event.key := rfl

/-- The rows after an event was recorded. -/
def recordedRows (event : StoredAppEvent) : List AppEventRow :=
  if (store.row? event.key).isSome then
    store.rows.map fun row =>
      if row.key = event.key then upserted event (some row) else row
  else
    store.rows ++ [upserted event none]

variable {store} {event : StoredAppEvent}
  {key : String × String} {row : AppEventRow} {source : String} {after : AppEvents}

theorem row?_eq_some : store.row? key = some row ↔ row ∈ store.rows ∧ row.key = key := by
  constructor
  · intro found
    exact ⟨mem_of_find?_eq_some found, by simpa using find?_some found⟩
  · rintro ⟨listed, rfl⟩
    obtain ⟨first, found⟩ := isSome_iff_exists.mp
      (find?_isSome.mpr ⟨row, listed, by simp⟩ :
        (store.rows.find? fun other => other.key = row.key).isSome)
    have same : first.key = row.key := by simpa using find?_some found
    have one : first = row := inj_on_of_nodup_map (pairwise_map.mpr store.keyed)
      (mem_of_find?_eq_some found) listed same
    rw [row?, found, one]

theorem row?_eq_none : store.row? key = none ↔ ∀ row ∈ store.rows, row.key ≠ key := by
  simp [row?, find?_eq_none]

theorem sourced_eq {other : AppEventRow} (here : row ∈ store.rows) (there : other ∈ store.rows)
    (named : row.sourceMessageIdHex = some source) (same : other.sourceMessageIdHex = some source) :
    row = other := by
  by_contra differs
  have symmetric : Std.Symm fun row other : AppEventRow =>
      row.sourceMessageIdHex.isSome → row.sourceMessageIdHex ≠ other.sourceMessageIdHex :=
    ⟨fun _ _ apart someHere equal => apart (equal ▸ someHere) equal.symm⟩
  exact store.sourced.forall here there differs (by rw [named]; rfl) (named.trans same.symm)

theorem clashes_eq_false : store.clashes event = false ↔ ∀ row ∈ store.rows, row.key ≠ event.key →
    row.sourceMessageIdHex.isSome → row.sourceMessageIdHex ≠ event.sourceMessageIdHex := by
  simp [clashes]

theorem found_key (event : StoredAppEvent) (key : String × String) :
    (fun row : AppEventRow => decide (row.key = key)) ∘
      (fun row => if row.key = event.key then upserted event (some row) else row) =
      fun row => decide (row.key = key) := by
  funext row
  simp only [Function.comp_apply]
  split_ifs with same
  · rw [upserted_key, same]
  · rfl

theorem recordedRows_keyed : (store.recordedRows event).Pairwise fun row other =>
    row.key ≠ other.key := by
  rw [recordedRows]
  split_ifs with known
  · refine pairwise_map.mpr (store.keyed.imp fun {row other} apart => ?_)
    have kept : ∀ row : AppEventRow,
        (if row.key = event.key then upserted event (some row) else row).key = row.key := by
      intro row
      split_ifs with same
      · exact same.symm
      · rfl
    rwa [kept, kept]
  · rw [not_isSome_iff_eq_none, row?_eq_none] at known
    refine pairwise_append.mpr ⟨store.keyed, pairwise_singleton _ _, ?_⟩
    intro row listed _ added
    rw [mem_singleton.mp added]
    exact known row listed

theorem recordedRows_sourced (free : store.clashes event = false) :
    (store.recordedRows event).Pairwise fun row other =>
      row.sourceMessageIdHex.isSome → row.sourceMessageIdHex ≠ other.sourceMessageIdHex := by
  rw [clashes_eq_false] at free
  rw [recordedRows]
  split_ifs with known
  · refine pairwise_map.mpr ((store.keyed.and store.sourced).imp_of_mem ?_)
    rintro row other listed listedToo ⟨apart, sources⟩
    split_ifs with here there there
    · exact absurd (here.trans there.symm) apart
    · intro named same
      exact free other listedToo there (same ▸ named) same.symm
    · exact free row listed here
    · exact sources
  · rw [not_isSome_iff_eq_none, row?_eq_none] at known
    refine pairwise_append.mpr ⟨store.sourced, pairwise_singleton _ _, ?_⟩
    intro row listed _ added
    rw [mem_singleton.mp added]
    exact free row listed (known row listed)

/-! ### Operations -/

/-- **Recording an event**: the row under its key is replaced, or a row is added. The source index
refuses the event when another row names its source. -/
def recordAppEvent (store : AppEvents) (event : StoredAppEvent) : Option AppEvents :=
  if free : store.clashes event = false then
    some ⟨store.recordedRows event, recordedRows_keyed, recordedRows_sourced free⟩
  else
    none

/-- The rows that a condition picks are withdrawn. -/
def invalidateRows (store : AppEvents) (picks : AppEventRow → Bool) (reason : String) : AppEvents where
  rows := store.rows.map fun row =>
    if picks row then { row with invalidated := true, invalidationReason := some reason } else row
  keyed := by
    refine pairwise_map.mpr (store.keyed.imp fun {row other} apart => ?_)
    split_ifs <;> exact apart
  sourced := by
    refine pairwise_map.mpr (store.sourced.imp fun {row other} apart => ?_)
    split_ifs <;> exact apart

def invalidateBySource (store : AppEvents) (sourceMessageIdHex reason : String) : AppEvents :=
  store.invalidateRows (fun row => row.sourceMessageIdHex = some sourceMessageIdHex) reason

def invalidateByMessageId (store : AppEvents) (groupIdHex messageIdHex reason : String) : AppEvents :=
  store.invalidateRows (fun row => row.key = (groupIdHex, messageIdHex)) reason

def invalidateByOriginCommit (store : AppEvents) (originCommitId reason : String) : AppEvents :=
  store.invalidateRows (fun row => row.originCommitId = some originCommitId) reason

/-- The rows that a condition picks are deleted. -/
def deleteRows (store : AppEvents) (picks : AppEventRow → Bool) : AppEvents where
  rows := store.rows.filter fun row => !picks row
  keyed := store.keyed.filter _
  sourced := store.sourced.filter _

/-! ### What they leave -/

theorem recordedRows_find? (key : String × String) :
    (store.recordedRows event).find? (fun row => row.key = key) =
      if key = event.key then some (upserted event (store.row? key)) else store.row? key := by
  rw [recordedRows]
  split_ifs with known here here
  · subst here
    obtain ⟨_, found⟩ := isSome_iff_exists.mp known
    rw [find?_map, found_key, ← row?, found, map_some, if_pos (row?_eq_some.mp found).2]
  · rw [find?_map, found_key, ← row?]
    cases found : store.row? key with
    | none => rfl
    | some row => rw [map_some, if_neg fun same => here ((row?_eq_some.mp found).2 ▸ same)]
  · rw [not_isSome_iff_eq_none] at known
    rw [find?_append, ← row?, here, known, none_or]
    simp [upserted_key]
  · have other : ¬ event.key = key := fun same => here same.symm
    rw [find?_append, ← row?]
    simp [upserted_key, other]

/-- **What a recorded event leaves**: its own row, and the rows under the other keys. -/
theorem recordAppEvent_row? (recorded : store.recordAppEvent event = some after)
    (key : String × String) :
    after.row? key = if key = event.key then some (upserted event (store.row? key))
      else store.row? key := by
  rw [recordAppEvent] at recorded
  split_ifs at recorded with free
  cases recorded
  exact recordedRows_find? key

theorem invalidateRows_row? (picks : AppEventRow → Bool) (reason : String) (key : String × String) :
    (store.invalidateRows picks reason).row? key = (store.row? key).map fun row =>
      if picks row then { row with invalidated := true, invalidationReason := some reason }
      else row := by
  rw [row?, row?, invalidateRows, find?_map]
  congr 2
  funext row
  simp only [Function.comp_apply]
  split_ifs <;> rfl

theorem deleteRows_row? (picks : AppEventRow → Bool) (key : String × String) :
    (store.deleteRows picks).row? key = (store.row? key).filter fun row => !picks row := by
  refine ext fun row => ?_
  rw [row?_eq_some, filter_eq_some_iff, row?_eq_some, deleteRows, mem_filter]
  exact and_right_comm

/-- A row names the source. -/
def Names (store : AppEvents) (source : String) : Prop :=
  ∃ row ∈ store.rows, row.sourceMessageIdHex = some source

theorem recordAppEvent_isSome (free : ∀ source ∈ event.sourceMessageIdHex, ¬ store.Names source) :
    (store.recordAppEvent event).isSome := by
  rw [recordAppEvent, dif_pos]
  · rfl
  · rw [clashes_eq_false]
    intro row listed _ named same
    obtain ⟨source, here⟩ := isSome_iff_exists.mp named
    exact free source (same ▸ here) ⟨row, listed, here⟩

theorem recordAppEvent_names (recorded : store.recordAppEvent event = some after)
    (named : after.Names source) : store.Names source ∨ event.sourceMessageIdHex = some source := by
  obtain ⟨row, listed, here⟩ := named
  have found := row?_eq_some.mpr ⟨listed, rfl⟩
  rw [recordAppEvent_row? recorded] at found
  split_ifs at found with same
  · have source : (upserted event (store.row? row.key)).sourceMessageIdHex = some source := by
      rw [some.inj found, here]
    exact .inr source
  · exact .inl ⟨row, (row?_eq_some.mp found).1, here⟩

theorem invalidateRows_names {picks : AppEventRow → Bool} {reason : String}
    (named : (store.invalidateRows picks reason).Names source) : store.Names source := by
  obtain ⟨_, listed, here⟩ := named
  obtain ⟨earlier, was, rfl⟩ := mem_map.mp listed
  refine ⟨earlier, was, ?_⟩
  split_ifs at here <;> exact here

end AppEvents

end Darkmatter
