/-
**Group snapshots in the account store.**

The account store keeps the groups of a client in shared tables: message and intent rows have ids that
are unique over all groups, the OpenMLS values have storage keys of their own, and the other tables are
keyed by the group. A snapshot is a row of its own, with all data of one group; a rollback deletes the
group's rows and inserts those of the snapshot in one transaction.

* `AccountStore`, `AccountStore.Operation` — the tables, and the operations on them;
* `AccountStore.groupData` — the data of a group that a snapshot holds;
* `AccountStore.Operation.replaces` — the operations that take a snapshot's place;
* `rollback_exact` — **a rollback restores the data of the group** and touches nothing else; if it
  fails, it changes nothing.
-/

import Darkmatter.Lib.Table
import Darkmatter.Projection.Stored

namespace Darkmatter

open Std Lib Function Option

/-! ### The tables -/

/-- An intent with the group it is queued for. -/
structure QueuedRow where
  groupId : String
  queued : QueuedOutboundIntent
deriving DecidableEq, Repr

/-- A value of OpenMLS. The group key is the serialized group id. -/
structure OpenMlsValue where
  label : Bytes
  groupKey : Option String
  value : Bytes
deriving DecidableEq, Repr

/-- **What a snapshot holds.** -/
structure StoredSnapshot (Record Capabilities : Type) where
  group : Record
  messages : List (Nat × MessageRecord)
  queuedOutbound : List (Nat × QueuedRow)
  memberCaps : List (String × Capabilities)
  convergencePolicy : Option Bytes
  validatedTreeMarker : Option Bytes
  openmlsValues : List (Bytes × OpenMlsValue)

/-- **The account store.** Message and intent rows are kept under their insertion order; the columns
beside the record are those of the record. The tables whose keys begin with the group are split by
group. -/
structure AccountStore (Record Capabilities : Type) where
  groups : String → Option Record
  messages : Table Nat MessageRecord
  lastMessageOrder : Nat
  queuedOutbound : Table Nat QueuedRow
  lastQueuedOrder : Nat
  memberCapabilities : String → Table String Capabilities
  convergencePolicies : String → Option Bytes
  validatedTreeMarkers : String → Option Bytes
  openmlsValues : Table Bytes OpenMlsValue
  snapshots : String → Table String (StoredSnapshot Record Capabilities)

inductive StorageError
  | notFound
  | snapshotMissing (name : String)
  | backend
deriving DecidableEq, Repr

namespace AccountStore

variable {Record Capabilities : Type} (store : AccountStore Record Capabilities)

/-! ### Operations -/

/-- The outcome of an operation; one that fails leaves the store as it was. -/
abbrev Outcome (Record Capabilities : Type) : Type :=
  Except StorageError Unit × AccountStore Record Capabilities

def putGroup (groupId : String) (record : Record) : AccountStore Record Capabilities :=
  { store with groups := update store.groups groupId (some record) }

/-- The rows of a group go with it. -/
def deleteGroup (groupId : String) : Outcome Record Capabilities :=
  match store.groups groupId with
  | none => (.error .notFound, store)
  | some _ =>
    (.ok (),
      { store with
        groups := update store.groups groupId none
        messages := store.messages.filter fun _ record => record.groupId != groupId
        queuedOutbound := store.queuedOutbound.filter fun _ row => row.groupId != groupId
        memberCapabilities := update store.memberCapabilities groupId ∅
        convergencePolicies := update store.convergencePolicies groupId none
        validatedTreeMarkers := update store.validatedTreeMarkers groupId none
        openmlsValues := store.openmlsValues.filter fun _ value => value.groupKey != some groupId
        snapshots := update store.snapshots groupId ∅ })

variable (id : String)

/-- The insertion order of the row with an id. -/
def messageOrder : Option Nat :=
  (store.messages.toList.find? fun entry => entry.2.id == id).map Prod.fst

/-- A row of a message; a row under the same id is taken over, also from another group. -/
def putMessage (record : MessageRecord) : Outcome Record Capabilities :=
  match store.groups record.groupId with
  | none => (.error .backend, store)
  | some _ =>
    match store.messageOrder record.id with
    | some order => (.ok (), { store with messages := store.messages.insert order record })
    | none =>
      (.ok (),
        { store with
          messages := store.messages.insert (store.lastMessageOrder + 1) record
          lastMessageOrder := store.lastMessageOrder + 1 })

def updateMessageState (state : MessageState) : Outcome Record Capabilities :=
  match store.messages.toList.find? fun entry => entry.2.id == id with
  | none => (.error .notFound, store)
  | some (order, record) =>
    (.ok (), { store with messages := store.messages.insert order { record with state } })

def queuedOrder : Option Nat :=
  (store.queuedOutbound.toList.find? fun entry => entry.2.queued.id == id).map Prod.fst

def putQueuedOutboundIntent (row : QueuedRow) : Outcome Record Capabilities :=
  match store.groups row.groupId with
  | none => (.error .backend, store)
  | some _ =>
    match store.queuedOrder row.queued.id with
    | some order => (.ok (), { store with queuedOutbound := store.queuedOutbound.insert order row })
    | none =>
      (.ok (),
        { store with
          queuedOutbound := store.queuedOutbound.insert (store.lastQueuedOrder + 1) row
          lastQueuedOrder := store.lastQueuedOrder + 1 })

def deleteQueuedOutboundIntent : Outcome Record Capabilities :=
  match store.queuedOrder id with
  | none => (.error .notFound, store)
  | some order => (.ok (), { store with queuedOutbound := store.queuedOutbound.erase order })

/-- A row of a table that is keyed by the group: the group must be there. -/
def writeForGroup (groupId : String) (written : AccountStore Record Capabilities) :
    Outcome Record Capabilities :=
  match store.groups groupId with
  | none => (.error .backend, store)
  | some _ => (.ok (), written)

def saveMemberCapabilities (groupId memberId : String) (capabilities : Capabilities) :
    Outcome Record Capabilities :=
  store.writeForGroup groupId
    { store with
      memberCapabilities := update store.memberCapabilities groupId
        ((store.memberCapabilities groupId).insert memberId capabilities) }

def putConvergencePolicy (groupId : String) (policy : Bytes) : Outcome Record Capabilities :=
  store.writeForGroup groupId
    { store with
      convergencePolicies := update store.convergencePolicies groupId (some policy) }

def putValidatedTreeMarker (groupId : String) (marker : Bytes) : Outcome Record Capabilities :=
  store.writeForGroup groupId
    { store with
      validatedTreeMarkers := update store.validatedTreeMarkers groupId (some marker) }

def writeValue (storageKey : Bytes) (value : OpenMlsValue) : AccountStore Record Capabilities :=
  { store with openmlsValues := store.openmlsValues.insert storageKey value }

def deleteValue (storageKey : Bytes) : AccountStore Record Capabilities :=
  { store with openmlsValues := store.openmlsValues.erase storageKey }

/-! ### Snapshots -/

/-- Whose a row is. -/
def ownsMessage (groupId : String) (_ : Nat) (record : MessageRecord) : Bool :=
  record.groupId == groupId

def ownsQueued (groupId : String) (_ : Nat) (row : QueuedRow) : Bool :=
  row.groupId == groupId

def ownsValue (groupId : String) (_ : Bytes) (value : OpenMlsValue) : Bool :=
  value.groupKey == some groupId

def capture (group : Record) (groupId : String) : StoredSnapshot Record Capabilities where
  group
  messages := (store.messages.filter (ownsMessage groupId)).toList
  queuedOutbound := (store.queuedOutbound.filter (ownsQueued groupId)).toList
  memberCaps := (store.memberCapabilities groupId).toList
  convergencePolicy := store.convergencePolicies groupId
  validatedTreeMarker := store.validatedTreeMarkers groupId
  openmlsValues := (store.openmlsValues.filter (ownsValue groupId)).toList

/-- The data of a group is captured, under a name. -/
def createGroupSnapshot (groupId name : String) : Outcome Record Capabilities :=
  match store.groups groupId with
  | none => (.error .notFound, store)
  | some group =>
    (.ok (),
      { store with
        snapshots := update store.snapshots groupId
          ((store.snapshots groupId).insert name (store.capture group groupId)) })

/-- The order that is counted on from after rows with given orders were inserted. -/
def lastOrder {Row : Type} (last : Nat) (entries : List (Nat × Row)) : Nat :=
  entries.foldl (fun last entry => max last entry.1) last

/-- **The statements of a rollback**: the group's rows are deleted and those of the snapshot inserted,
table by table. An id or a key that another group has by now makes an insertion fail. -/
def restore (groupId : String) (snapshot : StoredSnapshot Record Capabilities) :
    Option (AccountStore Record Capabilities) := do
  let messages ← replaceRows (ownsMessage groupId) (fun row new => row.id == new.id)
    store.messages snapshot.messages
  let queuedOutbound ← replaceRows (ownsQueued groupId) (fun row new => row.queued.id == new.queued.id)
    store.queuedOutbound snapshot.queuedOutbound
  let memberCapabilities ← replaceRows (fun _ _ => true) (fun _ _ => false)
    (store.memberCapabilities groupId) snapshot.memberCaps
  let openmlsValues ← replaceRows (ownsValue groupId) (fun _ _ => false)
    store.openmlsValues snapshot.openmlsValues
  return { store with
    groups := update store.groups groupId (some snapshot.group)
    messages
    lastMessageOrder := lastOrder store.lastMessageOrder snapshot.messages
    queuedOutbound
    lastQueuedOrder := lastOrder store.lastQueuedOrder snapshot.queuedOutbound
    memberCapabilities := update store.memberCapabilities groupId memberCapabilities
    convergencePolicies :=
      update store.convergencePolicies groupId snapshot.convergencePolicy
    validatedTreeMarkers :=
      update store.validatedTreeMarkers groupId snapshot.validatedTreeMarker
    openmlsValues }

def rollbackGroupToSnapshot (groupId name : String) : Outcome Record Capabilities :=
  match (store.snapshots groupId)[name]? with
  | none => (.error (.snapshotMissing name), store)
  | some snapshot =>
    match store.restore groupId snapshot with
    | none => (.error .backend, store)
    | some restored => (.ok (), restored)

def releaseGroupSnapshot (groupId name : String) : Outcome Record Capabilities :=
  match (store.snapshots groupId)[name]? with
  | none => (.error (.snapshotMissing name), store)
  | some _ =>
    (.ok (),
      { store with
        snapshots := update store.snapshots groupId
          ((store.snapshots groupId).erase name) })

/-! ### Sequences of operations -/

inductive Operation (Record Capabilities : Type)
  | putGroup (groupId : String) (record : Record)
  | deleteGroup (groupId : String)
  | putMessage (record : MessageRecord)
  | updateMessageState (id : String) (state : MessageState)
  | putQueuedOutboundIntent (row : QueuedRow)
  | deleteQueuedOutboundIntent (id : String)
  | saveMemberCapabilities (groupId memberId : String) (capabilities : Capabilities)
  | putConvergencePolicy (groupId : String) (policy : Bytes)
  | putValidatedTreeMarker (groupId : String) (marker : Bytes)
  | writeValue (storageKey : Bytes) (value : OpenMlsValue)
  | deleteValue (storageKey : Bytes)
  | createGroupSnapshot (groupId name : String)
  | rollbackGroupToSnapshot (groupId name : String)
  | releaseGroupSnapshot (groupId name : String)

def apply : Operation Record Capabilities → Outcome Record Capabilities
  | .putGroup groupId record => (.ok (), store.putGroup groupId record)
  | .deleteGroup groupId => store.deleteGroup groupId
  | .putMessage record => store.putMessage record
  | .updateMessageState id state => store.updateMessageState id state
  | .putQueuedOutboundIntent row => store.putQueuedOutboundIntent row
  | .deleteQueuedOutboundIntent id => store.deleteQueuedOutboundIntent id
  | .saveMemberCapabilities groupId memberId capabilities =>
    store.saveMemberCapabilities groupId memberId capabilities
  | .putConvergencePolicy groupId policy => store.putConvergencePolicy groupId policy
  | .putValidatedTreeMarker groupId marker => store.putValidatedTreeMarker groupId marker
  | .writeValue storageKey value => (.ok (), store.writeValue storageKey value)
  | .deleteValue storageKey => (.ok (), store.deleteValue storageKey)
  | .createGroupSnapshot groupId name => store.createGroupSnapshot groupId name
  | .rollbackGroupToSnapshot groupId name => store.rollbackGroupToSnapshot groupId name
  | .releaseGroupSnapshot groupId name => store.releaseGroupSnapshot groupId name

def run (operations : List (Operation Record Capabilities)) : AccountStore Record Capabilities :=
  operations.foldl (fun store operation => (store.apply operation).2) store

/-- A snapshot is created again or released. -/
def Operation.replaces (groupId name : String) : Operation Record Capabilities → Bool
  | .createGroupSnapshot other otherName | .releaseGroupSnapshot other otherName =>
    other == groupId && otherName == name
  | _ => false

/-- **The data of a group that a snapshot holds**, with the order of messages and intents. -/
structure GroupData (Record Capabilities : Type) where
  group : Option Record
  messages : List (Nat × MessageRecord)
  queuedOutbound : List (Nat × QueuedRow)
  memberCaps : Table String Capabilities
  convergencePolicy : Option Bytes
  validatedTreeMarker : Option Bytes
  openmlsValues : List (Bytes × OpenMlsValue)

def groupData (groupId : String) : GroupData Record Capabilities where
  group := store.groups groupId
  messages := (store.messages.filter (ownsMessage groupId)).toList
  queuedOutbound := (store.queuedOutbound.filter (ownsQueued groupId)).toList
  memberCaps := store.memberCapabilities groupId
  convergencePolicy := store.convergencePolicies groupId
  validatedTreeMarker := store.validatedTreeMarkers groupId
  openmlsValues := (store.openmlsValues.filter (ownsValue groupId)).toList

/-- The OpenMLS values that belong to no group. -/
def sharedValues : List (Bytes × OpenMlsValue) :=
  (store.openmlsValues.filter fun _ value => value.groupKey == none).toList

/-! ### What happens to a snapshot -/

section Kept

variable {store} {groupId name : String}

theorem restore_snapshots {snapshot : StoredSnapshot Record Capabilities}
    {restored : AccountStore Record Capabilities}
    (isRestored : store.restore groupId snapshot = some restored) :
    restored.snapshots = store.snapshots := by
  rw [restore] at isRestored
  obtain ⟨_, _, isRestored⟩ := bind_eq_some_iff.mp isRestored
  obtain ⟨_, _, isRestored⟩ := bind_eq_some_iff.mp isRestored
  obtain ⟨_, _, isRestored⟩ := bind_eq_some_iff.mp isRestored
  obtain ⟨_, _, isRestored⟩ := bind_eq_some_iff.mp isRestored
  cases isRestored
  rfl

theorem rollback_snapshots (store : AccountStore Record Capabilities) (groupId name : String) :
    (store.rollbackGroupToSnapshot groupId name).2.snapshots = store.snapshots := by
  rw [rollbackGroupToSnapshot]
  cases (store.snapshots groupId)[name]? with
  | none => rfl
  | some snapshot =>
    dsimp only
    cases restored : store.restore groupId snapshot with
    | none => rfl
    | some => exact restore_snapshots restored

/-- **A snapshot is what it was, or gone with its group**, after an operation that does not take its
place. -/
theorem apply_snapshot (operation : Operation Record Capabilities)
    (keeps : operation.replaces groupId name = false) :
    ((store.apply operation).2.snapshots groupId)[name]? = (store.snapshots groupId)[name]? ∨
      ((store.apply operation).2.snapshots groupId)[name]? = none := by
  have named {other otherName : String} (keeps : (other == groupId && otherName == name) = false)
      (same : groupId = other) : otherName ≠ name := by
    rintro rfl
    simp [same] at keeps
  cases operation with
  | putGroup | writeValue | deleteValue => exact Or.inl rfl
  | deleteGroup other =>
    rw [apply, deleteGroup]
    split
    · exact Or.inl rfl
    · dsimp only
      by_cases same : groupId = other
      · subst same
        rw [update_self]
        exact Or.inr ExtTreeMap.getElem?_empty
      · rw [update_of_ne same]
        exact Or.inl rfl
  | putMessage =>
    rw [apply, putMessage]
    split
    · exact Or.inl rfl
    · split <;> exact Or.inl rfl
  | updateMessageState =>
    rw [apply, updateMessageState]
    split <;> exact Or.inl rfl
  | putQueuedOutboundIntent =>
    rw [apply, putQueuedOutboundIntent]
    split
    · exact Or.inl rfl
    · split <;> exact Or.inl rfl
  | deleteQueuedOutboundIntent =>
    rw [apply, deleteQueuedOutboundIntent]
    split <;> exact Or.inl rfl
  | saveMemberCapabilities =>
    rw [apply, saveMemberCapabilities, writeForGroup]
    split <;> exact Or.inl rfl
  | putConvergencePolicy =>
    rw [apply, putConvergencePolicy, writeForGroup]
    split <;> exact Or.inl rfl
  | putValidatedTreeMarker =>
    rw [apply, putValidatedTreeMarker, writeForGroup]
    split <;> exact Or.inl rfl
  | createGroupSnapshot other =>
    rw [apply, createGroupSnapshot]
    split
    · exact Or.inl rfl
    · left
      dsimp only
      by_cases same : groupId = other
      · have different := named keeps same
        subst same
        rw [update_self, ExtTreeMap.getElem?_insert,
          if_neg fun equal => different (LawfulEqOrd.compare_eq_iff_eq.mp equal)]
      · rw [update_of_ne same]
  | rollbackGroupToSnapshot =>
    rw [apply, rollback_snapshots]
    exact Or.inl rfl
  | releaseGroupSnapshot other =>
    rw [apply, releaseGroupSnapshot]
    split
    · exact Or.inl rfl
    · left
      dsimp only
      by_cases same : groupId = other
      · have different := named keeps same
        subst same
        rw [update_self, ExtTreeMap.getElem?_erase,
          if_neg fun equal => different (LawfulEqOrd.compare_eq_iff_eq.mp equal)]
      · rw [update_of_ne same]

theorem run_snapshot {operations : List (Operation Record Capabilities)}
    (keeps : ∀ operation ∈ operations, operation.replaces groupId name = false) :
    ((store.run operations).snapshots groupId)[name]? = (store.snapshots groupId)[name]? ∨
      ((store.run operations).snapshots groupId)[name]? = none := by
  induction operations generalizing store with
  | nil => exact Or.inl rfl
  | cons operation rest ih =>
    have later := @ih (store.apply operation).2 fun other member =>
      keeps other (List.mem_cons_of_mem _ member)
    rcases later with same | gone
    · rcases apply_snapshot operation (keeps operation List.mem_cons_self) with kept | gone
      · exact Or.inl (same.trans kept)
      · exact Or.inr (same.trans gone)
    · exact Or.inr gone

end Kept

/-! ### Rollbacks -/

section Exact

variable {store} {groupId name : String} {created : AccountStore Record Capabilities}

theorem createGroupSnapshot_ok
    (creates : store.createGroupSnapshot groupId name = (.ok (), created)) :
    ∃ group, store.groups groupId = some group ∧
      (created.snapshots groupId)[name]? = some (store.capture group groupId) := by
  rw [createGroupSnapshot] at creates
  split at creates
  · cases creates
  · rename_i group found
    cases creates
    refine ⟨group, found, ?_⟩
    dsimp only
    rw [update_self, ExtTreeMap.getElem?_insert_self]

/-- **What the statements of a rollback leave**, when none of them fails. -/
theorem restore_exact {old restored : AccountStore Record Capabilities} {group : Record}
    (found : old.groups groupId = some group)
    (isRestored : store.restore groupId (old.capture group groupId) = some restored) :
    restored.groupData groupId = old.groupData groupId ∧
      (∀ other ≠ groupId, restored.groupData other = store.groupData other) ∧
      restored.sharedValues = store.sharedValues := by
  rw [restore] at isRestored
  obtain ⟨messages, replacedMessages, isRestored⟩ := bind_eq_some_iff.mp isRestored
  obtain ⟨queued, replacedQueued, isRestored⟩ := bind_eq_some_iff.mp isRestored
  obtain ⟨caps, replacedCaps, isRestored⟩ := bind_eq_some_iff.mp isRestored
  obtain ⟨values, replacedValues, isRestored⟩ := bind_eq_some_iff.mp isRestored
  cases isRestored
  obtain ⟨ownMessages, otherMessages⟩ := replaceRows_restores replacedMessages
  obtain ⟨ownQueued, otherQueued⟩ := replaceRows_restores replacedQueued
  obtain ⟨ownValues, otherValues⟩ := replaceRows_restores replacedValues
  have ownCaps : caps = old.memberCapabilities groupId := by
    refine ExtTreeMap.ext_getElem? fun key => ext fun row => ?_
    have owned := replaceRows_owned replacedCaps (fun _ _ => rfl) key row
    rw [getElem?_filter, filter_eq_some_iff, and_iff_left rfl, capture,
      ExtTreeMap.mem_toList_iff_getElem?_eq_some] at owned
    exact owned
  refine ⟨?_, fun other different => ?_, ?_⟩
  · simp only [groupData, update_self, ownMessages, ownQueued, ownValues, ownCaps, found, capture]
  · have messagesOf : messages.filter (ownsMessage other) =
        store.messages.filter (ownsMessage other) :=
      filter_eq_of_others otherMessages fun _ record mine => by
        rw [ownsMessage, beq_iff_eq] at mine
        rw [ownsMessage, mine]
        exact beq_false_of_ne different
    have queuedOf : queued.filter (ownsQueued other) =
        store.queuedOutbound.filter (ownsQueued other) :=
      filter_eq_of_others otherQueued fun _ row mine => by
        rw [ownsQueued, beq_iff_eq] at mine
        rw [ownsQueued, mine]
        exact beq_false_of_ne different
    have valuesOf : values.filter (ownsValue other) =
        store.openmlsValues.filter (ownsValue other) :=
      filter_eq_of_others otherValues fun _ value mine => by
        rw [ownsValue, beq_iff_eq] at mine
        rw [ownsValue, mine]
        exact beq_false_of_ne fun same => different (some.inj same)
    simp only [groupData, update_of_ne different, messagesOf, queuedOf, valuesOf]
  · have shared : (values.filter fun _ value => value.groupKey == none) =
        store.openmlsValues.filter fun _ value => value.groupKey == none :=
      filter_eq_of_others otherValues fun _ value nobody => by
        rw [beq_iff_eq] at nobody
        rw [ownsValue, nobody]
        rfl
    rw [sharedValues, sharedValues, shared]

/-- **A rollback is exact.** A snapshot of a group is created, and any operations follow that do not
create it again or release it. A rollback to it then brings the data of the group back as it was, with
the order of its rows, and leaves the rows of all others and all snapshots alone; a rollback that fails
leaves everything alone. -/
theorem rollback_exact {operations : List (Operation Record Capabilities)}
    (creates : store.createGroupSnapshot groupId name = (.ok (), created))
    (keeps : ∀ operation ∈ operations, operation.replaces groupId name = false) :
    let before := created.run operations
    let after := before.rollbackGroupToSnapshot groupId name
    (after.1 = .ok () →
      after.2.groupData groupId = store.groupData groupId ∧
      (∀ other ≠ groupId, after.2.groupData other = before.groupData other) ∧
      after.2.sharedValues = before.sharedValues ∧ after.2.snapshots = before.snapshots) ∧
    (after.1 ≠ .ok () → after.2 = before) := by
  intro before after
  obtain ⟨group, found, captured⟩ := createGroupSnapshot_ok creates
  have snapshots := rollback_snapshots before groupId name
  have stored : (before.snapshots groupId)[name]? = some (store.capture group groupId) ∨
      (before.snapshots groupId)[name]? = none := by
    rw [← captured]
    exact run_snapshot keeps
  simp only [after]
  rw [rollbackGroupToSnapshot] at snapshots ⊢
  rcases stored with stored | gone
  · rw [stored] at snapshots ⊢
    dsimp only at snapshots ⊢
    cases isRestored : before.restore groupId (store.capture group groupId) with
    | none => exact ⟨nofun, fun _ => rfl⟩
    | some =>
      rw [isRestored] at snapshots
      obtain ⟨own, others, shared⟩ := restore_exact found isRestored
      exact ⟨fun _ => ⟨own, others, shared, snapshots⟩, fun failed => absurd rfl failed⟩
  · rw [gone]
    exact ⟨nofun, fun _ => rfl⟩

def sampleMessage (id groupId : String) : MessageRecord :=
  ⟨id, groupId, 0, .created, .rawTransport ⟨id, [], [], .groupMessage []⟩⟩

def sampleStore : AccountStore Nat Nat :=
  run ⟨fun _ => none, ∅, 0, ∅, 0, fun _ => ∅, fun _ => none, fun _ => none, ∅, fun _ => ∅⟩
    [.putGroup "g" 0, .putGroup "h" 0, .putMessage (sampleMessage "a" "g"),
      .putMessage (sampleMessage "b" "h"), .putQueuedOutboundIntent ⟨"g", ⟨"q", [], 0⟩⟩,
      .writeValue [1] ⟨[], some "g", [7]⟩]

def sampleOperations : List (Operation Nat Nat) :=
  [.putGroup "g" 1, .updateMessageState "a" .processed, .putMessage (sampleMessage "c" "g"),
    .deleteQueuedOutboundIntent "q", .deleteValue [1], .putMessage (sampleMessage "d" "h"),
    .createGroupSnapshot "g" "later"]

/-- The rollback succeeds, and the first group is as it was. -/
theorem sampleStore_rolls_back :
    let before := ((sampleStore.createGroupSnapshot "g" "name").2).run sampleOperations
    (before.rollbackGroupToSnapshot "g" "name").1 = .ok () ∧
      (before.rollbackGroupToSnapshot "g" "name").2.groupData "g" = sampleStore.groupData "g" :=
  have succeeds : ((((sampleStore.createGroupSnapshot "g" "name").2).run
      sampleOperations).rollbackGroupToSnapshot "g" "name").1 = .ok () := by
    decide +kernel
  have creates : sampleStore.createGroupSnapshot "g" "name" =
      (.ok (), (sampleStore.createGroupSnapshot "g" "name").2) := rfl
  ⟨succeeds, ((rollback_exact creates (by decide)).1 succeeds).1⟩

end Exact

end AccountStore

end Darkmatter
