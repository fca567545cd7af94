/-
**The groups of a client.**

A client keeps the live state of its groups in the MLS store, a record of each group beside it, and
in memory the epoch manager and an index from transport group ids to groups. What is in memory is
rebuilt from the store when the client is opened.

* `LiveGroup`, `GroupRecord` — a group in the MLS store, and the record that the client shows;
* `StoredGroups`, `Client` — what survives a restart, and what is kept in memory beside it;
* `Client.groupIdForTransportGroupId` — the group that an inbound message is for;
* `StoredGroups.hydration` — what opening the store makes of one group;
* `Client.restart` — the client is closed and opened.
-/

import Darkmatter.Components.AdminPolicy
import Darkmatter.Engine.EpochManager

namespace Darkmatter

open Std Lib

/-! ### Groups -/

structure GroupCapabilities where
  proposals : Finset UInt16
  extensions : Finset UInt16
  appComponents : Finset AppComponentId
deriving DecidableEq

namespace GroupCapabilities

def missingFrom (required had : GroupCapabilities) : GroupCapabilities :=
  ⟨required.proposals \ had.proposals, required.extensions \ had.extensions,
    required.appComponents \ had.appComponents⟩

def isEmpty (capabilities : GroupCapabilities) : Bool :=
  capabilities.proposals = ∅ ∧ capabilities.extensions = ∅ ∧ capabilities.appComponents = ∅

def merge (capabilities other : GroupCapabilities) : GroupCapabilities :=
  ⟨capabilities.proposals ∪ other.proposals, capabilities.extensions ∪ other.extensions,
    capabilities.appComponents ∪ other.appComponents⟩

end GroupCapabilities

/-- A member of a group, as the record keeps it: the identity and the signature key. -/
structure Member where
  id : Bytes
  credential : Bytes
deriving DecidableEq, Repr

/-- **The record of a group.** -/
structure GroupRecord where
  name : String
  description : String
  epoch : Nat
  members : List Member
  requiredCapabilities : GroupCapabilities
deriving DecidableEq

/-- A commit that is staged, with the required capabilities of the group context it leads to. -/
structure PendingChange extends StagedCommit where
  requiredCapabilities : GroupCapabilities

/-- **A group in the MLS store.** The required capabilities are those of the extension of the group
context; a commit that the client staged stays with the group until it is merged or cleared. -/
structure LiveGroup extends MlsGroup where
  epoch : Nat
  requiredCapabilities : GroupCapabilities
  ownLeafIndex : Nat
  pendingCommit : Option PendingChange

namespace LiveGroup

variable (group : LiveGroup)

def clearPendingCommit : LiveGroup :=
  { group with pendingCommit := none }

def mergePendingCommit : LiveGroup :=
  match group.pendingCommit with
  | none => group
  | some change =>
    { group with
      toMlsGroup := mergeStagedCommit group.toMlsGroup change.toStagedCommit
      epoch := group.epoch + 1
      requiredCapabilities := change.requiredCapabilities
      pendingCommit := none }

def ownLeafNode : Option LeafNode :=
  group.members[group.ownLeafIndex]?

end LiveGroup

def groupProfileComponentId : AppComponentId := 0x8001

def nostrRoutingComponentId : AppComponentId := 0x8004

def groupMessageRetentionComponentId : AppComponentId := 0x8005

def agentTextStreamQuicComponentId : AppComponentId := 0x8006

/-- **The client and what is left open about it**: its identity, what it supports, the checks on
leaves, the decoders of the other components, and the hash that stands for a validated tree. -/
structure ClientContext where
  selfId : Bytes
  supported : GroupCapabilities
  checks : CommitChecks
  decodeNostrGroupId : Bytes → Except String Bytes
  decodeGroupProfile : Bytes → Except String (String × String)
  decodeRoleCapabilities : Bytes → Option GroupCapabilities
  treeMarker : Table Nat LeafNode → Option Bytes

section Reading

variable (context : ClientContext) (group : MlsGroup)

def marmotMembers : List Member :=
  group.members.toList.filterMap fun (_, leaf) =>
    (basicIdentity leaf.credential).map fun identity => ⟨identity, leaf.signatureKey⟩

def requiredCapabilitiesFromGroup (group : LiveGroup) : GroupCapabilities :=
  { group.requiredCapabilities with
    appComponents := match requiredAppComponentsOfGroup group.toMlsGroup with
      | .ok components => components.toFinset
      | .error _ => ∅ }

def requiredRoleCapabilitiesFromGroup : GroupCapabilities :=
  ((appComponentBytes group agentTextStreamQuicComponentId).bind
    context.decodeRoleCapabilities).getD ⟨∅, ∅, ∅⟩

/-- The name and the required components; a component that does not decode changes nothing. -/
def mirrorAppComponentsIntoRecord (record : GroupRecord) : GroupRecord :=
  let named := match (appComponentBytes group groupProfileComponentId).map
      context.decodeGroupProfile with
    | some (.ok (name, description)) => { record with name := name, description := description }
    | _ => record
  match requiredAppComponentsOfGroup group with
  | .ok components =>
    { named with
      requiredCapabilities :=
        { named.requiredCapabilities with appComponents := components.toFinset } }
  | .error _ => named

/-- **The record follows the group.** -/
def mirrorGroup (group : LiveGroup) (record : GroupRecord) : GroupRecord :=
  mirrorAppComponentsIntoRecord context group.toMlsGroup
    { record with
      epoch := group.epoch
      members := marmotMembers group.toMlsGroup
      requiredCapabilities := requiredCapabilitiesFromGroup group }

@[simp] theorem mirrorGroup_epoch (group : LiveGroup) (record : GroupRecord) :
    (mirrorGroup context group record).epoch = group.epoch := by
  unfold mirrorGroup mirrorAppComponentsIntoRecord
  split <;> split <;> rfl

@[simp] theorem mirrorGroup_members (group : LiveGroup) (record : GroupRecord) :
    (mirrorGroup context group record).members = marmotMembers group.toMlsGroup := by
  unfold mirrorGroup mirrorAppComponentsIntoRecord
  split <;> split <;> rfl

/-- **The transport id of a group**: the one of its routing component, or its own id. -/
def transportGroupIdOfGroup : Except CommitRejection Bytes :=
  match appComponentBytes group nostrRoutingComponentId with
  | none => .ok group.groupId
  | some bytes => (context.decodeNostrGroupId bytes).mapError
      fun error => .serialize s!"Nostr routing component decode failed: {error}"

def decodeMessageRetention (bytes : Bytes) : Except CommitRejection Nat :=
  if bytes.length ≠ 8 then
    .error (.serialize s!"message-retention component must be 8 bytes, got {bytes.length}")
  else
    .ok (bytes.foldl (fun seconds byte => seconds * 256 + byte.toNat) 0)

/-- The retention of a group, if it limits it. -/
def messageRetentionSecondsOfGroup : Except CommitRejection (Option Nat) :=
  match appComponentBytes group groupMessageRetentionComponentId with
  | none => .ok none
  | some bytes => do
    let seconds ← decodeMessageRetention bytes
    pure (if seconds = 0 then none else some seconds)

def validateMemberCredentials : Except CommitRejection Unit :=
  group.members.toList.forM fun (_, leaf) => do
    let _ ← validatedMemberId context.checks leaf.credential

def validateMemberCredentialsAndAccountProofs :
    Except CommitRejection Unit := do
  validateMemberCredentials context group
  group.members.toList.forM fun (_, leaf) => validateLeafAccountIdentityProof context.checks leaf

end Reading

/-! ### The client -/

inductive GroupHydrationQuarantineReason
  | openMlsGroupMissing
  | memberValidationFailed
  | groupRecordLoadFailed
deriving DecidableEq, Repr

inductive ClientEvent
  | groupJoined (groupId : Bytes) (viaWelcome : String) (welcomer : Option Bytes)
  | messageRetentionChanged (groupId : Bytes) (epoch : Nat) (actor : Bytes)
      (oldSeconds newSeconds : Nat)
  | pendingCommitRecovered (groupId : Bytes) (recoveredEpoch : Nat)
  | groupHydrationQuarantined (groupId : Bytes) (reason : GroupHydrationQuarantineReason)
deriving DecidableEq, Repr

/-- **What survives a restart**: the MLS store, the records, the states of the messages, and the
marker of the last tree of a group that was validated. -/
structure StoredGroups where
  live : Table Bytes LiveGroup
  records : Table Bytes GroupRecord
  messages : Table String MessageState
  validatedTreeMarkers : Table Bytes Bytes

/-- **The client**, with what it keeps in memory. -/
structure Client extends StoredGroups where
  transportGroupIdIndex : Table Bytes Bytes
  epochManager : EpochManager Bytes Bytes TransportMessage
  seenMessageIds : Finset String
  quarantinedGroups : Table Bytes GroupHydrationQuarantineReason
  events : List ClientEvent

namespace Client

variable (context : ClientContext) (client : Client)

/-- An unreadable routing component leaves the index as it is. -/
def indexGroup (groupId : Bytes) (group : MlsGroup) : Client :=
  match transportGroupIdOfGroup context group with
  | .ok transportGroupId =>
    { client with
      transportGroupIdIndex := client.transportGroupIdIndex.insert transportGroupId groupId }
  | .error _ => client

section Indexing

variable (groupId : Bytes) (group : MlsGroup)

@[simp] theorem indexGroup_stored :
    (client.indexGroup context groupId group).toStoredGroups = client.toStoredGroups := by
  unfold indexGroup
  split <;> rfl

@[simp] theorem indexGroup_epochManager :
    (client.indexGroup context groupId group).epochManager = client.epochManager := by
  unfold indexGroup
  split <;> rfl

@[simp] theorem indexGroup_quarantinedGroups :
    (client.indexGroup context groupId group).quarantinedGroups = client.quarantinedGroups := by
  unfold indexGroup
  split <;> rfl

theorem indexGroup_lookup (transportGroupId : Bytes) :
    (client.indexGroup context groupId group).transportGroupIdIndex[transportGroupId]? =
      if transportGroupIdOfGroup context group = .ok transportGroupId then some groupId
      else client.transportGroupIdIndex[transportGroupId]? := by
  unfold indexGroup
  split
  · next found readable => simp only [readable, getElem?_insert, Except.ok.injEq]
  · next error unreadable => simp only [unreadable, reduceCtorEq, if_false]

end Indexing

/-- The index follows the live group; a transport id that the group had before stays. -/
def reindexTransportGroupId (groupId : Bytes) : Client :=
  match client.live[groupId]? with
  | some group => client.indexGroup context groupId group.toMlsGroup
  | none => client

/-- **The group that a transport id stands for.** A record under the id itself comes first; an id
that is not known stands for itself. -/
def groupIdForTransportGroupId (transportGroupId : Bytes) : Bytes :=
  if transportGroupId ∈ client.records then
    transportGroupId
  else
    client.transportGroupIdIndex[transportGroupId]?.getD transportGroupId

end Client

/-! ### Opening the store -/

def Proposal.removesMember : Proposal → Bool
  | .remove _ | .selfRemove => true
  | _ => false

def StagedCommit.removesMember (commit : StagedCommit) : Bool :=
  commit.queuedProposals.any fun queued => queued.proposal.removesMember

/-- A staged commit that is found when the store is opened is given up, unless it removes a
member. -/
def LiveGroup.recoversPending (group : LiveGroup) : Bool :=
  group.pendingCommit.any fun change => !change.removesMember

/-- What opening the store makes of a group: its live state and its record, and whether a staged
commit was given up. -/
structure Hydrated where
  group : LiveGroup
  record : GroupRecord
  recovered : Bool

section Hydration

variable (context : ClientContext)

/-- **One group is opened.** A tree that carries the marker of its last validation is not validated
again. -/
def StoredGroups.hydration (stored : StoredGroups) (groupId : Bytes) :
    Except GroupHydrationQuarantineReason Hydrated :=
  match stored.live[groupId]? with
  | none => .error .openMlsGroupMissing
  | some group =>
    let marker := context.treeMarker group.members
    let alreadyValidated := marker.isSome ∧ stored.validatedTreeMarkers[groupId]? = marker
    if ¬ alreadyValidated ∧
        validateMemberCredentialsAndAccountProofs context group.toMlsGroup ≠ .ok () then
      .error .memberValidationFailed
    else
      match stored.records[groupId]? with
      | none => .error .groupRecordLoadFailed
      | some record =>
        if group.recoversPending then
          let cleared := group.clearPendingCommit
          .ok ⟨cleared, mirrorGroup context cleared record, true⟩
        else
          .ok ⟨group, record, false⟩

namespace Client

variable (client : Client)

def markValidated (groupId : Bytes) (group : MlsGroup) : Client :=
  { client with
    validatedTreeMarkers := match context.treeMarker group.members with
      | some marker => client.validatedTreeMarkers.insert groupId marker
      | none => client.validatedTreeMarkers }

/-- A staged commit that was given up is cleared in the store, and the record follows. -/
def storeRecovered (groupId : Bytes) (hydrated : Hydrated) : Client :=
  if hydrated.recovered then
    { client with
      live := client.live.insert groupId hydrated.group
      records := client.records.insert groupId hydrated.record
      events := client.events ++ [.pendingCommitRecovered groupId hydrated.group.epoch] }
  else
    client

/-- What is written for a group that is opened. -/
def enterHydrated (groupId : Bytes) (hydrated : Hydrated) : Client :=
  let validated := client.markValidated context groupId hydrated.group.toMlsGroup
  let recovered := validated.storeRecovered groupId hydrated
  let indexed := recovered.indexGroup context groupId hydrated.group.toMlsGroup
  { indexed with epochManager := indexed.epochManager.setStable groupId hydrated.record.epoch }

def quarantine (groupId : Bytes) (reason : GroupHydrationQuarantineReason) : Client :=
  { client with
    quarantinedGroups := client.quarantinedGroups.insert groupId reason
    events := client.events ++ [.groupHydrationQuarantined groupId reason] }

def hydrateOneStoredGroup (groupId : Bytes) : Client :=
  match client.toStoredGroups.hydration context groupId with
  | .error reason => client.quarantine groupId reason
  | .ok hydrated => client.enterHydrated context groupId hydrated

/-- The groups with a record, in the order of their ids. -/
def hydrateStableGroups : Client :=
  client.records.keys.foldl (fun client groupId =>
    client.hydrateOneStoredGroup context groupId) client

end Client

/-- The client that is opened on a store. -/
def StoredGroups.opened (stored : StoredGroups) : Client :=
  { stored with
    transportGroupIdIndex := ∅
    epochManager := .new
    seenMessageIds := ∅
    quarantinedGroups := ∅
    events := [] }

/-- **A restart**: what was in memory is gone, and the groups of the store are opened. -/
def Client.restart (client : Client) : Client :=
  client.toStoredGroups.opened.hydrateStableGroups context

end Hydration

end Darkmatter
