/-
**Joining a group by a Welcome.**

A Welcome is read, its group is staged and landed in the MLS store, and only then it is checked who
is in the group, what the group requires, and who sent the Welcome. A Welcome for a group that the
client has left clears the live state of that group before it is staged.

* `Client.doJoinWelcome` — the join, with every exit in the order of the source;
* `Client.doJoinWelcome_cases` — what an exit can leave in the MLS store;
* `Client.LeavesNoTrace` — a Welcome changes no group, and no later Welcome;
* `no_trace_iff` — **a refused Welcome leaves no trace exactly when it is refused before the MLS
  store is touched**.
-/

import Darkmatter.Groups.Client

namespace Darkmatter

open Std Lib

/-! ### Welcomes -/

inductive JoinError
  | other (text : String)
  | malformed (text : String)
  | peeler (error : PeelerError)
  | serialize (text : String)
  | backend (text : String)
  | missingRequiredCapabilities (required had : GroupCapabilities)
  | rejected (rejection : CommitRejection)
deriving DecidableEq

/-- What the peeler finds: the sender, and the bytes of a Welcome if it is one. -/
structure PeeledWelcome where
  sender : Option Bytes
  bytes : Option Bytes

/-- A Welcome whose group is built but not stored: the leaf of the sender, and the group. -/
structure StagedWelcome where
  sender : Except String LeafNode
  group : Except String LiveGroup

/-- **What the peeler and OpenMLS make of a Welcome.** Processing it yields the id of the group;
staging it builds the group. -/
structure WelcomeCodec where
  peelWelcome : TransportMessage → Except PeelerError PeeledWelcome
  deserialize : Bytes → Except String (Option Bytes)
  processWelcome : Bytes → Except String Bytes
  stageWelcome : Bytes → Except String StagedWelcome

structure ProcessedWelcome where
  groupId : Bytes
  welcome : Bytes
  welcomer : Option Bytes

/-- The states of a message that was dealt with. -/
def MessageState.isSettled : MessageState → Bool
  | .processed | .failed | .epochInvalidated => true
  | _ => false

namespace Client

section Join

variable (context : ClientContext) (codec : WelcomeCodec) (client : Client)
  (message : TransportMessage)

/-- The checks on the message itself: it is new, it is a Welcome for this client, and OpenMLS can
open it. -/
def readWelcome : Except JoinError ProcessedWelcome := do
  if message.id ∈ client.seenMessageIds then
    .error (.other "welcome already processed")
  if (client.messages[message.id]?).any MessageState.isSettled then
    .error (.other "welcome already processed")
  match message.envelope with
  | .groupMessage _ => .error (.malformed "expected Welcome envelope")
  | .welcome recipient =>
    if recipient ≠ context.selfId then
      .error (.malformed "welcome not addressed to this client")
  let peeled ← (codec.peelWelcome message).mapError .peeler
  match peeled.bytes with
  | none => .error (.malformed "peeled content was not a Welcome")
  | some bytes =>
    let body ← (codec.deserialize bytes).mapError fun error =>
      .serialize s!"welcome deserialize: {error}"
    match body with
    | none => .error (.serialize "MLS message did not carry a Welcome")
    | some welcome =>
      let groupId ← (codec.processWelcome welcome).mapError fun error =>
        .backend s!"process welcome: {error}"
      pure ⟨groupId, welcome, peeled.sender⟩

/-- The group has a record, and the client is not among its members. -/
def localStateIsStaleForRejoin (groupId : Bytes) : Bool :=
  match client.records[groupId]? with
  | some record => !record.members.any fun member => member.id = context.selfId
  | none => false

/-- The live state of a group that the client has left is cleared. -/
def clearStale (groupId : Bytes) : Client :=
  if client.localStateIsStaleForRejoin context groupId then
    { client with live := client.live.erase groupId }
  else
    client

/-- The group is built and its sender has an identity. OpenMLS refuses a group that is stored
already. -/
def stageWelcome (processed : ProcessedWelcome) : Except JoinError (LiveGroup × Bytes) := do
  if processed.groupId ∈ client.live then
    .error (.backend "stage welcome: GroupAlreadyExists")
  let staged ← (codec.stageWelcome processed.welcome).mapError fun error =>
    .backend s!"stage welcome: {error}"
  let sender ← staged.sender.mapError fun error => .backend s!"welcome sender: {error}"
  let senderId ← (validatedMemberId context.checks sender.credential).mapError .rejected
  let group ← staged.group.mapError fun error => .backend s!"into_group: {error}"
  pure (group, senderId)

/-- The checks on the group: its members, what it requires, and that an admin sent the Welcome. -/
def admitWelcome (group : LiveGroup) (senderId : Bytes) : Except JoinError Unit := do
  (validateMemberCredentialsAndAccountProofs context group.toMlsGroup).mapError .rejected
  let required := (requiredCapabilitiesFromGroup group).merge
    (requiredRoleCapabilitiesFromGroup context group.toMlsGroup)
  if !(required.missingFrom context.supported).isEmpty then
    .error (.missingRequiredCapabilities required context.supported)
  (requireAdmin group.toMlsGroup senderId).mapError .rejected

/-- The own leaf has to be the client's. -/
def cacheSelfCapabilities (group : LiveGroup) : Except JoinError Unit :=
  match group.ownLeafNode with
  | none => .ok ()
  | some leaf => do
    (validateLeafAccountIdentityProof context.checks leaf).mapError .rejected
    match basicIdentity leaf.credential with
    | none => .error (.backend "credential")
    | some identity =>
      if identity ≠ context.selfId then
        .error (.backend "own_leaf_node identity does not match engine self_id")

/-- The record is written, the group is indexed and becomes stable, and the join is reported. -/
def completeJoin (processed : ProcessedWelcome) (group : LiveGroup)
    (senderId : Bytes) : Except JoinError Bytes × Client :=
  let groupId := processed.groupId
  let record := mirrorGroup context group ⟨"", "", 0, [], ⟨∅, ∅, ∅⟩⟩
  let recorded := { client with records := client.records.insert groupId record }
  let indexed := recorded.indexGroup context groupId group.toMlsGroup
  match cacheSelfCapabilities context group with
  | .error error => (.error error, indexed)
  | .ok () =>
    let joined := { indexed with
      epochManager := indexed.epochManager.setStable groupId group.epoch
      messages := indexed.messages.insert message.id .processed
      events := indexed.events ++ [.groupJoined groupId message.id processed.welcomer] }
    match messageRetentionSecondsOfGroup group.toMlsGroup with
    | .error rejection => (.error (.rejected rejection), joined)
    | .ok retention =>
      (.ok groupId,
        { joined with
          events := joined.events ++ (retention.toList.map fun newSeconds =>
            .messageRetentionChanged groupId group.epoch senderId 0 newSeconds)
          seenMessageIds := insert message.id joined.seenMessageIds })

/-- **The client joins by a Welcome.** Each exit with an error leaves what was written before it. -/
def doJoinWelcome : Except JoinError Bytes × Client :=
  match client.readWelcome context codec message with
  | .error error => (.error error, client)
  | .ok processed =>
    let cleared := client.clearStale context processed.groupId
    match cleared.stageWelcome context codec processed with
    | .error error => (.error error, cleared)
    | .ok (group, senderId) =>
      let landed := { cleared with live := cleared.live.insert processed.groupId group }
      match admitWelcome context group senderId with
      | .error error => (.error error, landed)
      | .ok () => landed.completeJoin context message processed group senderId

/-- The group that a Welcome makes a group of the client: it passes every check before the record is
written. -/
def welcomedGroup : Option (Bytes × LiveGroup) :=
  match client.readWelcome context codec message with
  | .error _ => none
  | .ok processed =>
    match (client.clearStale context processed.groupId).stageWelcome context codec processed with
    | .error _ => none
    | .ok (group, senderId) =>
      match admitWelcome context group senderId with
      | .error _ => none
      | .ok () => some (processed.groupId, group)

end Join

/-! ### What an exit leaves -/

section Exits

variable {context : ClientContext} {codec : WelcomeCodec} {client : Client}
  {message : TransportMessage}

section Complete

variable (context) (client) (message) (processed : ProcessedWelcome) (group : LiveGroup)
  (senderId : Bytes)

theorem completeJoin_live :
    (client.completeJoin context message processed group senderId).2.live = client.live := by
  unfold completeJoin
  dsimp only
  split
  · rw [indexGroup_stored]
  · split <;> simp only [indexGroup_stored]

theorem completeJoin_records :
    ∃ record, (client.completeJoin context message processed group senderId).2.records =
      client.records.insert processed.groupId record := by
  unfold completeJoin
  refine ⟨mirrorGroup context group ⟨"", "", 0, [], ⟨∅, ∅, ∅⟩⟩, ?_⟩
  dsimp only
  split
  · rw [indexGroup_stored]
  · split <;> simp only [indexGroup_stored]

theorem completeJoin_lookup (transportGroupId : Bytes) :
    (client.completeJoin context message processed group
        senderId).2.transportGroupIdIndex[transportGroupId]? =
      if transportGroupIdOfGroup context group.toMlsGroup = .ok transportGroupId then
        some processed.groupId
      else client.transportGroupIdIndex[transportGroupId]? := by
  unfold completeJoin
  dsimp only
  split
  · exact indexGroup_lookup _ _ _ _ _
  · split <;> exact indexGroup_lookup _ _ _ _ _

end Complete

/-- **The exits of a join**: before anything was touched, after the stale state was cleared, or with
the group landed in the MLS store. -/
theorem doJoinWelcome_cases (context : ClientContext) (codec : WelcomeCodec) (client : Client)
    (message : TransportMessage) :
    (∃ error, client.readWelcome context codec message = .error error ∧
      client.doJoinWelcome context codec message = (.error error, client)) ∨
    ∃ processed, client.readWelcome context codec message = .ok processed ∧
      ((∃ error, (client.clearStale context processed.groupId).stageWelcome context codec processed =
          .error error ∧
        client.doJoinWelcome context codec message =
          (.error error, client.clearStale context processed.groupId)) ∨
      ∃ group senderId,
        (client.clearStale context processed.groupId).stageWelcome context codec processed =
          .ok (group, senderId) ∧
        (client.doJoinWelcome context codec message).2.live =
          (client.clearStale context processed.groupId).live.insert processed.groupId group) := by
  unfold doJoinWelcome
  cases read : client.readWelcome context codec message with
  | error error => exact .inl ⟨error, rfl, rfl⟩
  | ok processed =>
    refine .inr ⟨processed, rfl, ?_⟩
    dsimp only
    cases staged : (client.clearStale context processed.groupId).stageWelcome context codec
        processed with
    | error error => exact .inl ⟨error, rfl, rfl⟩
    | ok landing =>
      obtain ⟨group, senderId⟩ := landing
      refine .inr ⟨group, senderId, rfl, ?_⟩
      -- every later exit keeps the landed group
      dsimp only
      split
      · rfl
      · exact completeJoin_live _ _ _ _ _ _

theorem clearStale_records (context : ClientContext) (client : Client) (groupId : Bytes) :
    (client.clearStale context groupId).records = client.records := by
  unfold clearStale
  split <;> rfl

theorem clearStale_index (context : ClientContext) (client : Client) (groupId : Bytes) :
    (client.clearStale context groupId).transportGroupIdIndex = client.transportGroupIdIndex := by
  unfold clearStale
  split <;> rfl

/-- A Welcome that brings no group leaves the records and the index. -/
theorem doJoinWelcome_unwelcomed (nothing : client.welcomedGroup context codec message = none) :
    (client.doJoinWelcome context codec message).2.records = client.records ∧
    (client.doJoinWelcome context codec message).2.transportGroupIdIndex =
      client.transportGroupIdIndex := by
  unfold welcomedGroup at nothing
  unfold doJoinWelcome
  split
  · exact ⟨rfl, rfl⟩
  · next processed read =>
    rw [read] at nothing
    dsimp only at nothing ⊢
    split
    · exact ⟨clearStale_records _ _ _, clearStale_index _ _ _⟩
    · next group senderId staged =>
      rw [staged] at nothing
      dsimp only at nothing
      split
      · exact ⟨clearStale_records _ _ _, clearStale_index _ _ _⟩
      · next admitted =>
        rw [admitted] at nothing
        cases nothing

variable {groupId : Bytes}

/-- A Welcome that brings a group enters it into the records and the index. -/
theorem doJoinWelcome_welcomed {group : LiveGroup}
    (welcomed : client.welcomedGroup context codec message = some (groupId, group)) :
    (∃ record, (client.doJoinWelcome context codec message).2.records =
      client.records.insert groupId record) ∧
    ∀ transportGroupId,
      (client.doJoinWelcome context codec message).2.transportGroupIdIndex[transportGroupId]? =
        if transportGroupIdOfGroup context group.toMlsGroup = .ok transportGroupId then
          some groupId
        else client.transportGroupIdIndex[transportGroupId]? := by
  unfold welcomedGroup at welcomed
  unfold doJoinWelcome
  split at welcomed
  · cases welcomed
  · next processed read =>
    split at welcomed
    · cases welcomed
    · next landed senderId staged =>
      split at welcomed
      · cases welcomed
      · next admitted =>
        cases welcomed
        simp only [staged, admitted]
        refine ⟨?_, fun transportGroupId => ?_⟩
        · rw [← clearStale_records context client processed.groupId]
          exact completeJoin_records _ _ _ _ _ _
        · rw [← clearStale_index context client processed.groupId]
          exact completeJoin_lookup _ _ _ _ _ _ _

theorem clearStale_eq_self
    (nothing : client.localStateIsStaleForRejoin context groupId → groupId ∉ client.live) :
    client.clearStale context groupId = client := by
  unfold clearStale
  split_ifs with stale
  · have same : client.live.erase groupId = client.live := by
      refine ExtTreeMap.ext_getElem? fun other => ?_
      rw [getElem?_erase]
      split_ifs with here
      · exact (ExtTreeMap.getElem?_eq_none (here ▸ nothing stale)).symm
      · rfl
    rw [same]
  · rfl

end Exits

/-! ### Welcomes without a trace -/

section Traces

variable (context : ClientContext) (codec : WelcomeCodec) (client : Client)
  (message : TransportMessage)

/-- **The Welcome leaves no trace**: every group is as before, and every later Welcome has the
outcome it would have had without this one. -/
structure LeavesNoTrace : Prop where
  live : (client.doJoinWelcome context codec message).2.live = client.live
  records : (client.doJoinWelcome context codec message).2.records = client.records
  index : (client.doJoinWelcome context codec message).2.transportGroupIdIndex =
    client.transportGroupIdIndex
  epochs : (client.doJoinWelcome context codec message).2.epochManager.states =
    client.epochManager.states
  later : ∀ later, (client.doJoinWelcome context codec message).2.doJoinWelcome context codec later =
    client.doJoinWelcome context codec later

/-- **The Welcome is refused before the MLS store is touched**: it cannot be read; or it cannot be
staged, and no live state of a group that the client has left is cleared for it. -/
inductive RefusedEarly : Prop
  | unread {error : JoinError}
      (unread : client.readWelcome context codec message = .error error)
  | unstaged {processed : ProcessedWelcome} {error : JoinError}
      (read : client.readWelcome context codec message = .ok processed)
      (nothing : client.localStateIsStaleForRejoin context processed.groupId →
        processed.groupId ∉ client.live)
      (unstaged : client.stageWelcome context codec processed = .error error)

/-- What the Welcome lands is not the live state that is there: the own leaf has the keys of the
key package that the Welcome was made for. -/
def LandsNew : Prop :=
  ∀ processed group senderId, client.readWelcome context codec message = .ok processed →
    (client.clearStale context processed.groupId).stageWelcome context codec processed =
      .ok (group, senderId) →
    client.live[processed.groupId]? ≠ some group

end Traces

section Main

variable {context : ClientContext} {codec : WelcomeCodec} {client : Client}
  {message : TransportMessage}

theorem RefusedEarly.unchanged (early : RefusedEarly context codec client message) :
    (client.doJoinWelcome context codec message).2 = client := by
  cases early with
  | unread unread => rw [doJoinWelcome, unread]
  | unstaged read nothing unstaged =>
    simp only [doJoinWelcome, read, clearStale_eq_self nothing, unstaged]

end Main

end Client

/-- **A Welcome leaves no trace exactly when it is refused before the MLS store is touched.** -/
theorem no_trace_iff (context : ClientContext) (codec : WelcomeCodec) (client : Client)
    (message : TransportMessage) (new : client.LandsNew context codec message) :
    client.LeavesNoTrace context codec message ↔ client.RefusedEarly context codec message := by
  constructor
  · intro traceless
    rcases client.doJoinWelcome_cases context codec message with
      ⟨error, unread, -⟩ | ⟨processed, read, ⟨error, unstaged, left⟩ |
        ⟨group, senderId, staged, landed⟩⟩
    · exact .unread unread
    · have same := traceless.live
      rw [left] at same
      have nothing : client.localStateIsStaleForRejoin context processed.groupId →
          processed.groupId ∉ client.live := fun stale => by
        rw [← same, Client.clearStale, if_pos stale]
        simp
      rw [Client.clearStale_eq_self nothing] at unstaged
      exact .unstaged read nothing unstaged
    · -- the landed group would have to be the one that was there
      refine absurd ?_ (new processed group senderId read staged)
      rw [← traceless.live, landed, ExtTreeMap.getElem?_insert_self]
  · intro early
    have same := early.unchanged
    exact ⟨by rw [same], by rw [same], by rw [same], by rw [same], fun later => by rw [same]⟩

/-! ### A Welcome of a member who is not an admin -/

def invitedId : Bytes := List.replicate 32 9

def strangerId : Bytes := List.replicate 32 2

def openContext : ClientContext where
  selfId := invitedId
  supported := ⟨∅, ∅, {appComponentsComponentId, groupAdminPolicyComponentId}⟩
  checks := openChecks
  decodeNostrGroupId := .ok
  decodeGroupProfile := fun _ => .ok ("", "")
  decodeRoleCapabilities := fun _ => none
  treeMarker := fun _ => none

/-- The group of the admin, with another member and the invited client. -/
def invitingGroup : LiveGroup where
  toMlsGroup :=
    { ledGroup with
      members := (ledGroup.members.insert 1 ⟨.basic strangerId, [3], none⟩).insert 2
        ⟨.basic invitedId, [4], none⟩ }
  epoch := 1
  requiredCapabilities := ⟨∅, ∅, ∅⟩
  ownLeafIndex := 2
  pendingCommit := none

/-- Welcomes to that group; the payload says whose leaf signed them. -/
def signedWelcomes : WelcomeCodec where
  peelWelcome := fun message => .ok ⟨none, some message.payload⟩
  deserialize := fun bytes => .ok (some bytes)
  processWelcome := fun _ => .ok [7]
  stageWelcome := fun welcome =>
    .ok ⟨.ok ⟨.basic (if welcome = [0] then sampleKey else strangerId), [2], none⟩,
      .ok invitingGroup⟩

def adminWelcome : TransportMessage := ⟨"admin", [0], [], .welcome invitedId⟩

def strangerWelcome : TransportMessage := ⟨"stranger", [1], [], .welcome invitedId⟩

def emptyClient : Client := StoredGroups.opened ⟨∅, ∅, ∅, ∅⟩

/-- **A refused Welcome keeps the client out of the group.** A member who is not an admin sends a
Welcome, which is refused; the Welcome of the admin, which would have been accepted, is then refused
because the group is in the MLS store. -/
theorem refused_welcome_blocks_join :
    (emptyClient.doJoinWelcome openContext signedWelcomes strangerWelcome).1 =
      .error (.rejected (.notGroupAdmin [7])) ∧
    (emptyClient.doJoinWelcome openContext signedWelcomes adminWelcome).1 = .ok [7] ∧
    ((emptyClient.doJoinWelcome openContext signedWelcomes strangerWelcome).2.doJoinWelcome
      openContext signedWelcomes adminWelcome).1 =
        .error (.backend "stage welcome: GroupAlreadyExists") ∧
    ¬ emptyClient.LeavesNoTrace openContext signedWelcomes strangerWelcome := by
  have accepted : (emptyClient.doJoinWelcome openContext signedWelcomes adminWelcome).1 =
      .ok [7] := by
    decide +kernel
  have blocked :
      ((emptyClient.doJoinWelcome openContext signedWelcomes strangerWelcome).2.doJoinWelcome
        openContext signedWelcomes adminWelcome).1 =
          .error (.backend "stage welcome: GroupAlreadyExists") := by
    decide +kernel
  refine ⟨by decide +kernel, accepted, blocked, fun traceless => ?_⟩
  rw [traceless.later, accepted] at blocked
  cases blocked

/-- A Welcome for another client leaves no trace. -/
theorem misaddressed_welcome_traceless :
    emptyClient.LandsNew openContext signedWelcomes { adminWelcome with envelope := .welcome [] } ∧
    emptyClient.LeavesNoTrace openContext signedWelcomes
      { adminWelcome with envelope := .welcome [] } := by
  have new : emptyClient.LandsNew openContext signedWelcomes
      { adminWelcome with envelope := .welcome [] } := by
    intro processed group senderId read staged
    simp [emptyClient, StoredGroups.opened]
  refine ⟨new, (no_trace_iff _ _ _ _ new).mpr ?_⟩
  cases read : emptyClient.readWelcome openContext signedWelcomes
      { adminWelcome with envelope := .welcome [] } with
  | error error => exact .unread read
  | ok processed =>
    have unread : (emptyClient.readWelcome openContext signedWelcomes
        { adminWelcome with envelope := .welcome [] }).isOk = false := by
      decide +kernel
    rw [read] at unread
    cases unread

end Darkmatter
