/-
**The group behind a transport id.**

Inbound messages name a transport id. The id stands for the group with that very id, if the client
has one, and else for the group that the index has under it. All groups share the index: it is
written when a group is created or joined, when a commit is applied, and anew at a restart.

* `RoutingStep`, `Client.routingRun` — creations, joins, commits and restarts of any groups;
* `Client.Holds` — the current transport id of a group, and the earlier ones that the index keeps;
* `Client.KeepsRoutes` — a step of one group changes no other group's ids, a restart changes none;
* `Client.Apart` — the ids that a group takes are free, and the index is what a restart makes of it;
* `routes_kept_iff` — **a run keeps all routes exactly when its steps are apart**.
-/

import Darkmatter.Groups.Hydration
import Darkmatter.Groups.Welcome
import Darkmatter.Lib.Window

namespace Darkmatter

open Std Lib

/-! ### Steps -/

/-- What a client does that concerns the transport ids of its groups. A commit is given by the group
it leads to. -/
inductive RoutingStep
  | create (group : LiveGroup) (record : GroupRecord)
  | join (message : TransportMessage)
  | commit (group : LiveGroup)
  | restart

namespace Client

section Steps

variable (context : ClientContext) (codec : WelcomeCodec) (client : Client)

/-- A group is created: its state, its record and its transport id are entered. -/
def createGroup (group : LiveGroup) (record : GroupRecord) : Client :=
  { client with
    live := client.live.insert group.groupId group
    records := client.records.insert group.groupId record }.indexGroup context group.groupId
      group.toMlsGroup

/-- A commit is applied: the record follows the group, if it has one, and the group is indexed
again. -/
def applyCommit (group : LiveGroup) : Client :=
  { client with
    live := client.live.insert group.groupId group
    records := match client.records[group.groupId]? with
      | some record => client.records.insert group.groupId (mirrorGroup context group record)
      | none => client.records }.reindexTransportGroupId context group.groupId

def routingStep : RoutingStep → Client
  | .create group record => client.createGroup context group record
  | .join message => (client.doJoinWelcome context codec message).2
  | .commit group => client.applyCommit context group
  | .restart => client.restart context

def routingRun (steps : List RoutingStep) : Client :=
  steps.foldl (fun client step => client.routingStep context codec step) client

/-- The group that a step is about. -/
def routingActor : RoutingStep → Option Bytes
  | .create group _ | .commit group => some group.groupId
  | .join message => (client.welcomedGroup context codec message).map Prod.fst
  | .restart => none

/-! ### Routes -/

/-- **The group holds the transport id**: it is its current one, or the index has the group under
it. -/
def Holds (groupId transportGroupId : Bytes) : Prop :=
  groupId ∈ client.records ∧
    (client.transportGroupIdIndex[transportGroupId]? = some groupId ∨
      ∃ group, client.live[groupId]? = some group ∧
        transportGroupIdOfGroup context group.toMlsGroup = .ok transportGroupId)

/-- **The step keeps the routes.** A step of a group leaves what the ids of other groups stand for; a
restart leaves what any id stands for. -/
def KeepsRoutes (step : RoutingStep) : Prop :=
  match step with
  | .restart => ∀ transportGroupId,
      (client.restart context).groupIdForTransportGroupId transportGroupId =
        client.groupIdForTransportGroupId transportGroupId
  | step => ∀ groupId transportGroupId,
      client.routingActor context codec step ≠ some groupId →
      client.Holds context groupId transportGroupId →
      (client.routingStep context codec step).groupIdForTransportGroupId transportGroupId =
        client.groupIdForTransportGroupId transportGroupId

/-- The id is free for the group: no other group holds it, unless it stands for this group
already. -/
def FreeFor (groupId transportGroupId : Bytes) : Prop :=
  ∀ other, other ≠ groupId → client.Holds context other transportGroupId →
    client.groupIdForTransportGroupId transportGroupId = groupId

/-- The transport id that the group takes is free, or it is the own id of a group of the client. -/
def RoutesApart (groupId : Bytes) (group : MlsGroup) : Prop :=
  ∀ transportGroupId, transportGroupIdOfGroup context group = .ok transportGroupId →
    transportGroupId ∈ client.records ∨ client.FreeFor context groupId transportGroupId

/-- **The step is apart from the other groups.** A new group has an id and a transport id that are
free, a commit a transport id that is free; at a restart, the index has every id that is not a
group's own under the last group whose current id it is. -/
def Apart : RoutingStep → Prop
  | .create group _ =>
    client.FreeFor context group.groupId group.groupId ∧
      client.RoutesApart context group.groupId group.toMlsGroup
  | .join message => ∀ groupId group,
    client.welcomedGroup context codec message = some (groupId, group) →
      client.FreeFor context groupId groupId ∧ client.RoutesApart context groupId group.toMlsGroup
  | .commit group => client.RoutesApart context group.groupId group.toMlsGroup
  | .restart => ∀ transportGroupId, transportGroupId ∉ client.records →
    client.transportGroupIdIndex[transportGroupId]?.getD transportGroupId =
      (client.openedHolder context transportGroupId).getD transportGroupId

end Steps

/-! ### One step -/

section OneStep

variable {context : ClientContext} {codec : WelcomeCodec} {client after : Client}
  {groupId transportGroupId : Bytes} {group : MlsGroup}

theorem groupIdFor_of_mem (recorded : transportGroupId ∈ client.records) :
    client.groupIdForTransportGroupId transportGroupId = transportGroupId :=
  if_pos recorded

theorem groupIdFor_of_not_mem (unrecorded : transportGroupId ∉ client.records) :
    client.groupIdForTransportGroupId transportGroupId =
      client.transportGroupIdIndex[transportGroupId]?.getD transportGroupId :=
  if_neg unrecorded

theorem groupIdFor_congr
    (records : transportGroupId ∈ after.records ↔ transportGroupId ∈ client.records)
    (index : after.transportGroupIdIndex[transportGroupId]? =
      client.transportGroupIdIndex[transportGroupId]?) :
    after.groupIdForTransportGroupId transportGroupId =
      client.groupIdForTransportGroupId transportGroupId := by
  unfold groupIdForTransportGroupId
  simp only [records, index]

/-- **A group is entered**, with a record of its own or without. The routes of the other groups are
kept exactly when what is entered is free. -/
theorem enters_iff (isNew : Prop)
    (records : ∀ id, id ∈ after.records ↔ (isNew ∧ id = groupId) ∨ id ∈ client.records)
    (index : ∀ id, after.transportGroupIdIndex[id]? =
      if transportGroupIdOfGroup context group = .ok id then some groupId
      else client.transportGroupIdIndex[id]?) :
    (∀ other id, some groupId ≠ some other → client.Holds context other id →
      after.groupIdForTransportGroupId id = client.groupIdForTransportGroupId id) ↔
    (isNew → client.FreeFor context groupId groupId) ∧ client.RoutesApart context groupId group := by
  constructor
  · intro kept
    refine ⟨fun new other different held => ?_, fun id routed => or_iff_not_imp_left.mpr
      fun unrecorded other different held => ?_⟩
    · rw [← kept other groupId (by simpa using different.symm) held]
      exact groupIdFor_of_mem ((records groupId).mpr (.inl ⟨new, rfl⟩))
    · rw [← kept other id (by simpa using different.symm) held]
      by_cases entered : id ∈ after.records
      · obtain ⟨-, rfl⟩ := ((records id).mp entered).resolve_right unrecorded
        exact groupIdFor_of_mem entered
      · rw [groupIdFor_of_not_mem entered, index, if_pos routed, Option.getD_some]
  · rintro ⟨own, routes⟩ other id different held
    have apart : other ≠ groupId := fun same => different (by rw [same])
    by_cases recorded : id ∈ client.records
    · rw [groupIdFor_of_mem recorded, groupIdFor_of_mem ((records id).mpr (.inr recorded))]
    by_cases entered : id ∈ after.records
    · obtain ⟨new, rfl⟩ := ((records id).mp entered).resolve_right recorded
      rw [groupIdFor_of_mem entered, own new other apart held]
    · by_cases routed : transportGroupIdOfGroup context group = .ok id
      · rw [groupIdFor_of_not_mem entered, index, if_pos routed, Option.getD_some,
          (routes id routed).resolve_left recorded other apart held]
      · refine groupIdFor_congr (iff_of_false entered recorded) ?_
        rw [index, if_neg routed]

theorem mem_insert_iff {α : Type} (table : Table Bytes α) (row : α) (id : Bytes) :
    id ∈ table.insert groupId row ↔ id = groupId ∨ id ∈ table := by
  rw [ExtTreeMap.mem_insert, LawfulEqOrd.compare_eq_iff_eq, eq_comm]

theorem applyCommit_eq (group : LiveGroup) :
    client.applyCommit context group =
      { client with
        live := client.live.insert group.groupId group
        records := match client.records[group.groupId]? with
          | some record => client.records.insert group.groupId (mirrorGroup context group record)
          | none => client.records }.indexGroup context group.groupId group.toMlsGroup := by
  unfold applyCommit reindexTransportGroupId
  simp only [ExtTreeMap.getElem?_insert_self]

theorem applyCommit_mem_records (group : LiveGroup) (id : Bytes) :
    id ∈ (client.applyCommit context group).records ↔ id ∈ client.records := by
  rw [applyCommit_eq, indexGroup_stored]
  dsimp only
  split
  · next record recorded =>
    rw [mem_insert_iff]
    refine or_iff_right_of_imp ?_
    rintro rfl
    rw [← ExtTreeMap.isSome_getElem?_iff_mem]
    exact Option.isSome_of_eq_some recorded
  · rfl

theorem join_keepsRoutes_iff (message : TransportMessage) :
    client.KeepsRoutes context codec (.join message) ↔
      client.Apart context codec (.join message) := by
  cases welcomed : client.welcomedGroup context codec message with
  | none =>
    obtain ⟨records, index⟩ := doJoinWelcome_unwelcomed welcomed
    refine iff_of_true (fun groupId id _ _ => groupIdFor_congr ?_ ?_) fun groupId group brings => ?_
    · rw [routingStep, records]
    · rw [routingStep, index]
    · rw [welcomed] at brings
      cases brings
  | some brought =>
    obtain ⟨groupId, group⟩ := brought
    obtain ⟨⟨_, records⟩, index⟩ := doJoinWelcome_welcomed welcomed
    have actor : client.routingActor context codec (.join message) = some groupId := by
      rw [routingActor, welcomed]
      rfl
    have apart : client.Apart context codec (.join message) ↔
        client.FreeFor context groupId groupId ∧
          client.RoutesApart context groupId group.toMlsGroup := by
      simp only [Apart, welcomed, Option.some.injEq, Prod.mk.injEq, and_imp]
      exact ⟨fun free => free groupId group rfl rfl, by rintro free _ _ rfl rfl; exact free⟩
    rw [apart]
    simp only [KeepsRoutes, actor]
    refine (enters_iff True (fun id => ?_) index).trans (and_congr_left' true_imp_iff)
    rw [records, mem_insert_iff, true_and]

theorem restart_keepsRoutes_iff :
    client.KeepsRoutes context codec .restart ↔ client.Apart context codec .restart := by
  refine forall_congr' fun id => ?_
  by_cases recorded : id ∈ client.records
  · rw [groupIdFor_of_mem recorded,
      groupIdFor_of_mem ((restart_mem_records context client id).mpr recorded)]
    exact iff_of_true rfl fun unrecorded => absurd recorded unrecorded
  · rw [groupIdFor_of_not_mem recorded,
      groupIdFor_of_not_mem ((restart_mem_records context client id).not.mpr recorded),
      restart_lookup, eq_comm]
    exact ⟨fun same _ => same, fun same => same recorded⟩

/-- **A step keeps the routes exactly when it is apart.** -/
theorem keepsRoutes_iff (step : RoutingStep) :
    client.KeepsRoutes context codec step ↔ client.Apart context codec step := by
  cases step with
  | create =>
    refine (enters_iff True (fun id => ?_) fun id => ?_).trans (and_congr_left' true_imp_iff)
    · rw [routingStep, createGroup, indexGroup_stored, mem_insert_iff, true_and]
    · exact indexGroup_lookup _ _ _ _ _
  | join message => exact join_keepsRoutes_iff message
  | commit group =>
    refine (enters_iff False (fun id => ?_) fun id => ?_).trans (and_iff_right False.elim)
    · rw [false_and, false_or]
      exact applyCommit_mem_records group id
    · rw [routingStep, applyCommit_eq]
      exact indexGroup_lookup _ _ _ _ _
  | restart => exact restart_keepsRoutes_iff

end OneStep

end Client

/-! ### Runs -/

/-- **A run keeps all routes exactly when its steps are apart.** -/
theorem routes_kept_iff (context : ClientContext) (codec : WelcomeCodec) (client : Client)
    (steps : List RoutingStep) :
    EveryStep (fun done step =>
        (client.routingRun context codec done).KeepsRoutes context codec step) steps ↔
      EveryStep (fun done step =>
        (client.routingRun context codec done).Apart context codec step) steps :=
  forall_congr' fun _ => forall_congr' fun step => imp_congr_right fun _ =>
    Client.keepsRoutes_iff step

/-! ### Ids that collide -/

/-- A group of the admin and the client with a routing component. -/
def routedGroup (groupId routing : Bytes) : LiveGroup :=
  { invitingGroup with
    groupId := groupId
    appDataDictionary := invitingGroup.appDataDictionary.map fun dictionary =>
      dictionary.insert nostrRoutingComponentId routing }

/-- Welcomes of the admin to groups that are routed under a given id; the payload is the id of the
group. -/
def routedWelcomes (routing : Bytes) : WelcomeCodec :=
  { signedWelcomes with
    processWelcome := .ok
    stageWelcome := fun welcome =>
      .ok ⟨.ok ⟨.basic sampleKey, [2], none⟩, .ok (routedGroup welcome routing)⟩ }

def welcomeTo (groupId : Bytes) : TransportMessage := ⟨"welcome", groupId, [], .welcome invitedId⟩

/-- A client with one group, which is routed under `[1]`. -/
def routedClient : Client :=
  emptyClient.createGroup openContext (routedGroup [7] [1]) ⟨"", "", 1, [], ⟨∅, ∅, ∅⟩⟩

/-- The client, after its group was routed under `[3]`. -/
def rotatedClient : Client := routedClient.applyCommit openContext (routedGroup [7] [3])

/-- **The routes of a group are taken by another group, and lost by a restart.** The id `[1]` stands
for the group `[7]`. A Welcome to a group `[8]` that is routed under `[1]` takes it, a Welcome to a
group whose own id is `[1]` takes it, and after a rotation a restart forgets it. -/
theorem routes_taken_and_lost :
    routedClient.groupIdForTransportGroupId [1] = [7] ∧
    (routedClient.routingStep openContext (routedWelcomes [1])
      (.join (welcomeTo [8]))).groupIdForTransportGroupId [1] = [8] ∧
    (routedClient.routingStep openContext (routedWelcomes [2])
      (.join (welcomeTo [1]))).groupIdForTransportGroupId [1] = [1] ∧
    rotatedClient.groupIdForTransportGroupId [1] = [7] ∧
    (rotatedClient.routingStep openContext (routedWelcomes [2])
      .restart).groupIdForTransportGroupId [1] = [1] ∧
    ¬ routedClient.KeepsRoutes openContext (routedWelcomes [1]) (.join (welcomeTo [8])) ∧
    ¬ routedClient.KeepsRoutes openContext (routedWelcomes [2]) (.join (welcomeTo [1])) ∧
    ¬ rotatedClient.KeepsRoutes openContext (routedWelcomes [2]) .restart := by
  have first : routedClient.groupIdForTransportGroupId [1] = [7] := by decide +kernel
  have routed : (routedClient.routingStep openContext (routedWelcomes [1])
      (.join (welcomeTo [8]))).groupIdForTransportGroupId [1] = [8] := by decide +kernel
  have named : (routedClient.routingStep openContext (routedWelcomes [2])
      (.join (welcomeTo [1]))).groupIdForTransportGroupId [1] = [1] := by decide +kernel
  have rotated : rotatedClient.groupIdForTransportGroupId [1] = [7] := by decide +kernel
  have forgotten : (rotatedClient.restart openContext).groupIdForTransportGroupId [1] = [1] := by
    decide +kernel
  have held : routedClient.Holds openContext [7] [1] := ⟨by decide +kernel, .inl (by decide +kernel)⟩
  refine ⟨first, routed, named, rotated, forgotten, fun kept => ?_, fun kept => ?_, fun kept => ?_⟩
  · have same := kept [7] [1] (by decide +kernel) held
    rw [routed, first] at same
    cases same
  · have same := kept [7] [1] (by decide +kernel) held
    rw [named, first] at same
    cases same
  · have same := kept [1]
    rw [forgotten, rotated] at same
    cases same

end Darkmatter
