/-
**What a restart leaves.**

The groups of the store are opened one after another. What is opened of a group depends on its own
rows only, and opening another group does not touch them; the index is the one thing they share.

* `Client.SameGroup` — a group is as it was;
* `restart_hydrated`, `restart_quarantined` — **what a restart leaves of one group**;
* `restart_lookup` — **the index after a restart**: the last group with a transport id has it.
-/

import Darkmatter.Groups.Client

namespace Darkmatter

open Std Lib Client

/-! ### One group -/

/-- The group is as it was, in the store and in memory. -/
structure Client.SameGroup (groupId : Bytes) (client after : Client) : Prop where
  live : after.live[groupId]? = client.live[groupId]?
  record : after.records[groupId]? = client.records[groupId]?
  marker : after.validatedTreeMarkers[groupId]? = client.validatedTreeMarkers[groupId]?
  epoch : after.epochManager.states groupId = client.epochManager.states groupId
  quarantine : after.quarantinedGroups[groupId]? = client.quarantinedGroups[groupId]?

theorem Client.SameGroup.refl (groupId : Bytes) (client : Client) :
    client.SameGroup groupId client :=
  ⟨rfl, rfl, rfl, rfl, rfl⟩

theorem Client.SameGroup.trans {groupId : Bytes} {client middle after : Client}
    (first : client.SameGroup groupId middle) (second : middle.SameGroup groupId after) :
    client.SameGroup groupId after :=
  ⟨second.live.trans first.live, second.record.trans first.record,
    second.marker.trans first.marker, second.epoch.trans first.epoch,
    second.quarantine.trans first.quarantine⟩

variable {context : ClientContext}

section OneGroup

variable {client : Client} {groupId other : Bytes}

theorem Client.SameGroup.hydration {after : Client} (same : client.SameGroup groupId after) :
    after.toStoredGroups.hydration context groupId =
      client.toStoredGroups.hydration context groupId := by
  unfold StoredGroups.hydration
  rw [same.live, same.record, same.marker]

variable {stored : StoredGroups} {hydrated : Hydrated}

/-- **The ways a group is opened**: as it is stored, or with a staged commit given up. -/
theorem hydration_cases (opens : stored.hydration context groupId = .ok hydrated) :
    ∃ group record, stored.live[groupId]? = some group ∧ stored.records[groupId]? = some record ∧
      ((group.recoversPending = true ∧ hydrated = ⟨group.clearPendingCommit,
          mirrorGroup context group.clearPendingCommit record, true⟩) ∨
        (group.recoversPending = false ∧ hydrated = ⟨group, record, false⟩)) := by
  unfold StoredGroups.hydration at opens
  split at opens
  · cases opens
  · next group live =>
    dsimp only at opens
    split at opens
    · cases opens
    · split at opens
      · cases opens
      · next record recorded =>
        refine ⟨group, record, live, recorded, ?_⟩
        split_ifs at opens with recovers
        · cases opens
          exact .inl ⟨recovers, rfl⟩
        · cases opens
          exact .inr ⟨by simpa using recovers, rfl⟩

theorem storeRecovered_sameGroup (hydrated : Hydrated) (apart : groupId ≠ other) :
    client.SameGroup other (client.storeRecovered groupId hydrated) := by
  unfold storeRecovered
  split_ifs
  · refine ⟨?_, ?_, rfl, rfl, rfl⟩
    · exact (getElem?_insert _ _ _ _).trans (if_neg apart)
    · exact (getElem?_insert _ _ _ _).trans (if_neg apart)
  · exact .refl other client

theorem markValidated_sameGroup (group : MlsGroup) (apart : groupId ≠ other) :
    client.SameGroup other (client.markValidated context groupId group) := by
  refine ⟨rfl, rfl, ?_, rfl, rfl⟩
  unfold markValidated
  dsimp only
  split
  · exact (getElem?_insert _ _ _ _).trans (if_neg apart)
  · rfl

theorem indexGroup_sameGroup (group : MlsGroup) :
    client.SameGroup other (client.indexGroup context groupId group) := by
  constructor <;> simp

theorem hydrateOneStoredGroup_sameGroup (apart : groupId ≠ other) :
    client.SameGroup other (client.hydrateOneStoredGroup context groupId) := by
  unfold hydrateOneStoredGroup
  split
  · refine ⟨rfl, rfl, rfl, rfl, ?_⟩
    simp [Client.quarantine, getElem?_insert, apart]
  · exact (((markValidated_sameGroup _ apart).trans (storeRecovered_sameGroup _ apart)).trans
      (indexGroup_sameGroup _)).trans
        ⟨rfl, rfl, rfl, Function.update_of_ne apart.symm _ _, rfl⟩

theorem hydrateGroups_sameGroup (context : ClientContext) (groups : List Bytes)
    (absent : other ∉ groups) (client : Client) :
    client.SameGroup other (groups.foldl (fun client groupId =>
      client.hydrateOneStoredGroup context groupId) client) := by
  induction groups generalizing client with
  | nil => exact .refl other client
  | cons groupId rest ih =>
    rw [List.mem_cons, not_or] at absent
    exact (hydrateOneStoredGroup_sameGroup (Ne.symm absent.1)).trans (ih absent.2 _)

theorem hydrateOneStoredGroup_self
    (opens : client.toStoredGroups.hydration context groupId = .ok hydrated) :
    (client.hydrateOneStoredGroup context groupId).live[groupId]? = some hydrated.group ∧
    (client.hydrateOneStoredGroup context groupId).records[groupId]? = some hydrated.record ∧
    (client.hydrateOneStoredGroup context groupId).epochManager.states groupId =
      some (.stable hydrated.record.epoch) ∧
    (client.hydrateOneStoredGroup context groupId).quarantinedGroups = client.quarantinedGroups := by
  obtain ⟨_, _, live, recorded, ⟨-, rfl⟩ | ⟨-, rfl⟩⟩ := hydration_cases opens
  all_goals
    rw [hydrateOneStoredGroup, opens]
    simp only [enterHydrated, indexGroup_stored, indexGroup_epochManager,
      indexGroup_quarantinedGroups, storeRecovered, markValidated]
    simp [EpochManager.setStable, EpochManager.setState, live, recorded]

end OneGroup

/-! ### The whole store -/

section Restart

variable {client : Client} {groupId : Bytes}

theorem restart_sameGroup (context : ClientContext) (recorded : groupId ∈ client.records) :
    ∃ before, client.toStoredGroups.opened.SameGroup groupId before ∧
      (before.hydrateOneStoredGroup context groupId).SameGroup groupId (client.restart context) := by
  have listed : groupId ∈ client.records.keys := ExtTreeMap.mem_keys.mpr recorded
  obtain ⟨earlier, later, split⟩ := List.append_of_mem listed
  have distinct := nodup_keys client.records
  rw [split, List.nodup_append, List.nodup_cons] at distinct
  obtain ⟨-, ⟨after, -⟩, across⟩ := distinct
  have before : groupId ∉ earlier := fun member =>
    across groupId member groupId List.mem_cons_self rfl
  refine ⟨_, hydrateGroups_sameGroup context earlier before client.toStoredGroups.opened, ?_⟩
  change Client.SameGroup groupId _ (client.records.keys.foldl _ _)
  rw [split, List.foldl_append, List.foldl_cons]
  exact hydrateGroups_sameGroup context later after _

/-- **A group that is opened**: its live state, its record, and a stable epoch. -/
theorem restart_hydrated (recorded : groupId ∈ client.records) {hydrated : Hydrated}
    (opens : client.toStoredGroups.hydration context groupId = .ok hydrated) :
    (client.restart context).live[groupId]? = some hydrated.group ∧
    (client.restart context).records[groupId]? = some hydrated.record ∧
    (client.restart context).epochManager.states groupId = some (.stable hydrated.record.epoch) ∧
    groupId ∉ (client.restart context).quarantinedGroups := by
  obtain ⟨before, same, after⟩ := restart_sameGroup context recorded
  have opensLater : before.toStoredGroups.hydration context groupId = .ok hydrated := by
    rw [same.hydration]
    exact opens
  obtain ⟨live, record, epoch, quarantine⟩ := hydrateOneStoredGroup_self opensLater
  refine ⟨by rw [after.live, live], by rw [after.record, record], by rw [after.epoch, epoch], ?_⟩
  rw [← ExtTreeMap.isSome_getElem?_iff_mem, after.quarantine, quarantine, same.quarantine]
  simp [StoredGroups.opened]

theorem restart_quarantined (recorded : groupId ∈ client.records)
    {reason : GroupHydrationQuarantineReason}
    (refused : client.toStoredGroups.hydration context groupId = .error reason) :
    groupId ∈ (client.restart context).quarantinedGroups := by
  obtain ⟨before, same, after⟩ := restart_sameGroup context recorded
  have refusedLater : before.toStoredGroups.hydration context groupId = .error reason := by
    rw [same.hydration]
    exact refused
  rw [← ExtTreeMap.isSome_getElem?_iff_mem, after.quarantine, hydrateOneStoredGroup, refusedLater]
  simp [Client.quarantine]

end Restart

theorem hydrateOneStoredGroup_mem_records (context : ClientContext) (client : Client)
    (groupId other : Bytes) :
    other ∈ (client.hydrateOneStoredGroup context groupId).records ↔ other ∈ client.records := by
  unfold hydrateOneStoredGroup
  cases opens : client.hydration context groupId with
  | error => rfl
  | ok =>
    obtain ⟨_, record, -, recorded, -⟩ := hydration_cases opens
    simp only [enterHydrated, indexGroup_stored, storeRecovered]
    split_ifs
    · rw [ExtTreeMap.mem_insert, LawfulEqOrd.compare_eq_iff_eq]
      refine or_iff_right_of_imp ?_
      rintro rfl
      rw [← ExtTreeMap.isSome_getElem?_iff_mem]
      exact Option.isSome_of_eq_some recorded
    · rfl

/-- A restart adds no record and drops none. -/
theorem restart_mem_records (context : ClientContext) (client : Client) (groupId : Bytes) :
    groupId ∈ (client.restart context).records ↔ groupId ∈ client.records := by
  have kept : ∀ (groups : List Bytes) (client : Client),
      groupId ∈ (groups.foldl (fun client groupId =>
        client.hydrateOneStoredGroup context groupId) client).records ↔
          groupId ∈ client.records := by
    intro groups
    induction groups with
    | nil => exact fun client => Iff.rfl
    | cons first rest ih =>
      intro client
      rw [List.foldl_cons, ih, hydrateOneStoredGroup_mem_records]
  exact kept client.records.keys client.toStoredGroups.opened

/-! ### The index -/

/-- The transport id under which a group is entered when it is opened. -/
def StoredGroups.openedTransportGroupId (context : ClientContext) (stored : StoredGroups)
    (groupId : Bytes) : Option Bytes :=
  match stored.hydration context groupId with
  | .ok hydrated => (transportGroupIdOfGroup context hydrated.group.toMlsGroup).toOption
  | .error _ => none

/-- The last group, in the order of the ids, that is entered under a transport id. -/
def StoredGroups.openedHolder (context : ClientContext) (stored : StoredGroups)
    (transportGroupId : Bytes) : Option Bytes :=
  stored.records.keys.reverse.find? fun groupId =>
    stored.openedTransportGroupId context groupId = some transportGroupId

theorem hydrateOneStoredGroup_lookup (client : Client) (groupId transportGroupId : Bytes) :
    (client.hydrateOneStoredGroup context groupId).transportGroupIdIndex[transportGroupId]? =
      if client.openedTransportGroupId context groupId = some transportGroupId then some groupId
      else client.transportGroupIdIndex[transportGroupId]? := by
  unfold hydrateOneStoredGroup StoredGroups.openedTransportGroupId
  cases opens : client.hydration context groupId with
  | error => simp [Client.quarantine]
  | ok hydrated =>
    have index : ((client.markValidated context groupId hydrated.group.toMlsGroup).storeRecovered
        groupId hydrated).transportGroupIdIndex = client.transportGroupIdIndex := by
      unfold storeRecovered
      split <;> rfl
    simp only [enterHydrated, indexGroup_lookup, index]
    congr 1
    rw [eq_iff_iff]
    cases transportGroupIdOfGroup context hydrated.group.toMlsGroup <;> simp [Except.toOption]

theorem hydrateGroups_lookup (groups : List Bytes) (distinct : groups.Nodup) (client : Client)
    (transportGroupId : Bytes) :
    (groups.foldl (fun client groupId =>
      client.hydrateOneStoredGroup context groupId) client).transportGroupIdIndex[
        transportGroupId]? =
      (groups.reverse.find? fun groupId =>
        client.openedTransportGroupId context groupId = some transportGroupId).or
          client.transportGroupIdIndex[transportGroupId]? := by
  induction groups generalizing client with
  | nil => rfl
  | cons groupId rest ih =>
    rw [List.nodup_cons] at distinct
    rw [List.foldl_cons, ih distinct.2, hydrateOneStoredGroup_lookup, List.reverse_cons,
      List.find?_append, Option.or_assoc]
    -- the groups that follow are opened as if this one had not been
    have apart : ∀ other ∈ rest.reverse,
        (client.hydrateOneStoredGroup context groupId).openedTransportGroupId context other =
          client.openedTransportGroupId context other := by
      intro other listed
      have different : groupId ≠ other := by
        rintro rfl
        exact distinct.1 (List.mem_reverse.mp listed)
      unfold StoredGroups.openedTransportGroupId
      rw [(hydrateOneStoredGroup_sameGroup different).hydration]
    rw [List.find?_congr fun other listed => by rw [apart other listed]]
    congr 1
    split_ifs with here <;> simp [here]

/-- **The index after a restart**: the last group that is entered under a transport id has it. -/
theorem restart_lookup (context : ClientContext) (client : Client) (transportGroupId : Bytes) :
    (client.restart context).transportGroupIdIndex[transportGroupId]? =
      client.openedHolder context transportGroupId := by
  refine (hydrateGroups_lookup client.records.keys (nodup_keys client.records)
    client.toStoredGroups.opened transportGroupId).trans ?_
  change (client.openedHolder context transportGroupId).or
    (∅ : Table Bytes Bytes)[transportGroupId]? = _
  rw [ExtTreeMap.getElem?_empty, Option.or_none]

end Darkmatter
