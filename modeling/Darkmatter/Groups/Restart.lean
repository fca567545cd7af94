/-
**Crashes between staging a commit and resolving its publication.**

A commit is staged in the MLS store, the record of the group is projected forward, and only then the
client holds a reference to the pending publication, in memory. Confirming merges the commit and
refreshes the record in one transaction; giving it up clears the commit first and refreshes the
record afterwards. A crash can come after any transaction of any group.

* `StoreWrite` — the transactions, `Intent.sendWrites` — those of every way to send a commit;
* `CrashPoint` — how far an attempt got;
* `Client.Settled` — record, live group and epoch agree, and no staged commit is out of reach;
* `settled_iff` — what a restart settles;
* `restart_settles_iff` — **a restart settles every group exactly when every interrupted attempt is
  one that hydration can take back**.
-/

import Darkmatter.Groups.Hydration
import Darkmatter.Groups.Welcome

namespace Darkmatter

open Std Lib List ExtTreeMap

/-! ### Transactions -/

/-- A transaction on the rows of one group. Merging the staged commit refreshes the record. -/
inductive StoreWrite
  | newGroup (group : LiveGroup)
  | stageCommit (change : PendingChange)
  | putGroup (record : GroupRecord)
  | mergePending
  | clearPending
  | mirrorRecord

/-- The rows of a group: its live state and its record. -/
structure GroupRows where
  live : Option LiveGroup
  record : Option GroupRecord

def GroupRows.write (context : ClientContext) (rows : GroupRows) : StoreWrite → GroupRows
  | .newGroup group => { rows with live := some group }
  | .stageCommit change =>
    { rows with live := rows.live.map fun group => { group with pendingCommit := some change } }
  | .putGroup record => { rows with record := some record }
  | .mergePending =>
    match rows.live, rows.record with
    | some group, some record =>
      ⟨some group.mergePendingCommit, some (mirrorGroup context group.mergePendingCommit record)⟩
    | _, _ => rows
  | .clearPending => { rows with live := rows.live.map LiveGroup.clearPendingCommit }
  | .mirrorRecord =>
    match rows.live, rows.record with
    | some group, some record => { rows with record := some (mirrorGroup context group record) }
    | _, _ => rows

def StoredGroups.rows (stored : StoredGroups) (groupId : Bytes) : GroupRows :=
  ⟨stored.live[groupId]?, stored.records[groupId]?⟩

/-- A transaction on the store. -/
def StoredGroups.write (context : ClientContext) (stored : StoredGroups) (groupId : Bytes)
    (write : StoreWrite) : StoredGroups :=
  let rows := (stored.rows groupId).write context write
  { stored with
    live := match rows.live with
      | some group => stored.live.insert groupId group
      | none => stored.live
    records := match rows.record with
      | some record => stored.records.insert groupId record
      | none => stored.records }

/-- The transactions of all groups, in the order in which they were made. -/
def StoredGroups.writeAll (context : ClientContext) (stored : StoredGroups)
    (log : List (Bytes × StoreWrite)) : StoredGroups :=
  log.foldl (fun stored entry => stored.write context entry.1 entry.2) stored

def writesOf (groupId : Bytes) (log : List (Bytes × StoreWrite)) : List StoreWrite :=
  (log.filter fun entry => entry.1 = groupId).map Prod.snd

/-! ### Sending a commit -/

/-- The members of the group and the invited leaves. -/
def projectedMembersWithPending (group : MlsGroup) (invitees : List LeafNode) : List Member :=
  invitees.foldl (fun members leaf =>
    match basicIdentity leaf.credential with
    | some identity =>
      if members.any fun member => member.id = identity then members
      else members ++ [⟨identity, leaf.signatureKey⟩]
    | none => members) (marmotMembers group)

/-- **The ways to send a commit**, with the commit that OpenMLS stages. A group that is created
without other members stages none. -/
inductive Intent
  | createGroup (group : LiveGroup) (name description : String) (invitees : List LeafNode)
      (change : Option PendingChange)
  | invite (invitees : List LeafNode) (change : PendingChange)
  | removeMembers (targets : List Bytes) (change : PendingChange)
  | updateGroupData (profile : Option (String × String)) (change : PendingChange)
  | upgrade (change : PendingChange)
  | autoCommit (removed : List Bytes) (change : PendingChange)

/-- **The transactions of a send**, from the group and the record that it finds. The record is
projected forward in a different way for every intent. -/
def Intent.sendWrites (group : LiveGroup) (record : GroupRecord) : Intent → List StoreWrite
  | .createGroup new name description invitees change =>
    .newGroup new :: change.toList.map .stageCommit ++
      [.putGroup
        { name := name
          description := description
          epoch := new.epoch
          members := projectedMembersWithPending new.toMlsGroup invitees
          requiredCapabilities := requiredCapabilitiesFromGroup new }]
  | .invite invitees change =>
    [.stageCommit change,
      .putGroup
        { record with members := projectedMembersWithPending group.toMlsGroup invitees }]
  | .removeMembers targets change =>
    [.stageCommit change,
      .putGroup { record with members := record.members.filter fun member => member.id ∉ targets }]
  | .updateGroupData profile change =>
    [.stageCommit change,
      .putGroup (match profile with
        | some (name, description) => { record with name := name, description := description }
        | none => record)]
  | .upgrade change => [.stageCommit change]
  | .autoCommit removed change =>
    [.stageCommit change,
      .putGroup
        { record with
          epoch := group.epoch + 1
          members := record.members.filter fun member => member.id ∉ removed }]

/-- **How far an attempt got**: some transactions of the send; after some of them the staged commit
was cleared, by a failed publication or by the guard of a send that returns early; the record
followed the cleared group; or the commit was confirmed. -/
inductive CrashPoint
  | sending (writes : Nat)
  | cleared (writes : Nat)
  | failed
  | confirmed

/-- An attempt to commit: the group and the record that it found, and how far it got. -/
structure Attempt where
  group : LiveGroup
  record : GroupRecord
  intent : Intent
  point : CrashPoint

namespace Attempt

variable (attempt : Attempt)

def sendWrites : List StoreWrite :=
  attempt.intent.sendWrites attempt.group attempt.record

def done : List StoreWrite :=
  match attempt.point with
  | .sending writes => attempt.sendWrites.take writes
  | .cleared writes => attempt.sendWrites.take writes ++ [.clearPending]
  | .failed => attempt.sendWrites ++ [.clearPending, .mirrorRecord]
  | .confirmed => attempt.sendWrites ++ [.mergePending]

/-- **Hydration can take the attempt back**: a commit that is still staged removes no member, and a
record that is left behind by a cleared commit was projected to what the group is. -/
def Survives : Prop :=
  match attempt.point with
  | .sending writes => ∀ change, .stageCommit change ∈ attempt.sendWrites.take writes →
      change.removesMember = false
  | .cleared writes => ∀ projected, .putGroup projected ∈ attempt.sendWrites.take writes →
      projected.epoch = attempt.group.epoch ∧
        projected.members = marmotMembers attempt.group.toMlsGroup
  | .failed | .confirmed => True

end Attempt

/-! ### What a restart settles -/

/-- Some reference to a pending publication is taken by confirming and by giving up. -/
def EpochManager.Resolvable (manager : EpochManager Bytes Bytes TransportMessage)
    (groupId : Bytes) : Prop :=
  ∃ pendingRef epoch priorEpoch, (manager.confirmPublish pendingRef).1 = .ok (groupId, epoch) ∧
    (manager.rollbackPublish pendingRef).1 = .ok (groupId, priorEpoch)

/-- **The group is settled.** -/
def Client.Settled (client : Client) (groupId : Bytes) : Prop :=
  ∃ group record, client.live[groupId]? = some group ∧ client.records[groupId]? = some record ∧
    record.epoch = group.epoch ∧ record.members = marmotMembers group.toMlsGroup ∧
    client.epochManager.states groupId = some (.stable group.epoch) ∧
    (group.pendingCommit = none ∨ client.epochManager.Resolvable groupId)

/-- The record is that of the group, and nothing is staged. -/
def Synced (group : LiveGroup) (record : GroupRecord) : Prop :=
  group.pendingCommit = none ∧ record.epoch = group.epoch ∧
    record.members = marmotMembers group.toMlsGroup

variable {context : ClientContext} {record : GroupRecord}

section Settling

variable {client : Client} {groupId : Bytes}

theorem hydrateOneStoredGroup_pending (context : ClientContext) (client : Client)
    (groupId : Bytes) :
    (client.hydrateOneStoredGroup context groupId).epochManager.pending =
      client.epochManager.pending := by
  unfold Client.hydrateOneStoredGroup
  split
  · rfl
  · simp only [Client.enterHydrated, Client.indexGroup_epochManager, EpochManager.setStable,
      EpochManager.setState, Client.storeRecovered]
    split <;> rfl

theorem restart_pending (context : ClientContext) (client : Client) (pendingRef : Nat) :
    (client.restart context).epochManager.pending pendingRef = none := by
  have kept : ∀ (groups : List Bytes) (client : Client),
      (groups.foldl (fun client groupId =>
        client.hydrateOneStoredGroup context groupId) client).epochManager.pending =
          client.epochManager.pending := by
    intro groups
    induction groups with
    | nil => exact fun client => rfl
    | cons first rest ih =>
      intro client
      rw [foldl_cons, ih, hydrateOneStoredGroup_pending]
  exact congrFun (kept client.records.keys client.toStoredGroups.opened) pendingRef

theorem restart_not_resolvable (context : ClientContext) (client : Client) (groupId : Bytes) :
    ¬ (client.restart context).epochManager.Resolvable groupId := by
  rintro ⟨_, _, _, confirmed, -⟩
  rw [EpochManager.confirmPublish, EpochManager.settlePublish, restart_pending] at confirmed
  cases confirmed

/-- **What a restart settles**: a group whose staged commit it gives up, or that is in order. -/
theorem settled_iff {hydrated : Hydrated} {group : LiveGroup}
    (live : client.live[groupId]? = some group) (recorded : client.records[groupId]? = some record)
    (opens : client.toStoredGroups.hydration context groupId = .ok hydrated) :
    (client.restart context).Settled groupId ↔
      group.recoversPending = true ∨ Synced group record := by
  have member : groupId ∈ client.records := by
    rw [← isSome_getElem?_iff_mem]
    exact Option.isSome_of_eq_some recorded
  obtain ⟨liveAfter, recordAfter, epochAfter, -⟩ := restart_hydrated member opens
  have unreachable := restart_not_resolvable context client groupId
  obtain ⟨group', record', live', recorded', ⟨recovers, rfl⟩ | ⟨stays, rfl⟩⟩ :=
    hydration_cases opens
  all_goals
    obtain rfl : group = group' := Option.some.inj (live.symm.trans live')
    obtain rfl : record = record' := Option.some.inj (recorded.symm.trans recorded')
  · refine iff_of_true ⟨_, _, liveAfter, recordAfter, ?_, ?_, ?_, .inl rfl⟩ (.inl recovers)
    · exact mirrorGroup_epoch _ _ _
    · exact mirrorGroup_members _ _ _
    · rw [epochAfter, mirrorGroup_epoch]
  · constructor
    · rintro ⟨group', record', live', recorded', epoch, members, -, pending⟩
      obtain rfl : group = group' := Option.some.inj (liveAfter.symm.trans live')
      obtain rfl : record = record' := Option.some.inj (recordAfter.symm.trans recorded')
      exact .inr ⟨pending.resolve_right unreachable, epoch, members⟩
    · rintro (recovers | ⟨pending, epoch, members⟩)
      · rw [recovers] at stays
        cases stays
      · exact ⟨_, _, liveAfter, recordAfter, epoch, members, by rw [epochAfter, epoch], .inl pending⟩

end Settling

/-! ### The rows of a group -/

section Rows

variable {stored : StoredGroups} {groupId other : Bytes} {rows : GroupRows} {write : StoreWrite}

theorem GroupRows.write_live_none (none : (rows.write context write).live = none) :
    rows.live = .none := by
  obtain ⟨live, record⟩ := rows
  cases write <;> cases live <;> cases record <;> simp_all [GroupRows.write]

theorem GroupRows.write_record_none (none : (rows.write context write).record = none) :
    rows.record = .none := by
  obtain ⟨live, record⟩ := rows
  cases write <;> cases live <;> cases record <;> simp_all [GroupRows.write]

theorem StoredGroups.write_rows_self (write : StoreWrite) :
    (stored.write context groupId write).rows groupId =
      (stored.rows groupId).write context write := by
  have live : (stored.write context groupId write).live[groupId]? =
      ((stored.rows groupId).write context write).live := by
    unfold StoredGroups.write
    dsimp only
    split
    · next group there => rw [there, getElem?_insert_self]
    · next absent => rw [absent]; exact GroupRows.write_live_none absent
  have record : (stored.write context groupId write).records[groupId]? =
      ((stored.rows groupId).write context write).record := by
    unfold StoredGroups.write
    dsimp only
    split
    · next record there => rw [there, getElem?_insert_self]
    · next absent => rw [absent]; exact GroupRows.write_record_none absent
  rw [StoredGroups.rows, live, record]

theorem StoredGroups.write_rows_other (write : StoreWrite) (apart : groupId ≠ other) :
    (stored.write context groupId write).rows other = stored.rows other := by
  have live : (stored.write context groupId write).live[other]? = stored.live[other]? := by
    unfold StoredGroups.write
    dsimp only
    split
    · exact (getElem?_insert _ _ _ _).trans (if_neg apart)
    · rfl
  have record : (stored.write context groupId write).records[other]? = stored.records[other]? := by
    unfold StoredGroups.write
    dsimp only
    split
    · exact (getElem?_insert _ _ _ _).trans (if_neg apart)
    · rfl
  rw [StoredGroups.rows, live, record, StoredGroups.rows]

/-- **The rows of a group are made by its own transactions**, however those of other groups come in
between. -/
theorem StoredGroups.writeAll_rows (log : List (Bytes × StoreWrite)) (stored : StoredGroups)
    (groupId : Bytes) :
    (stored.writeAll context log).rows groupId =
      (writesOf groupId log).foldl (GroupRows.write context) (stored.rows groupId) := by
  induction log generalizing stored with
  | nil => rfl
  | cons entry rest ih =>
    obtain ⟨writer, write⟩ := entry
    change ((stored.write context writer write).writeAll context rest).rows groupId = _
    rw [ih]
    by_cases own : writer = groupId
    · subst own
      simp [writesOf, StoredGroups.write_rows_self]
    · simp [writesOf, own, StoredGroups.write_rows_other write own]

end Rows

/-! ### Interrupted attempts -/

def Intent.isCreate : Intent → Bool
  | .createGroup _ _ _ _ _ => true
  | _ => false

/-- What an attempt starts from: no rows for a new group, whose commit, if others are invited, only
adds members; else a group in order. The tree of the group is valid. -/
inductive Attempt.Ready (context : ClientContext) (attempt : Attempt) (rows : GroupRows) : Prop
  | new {name description : String} {invitees : List LeafNode} {change : Option PendingChange}
      (intent : attempt.intent = .createGroup attempt.group name description invitees change)
      (absent : rows = ⟨none, none⟩) (unstaged : attempt.group.pendingCommit = none)
      (adds : ∀ staged, change = some staged → staged.removesMember = false)
      (alone : change = none → invitees = [])
      (valid : validateMemberCredentialsAndAccountProofs context attempt.group.toMlsGroup = .ok ())
  | known (intent : attempt.intent.isCreate = false)
      (present : rows = ⟨some attempt.group, some attempt.record⟩)
      (synced : Synced attempt.group attempt.record)
      (valid : validateMemberCredentialsAndAccountProofs context attempt.group.toMlsGroup = .ok ())

/-- **What an attempt leaves**: no record yet; or a group and a record that a restart settles exactly
when the attempt survives. A group that is not settled has the tree it had. -/
inductive Attempt.Leaves (attempt : Attempt) (rows : GroupRows) : Prop
  | unrecorded (unrecorded : rows.record = none) (survives : attempt.Survives)
  | recorded {group : LiveGroup} {record : GroupRecord} (present : rows = ⟨some group, some record⟩)
      (survives : attempt.Survives ↔ group.recoversPending = true ∨ Synced group record)
      (tree : ¬ attempt.Survives → group.toMlsGroup = attempt.group.toMlsGroup)

section Attempts

variable {attempt : Attempt} {rows : GroupRows} {group : LiveGroup}

theorem synced_mirrorGroup (unstaged : group.pendingCommit = none) (record : GroupRecord) :
    Synced group (mirrorGroup context group record) :=
  ⟨unstaged, mirrorGroup_epoch _ _ _, mirrorGroup_members _ _ _⟩

theorem mergePendingCommit_unstaged (group : LiveGroup) :
    group.mergePendingCommit.pendingCommit = none := by
  unfold LiveGroup.mergePendingCommit
  split
  · assumption
  · rfl

/-- Every intent of a known group stages its commit and then projects the record, or leaves it. -/
theorem Intent.sendWrites_known {intent : Intent} (known : intent.isCreate = false)
    (group : LiveGroup) (record : GroupRecord) :
    ∃ change, intent.sendWrites group record = [.stageCommit change] ∨
      ∃ projected, intent.sendWrites group record = [.stageCommit change, .putGroup projected] := by
  cases intent with
  | createGroup => cases known
  | upgrade change => exact ⟨change, .inl rfl⟩
  | invite _ change | removeMembers _ change | updateGroupData _ change | autoCommit _ change =>
    exact ⟨change, .inr ⟨_, rfl⟩⟩

theorem with_pendingCommit_none (unstaged : group.pendingCommit = none) :
    { group with pendingCommit := none } = group := by
  rw [← unstaged]

/-- **The rows while a commit is sent**: no record yet, and the end of the send not reached; or the
group with what is staged, and the record as it is projected. -/
inductive Attempt.Sent (attempt : Attempt) (done : List StoreWrite) (rows : GroupRows) : Prop
  | unrecorded (unrecorded : rows.record = none)
      (projects : ∀ projected, .putGroup projected ∉ done)
      (adds : ∀ change, .stageCommit change ∈ done → change.removesMember = false)
      (short : done ≠ attempt.sendWrites)
  | recorded (pending : Option PendingChange) (record : GroupRecord)
      (present : rows = ⟨some { attempt.group with pendingCommit := pending }, some record⟩)
      (staged : ∀ change, .stageCommit change ∈ done ↔ pending = some change)
      (unstaged : pending = none → Synced { attempt.group with pendingCommit := none } record)
      (projected : (∀ projected, .putGroup projected ∉ done) ∧
          Synced { attempt.group with pendingCommit := none } record ∨
        ∀ projected, .putGroup projected ∈ done ↔ projected = record)

theorem Attempt.sent_known (intent : attempt.intent.isCreate = false)
    (synced : Synced attempt.group attempt.record) (writes : Nat) :
    attempt.Sent (attempt.sendWrites.take writes)
      ((attempt.sendWrites.take writes).foldl (GroupRows.write context)
        ⟨some attempt.group, some attempt.record⟩) := by
  have same := with_pendingCommit_none synced.1
  have synced' : Synced { attempt.group with pendingCommit := none } attempt.record := by
    rwa [same]
  rcases writes with _ | writes
  · exact .recorded none attempt.record (by rw [same]; rfl) (by simp) (fun _ => synced')
      (.inl ⟨by simp, synced'⟩)
  obtain ⟨change, shape | ⟨projected, shape⟩⟩ :=
    Intent.sendWrites_known intent attempt.group attempt.record
  · rw [Attempt.sendWrites, shape]
    exact .recorded (some change) attempt.record (by simp [GroupRows.write]) (by simp [eq_comm])
      (by simp) (.inl ⟨by simp, synced'⟩)
  · rw [Attempt.sendWrites, shape]
    rcases writes with _ | _
    · exact .recorded (some change) attempt.record (by simp [GroupRows.write]) (by simp [eq_comm])
        (by simp) (.inl ⟨by simp, synced'⟩)
    · exact .recorded (some change) projected (by simp [GroupRows.write]) (by simp [eq_comm])
        (by simp) (.inr (by simp))

theorem Attempt.sent_new {name description : String} {invitees : List LeafNode}
    {change : Option PendingChange}
    (intent : attempt.intent = .createGroup attempt.group name description invitees change)
    (unstaged : attempt.group.pendingCommit = none)
    (adds : ∀ staged, change = some staged → staged.removesMember = false)
    (alone : change = none → invitees = []) (writes : Nat) :
    attempt.Sent (attempt.sendWrites.take writes)
      ((attempt.sendWrites.take writes).foldl (GroupRows.write context) ⟨none, none⟩) := by
  have same := with_pendingCommit_none unstaged
  obtain ⟨projected, shape, epoch, members⟩ : ∃ projected,
      attempt.sendWrites = .newGroup attempt.group :: (change.toList.map .stageCommit ++
        [.putGroup projected]) ∧ projected.epoch = attempt.group.epoch ∧
      projected.members = projectedMembersWithPending attempt.group.toMlsGroup invitees :=
    ⟨_, by rw [Attempt.sendWrites, intent]; rfl, rfl, rfl⟩
  cases change with
  | none =>
    have synced : Synced { attempt.group with pendingCommit := none } projected :=
      ⟨rfl, epoch, by rw [members, alone rfl]; rfl⟩
    rcases writes with _ | _ | writes
    · exact .unrecorded rfl (by simp) (by simp) (by simp [shape])
    · exact .unrecorded (by simp [shape, GroupRows.write]) (by simp [shape]) (by simp [shape])
        (by simp [shape])
    · exact .recorded none projected (by simp [shape, same, GroupRows.write]) (by simp [shape])
        (fun _ => synced) (.inr (by simp [shape]))
  | some staged =>
    have additive := adds staged rfl
    rcases writes with _ | _ | _ | _
    · exact .unrecorded rfl (by simp) (by simp) (by simp [shape])
    · exact .unrecorded (by simp [shape, GroupRows.write]) (by simp [shape]) (by simp [shape])
        (by simp [shape])
    · exact .unrecorded (by simp [shape, GroupRows.write]) (by simp [shape])
        (by simp [shape, additive]) (by simp [shape])
    · exact .recorded (some staged) projected (by simp [shape, GroupRows.write])
        (by simp [shape, eq_comm]) (by simp) (.inr (by simp [shape]))

theorem Attempt.Ready.sent (ready : attempt.Ready context rows) (writes : Nat) :
    attempt.Sent (attempt.sendWrites.take writes)
      ((attempt.sendWrites.take writes).foldl (GroupRows.write context) rows) := by
  cases ready with
  | new intent absent unstaged adds alone =>
    rw [absent]
    exact Attempt.sent_new intent unstaged adds alone writes
  | known intent present synced =>
    rw [present]
    exact Attempt.sent_known intent synced writes

theorem Attempt.Ready.sent_all (ready : attempt.Ready context rows) :
    ∃ pending record, attempt.sendWrites.foldl (GroupRows.write context) rows =
      ⟨some { attempt.group with pendingCommit := pending }, some record⟩ := by
  have sent := ready.sent attempt.sendWrites.length
  rw [take_length] at sent
  cases sent with
  | unrecorded unrecorded projects adds short => exact absurd rfl short
  | recorded pending record present => exact ⟨pending, record, present⟩

/-- **What an interrupted attempt leaves.** -/
theorem Attempt.Ready.leaves (ready : attempt.Ready context rows) :
    attempt.Leaves (attempt.done.foldl (GroupRows.write context) rows) := by
  cases point : attempt.point with
  | sending writes =>
    have done : attempt.done = attempt.sendWrites.take writes := by rw [Attempt.done, point]
    have survives : attempt.Survives ↔ ∀ change,
        .stageCommit change ∈ attempt.sendWrites.take writes → change.removesMember = false := by
      rw [Attempt.Survives, point]
    rw [done]
    cases ready.sent writes with
    | unrecorded unrecorded projects adds => exact .unrecorded unrecorded (survives.mpr adds)
    | recorded pending record present staged unstaged =>
      refine .recorded present ?_ fun _ => rfl
      rw [survives]
      simp only [staged]
      cases pending with
      | none => exact iff_of_true (by simp) (.inr (unstaged rfl))
      | some => simp [LiveGroup.recoversPending, Synced]
  | cleared writes =>
    have done : attempt.done = attempt.sendWrites.take writes ++ [.clearPending] := by
      rw [Attempt.done, point]
    have survives : attempt.Survives ↔ ∀ projected,
        .putGroup projected ∈ attempt.sendWrites.take writes →
          projected.epoch = attempt.group.epoch ∧
            projected.members = marmotMembers attempt.group.toMlsGroup := by
      rw [Attempt.Survives, point]
    rw [done, foldl_append]
    cases ready.sent writes with
    | unrecorded unrecorded projects =>
      exact .unrecorded unrecorded (survives.mpr fun projected listed =>
        absurd listed (projects projected))
    | recorded pending record present staged unstaged projected =>
      rw [present]
      refine .recorded rfl ?_ fun _ => rfl
      rw [survives]
      rcases projected with ⟨nothing, synced⟩ | projected
      · exact iff_of_true (fun projected listed => absurd listed (nothing projected)) (.inr synced)
      · simp [projected, LiveGroup.recoversPending, Synced, LiveGroup.clearPendingCommit]
  | failed =>
    have done : attempt.done = attempt.sendWrites ++ [.clearPending, .mirrorRecord] := by
      rw [Attempt.done, point]
    have survives : attempt.Survives := by rw [Attempt.Survives, point]; trivial
    obtain ⟨_, record, present⟩ := ready.sent_all
    rw [done, foldl_append, present]
    exact .recorded rfl (iff_of_true survives (.inr (synced_mirrorGroup rfl record)))
      (absurd survives)
  | confirmed =>
    have done : attempt.done = attempt.sendWrites ++ [.mergePending] := by
      rw [Attempt.done, point]
    have survives : attempt.Survives := by rw [Attempt.Survives, point]; trivial
    obtain ⟨_, record, present⟩ := ready.sent_all
    rw [done, foldl_append, present]
    exact .recorded rfl (iff_of_true survives
      (.inr (synced_mirrorGroup (mergePendingCommit_unstaged _) record))) (absurd survives)

end Attempts

/-! ### Crashes -/

/-- **A crash.** The groups of a store are in order, some of them begin an attempt, and the client is
left with the transactions of these attempts, in some order. -/
structure Crash (context : ClientContext) (stored : StoredGroups)
    (attempts : Bytes → Option Attempt) (log : List (Bytes × StoreWrite)) (client : Client) :
    Prop where
  ready : ∀ groupId attempt, attempts groupId = some attempt →
    attempt.Ready context (stored.rows groupId)
  idle : ∀ groupId group record, attempts groupId = none →
    stored.rows groupId = ⟨some group, some record⟩ → Synced group record
  logged : ∀ groupId, writesOf groupId log = ((attempts groupId).map Attempt.done).getD []
  store : client.toStoredGroups = stored.writeAll context log

section Crashes

variable {stored : StoredGroups} {attempts : Bytes → Option Attempt}
  {log : List (Bytes × StoreWrite)} {client : Client} {groupId : Bytes} {attempt : Attempt}

theorem Attempt.Ready.valid {rows : GroupRows} (ready : attempt.Ready context rows) :
    validateMemberCredentialsAndAccountProofs context attempt.group.toMlsGroup = .ok () := by
  cases ready with
  | new _ _ _ _ _ valid => exact valid
  | known _ _ _ valid => exact valid

theorem Crash.rows (crash : Crash context stored attempts log client) (groupId : Bytes) :
    client.rows groupId = (((attempts groupId).map Attempt.done).getD []).foldl
      (GroupRows.write context) (stored.rows groupId) := by
  rw [← crash.logged, ← StoredGroups.writeAll_rows, ← crash.store]

theorem Crash.leaves (crash : Crash context stored attempts log client)
    (attempted : attempts groupId = some attempt) : attempt.Leaves (client.rows groupId) := by
  rw [crash.rows, attempted]
  exact (crash.ready groupId attempt attempted).leaves

theorem rows_eq_iff {stored : StoredGroups} {group : LiveGroup} :
    stored.rows groupId = ⟨some group, some record⟩ ↔
      stored.live[groupId]? = some group ∧ stored.records[groupId]? = some record :=
  GroupRows.mk.injEq _ _ _ _ ▸ Iff.rfl

theorem Crash.survives (crash : Crash context stored attempts log client)
    (attempted : attempts groupId = some attempt)
    (settled : groupId ∈ client.records → groupId ∉ (client.restart context).quarantinedGroups →
      (client.restart context).Settled groupId) : attempt.Survives := by
  cases crash.leaves attempted with
  | unrecorded unrecorded survives => exact survives
  | @recorded group record present survives tree =>
    by_contra stranded
    obtain ⟨live, recorded⟩ := rows_eq_iff.mp present
    -- the tree is the one the attempt began with, so the group is opened
    have valid : validateMemberCredentialsAndAccountProofs context group.toMlsGroup = .ok () := by
      rw [tree stranded]
      exact (crash.ready groupId attempt attempted).valid
    obtain ⟨hydrated, opens⟩ : ∃ hydrated, client.toStoredGroups.hydration context groupId =
        .ok hydrated := by
      unfold StoredGroups.hydration
      rw [live]
      simp only [valid, ne_eq, not_true_eq_false, and_false, if_false, recorded]
      split_ifs <;> exact ⟨_, rfl⟩
    have member : groupId ∈ client.records := by
      rw [← isSome_getElem?_iff_mem]
      exact Option.isSome_of_eq_some recorded
    obtain ⟨-, -, -, unquarantined⟩ := restart_hydrated member opens
    exact stranded (survives.mpr
      ((settled_iff live recorded opens).mp (settled member unquarantined)))

end Crashes

/-- **A restart settles every group exactly when every interrupted attempt is one that hydration can
take back**: at every crash point of every intent, and however the transactions of the groups come
one after another. -/
theorem restart_settles_iff (context : ClientContext) (stored : StoredGroups)
    (attempts : Bytes → Option Attempt) (log : List (Bytes × StoreWrite)) (client : Client)
    (crash : Crash context stored attempts log client) :
    (∀ groupId, groupId ∈ client.records →
      groupId ∉ (client.restart context).quarantinedGroups →
        (client.restart context).Settled groupId) ↔
      ∀ groupId attempt, attempts groupId = some attempt → attempt.Survives := by
  constructor
  · intro settled groupId attempt attempted
    exact crash.survives attempted (settled groupId)
  · intro survives groupId member unquarantined
    cases opens : client.hydration context groupId with
    | error => exact absurd (restart_quarantined member opens) unquarantined
    | ok =>
      obtain ⟨group, record, live, recorded, -⟩ := hydration_cases opens
      rw [settled_iff live recorded opens]
      have rows := rows_eq_iff.mpr ⟨live, recorded⟩
      cases attempted : attempts groupId with
      | none =>
        rw [crash.rows, attempted] at rows
        exact .inr (crash.idle groupId group record attempted rows)
      | some attempt =>
        cases crash.leaves attempted with
        | unrecorded unrecorded _ =>
          rw [rows] at unrecorded
          cases unrecorded
        | recorded present survivesIff _ =>
          rw [rows] at present
          cases present
          exact survivesIff.mp (survives groupId attempt attempted)

/-! ### A removal and an invitation that are interrupted -/

/-- The group of the admin, as the admin's client has it. -/
def adminGroup : LiveGroup := { invitingGroup with ownLeafIndex := 0 }

def adminRecord : GroupRecord := mirrorGroup openContext adminGroup ⟨"", "", 0, [], ⟨∅, ∅, ∅⟩⟩

def adminStore : StoredGroups :=
  ⟨(∅ : Table Bytes LiveGroup).insert [7] adminGroup,
    (∅ : Table Bytes GroupRecord).insert [7] adminRecord, ∅, ∅⟩

def adminChange (proposal : Proposal) : PendingChange := ⟨adminCommit proposal, ⟨∅, ∅, ∅⟩⟩

def newLeaf : LeafNode := ⟨.basic (replicate 32 5), [5], none⟩

/-- The stranger is removed. -/
def removalAttempt (point : CrashPoint) : Attempt :=
  ⟨adminGroup, adminRecord, .removeMembers [strangerId] (adminChange (.remove 1)), point⟩

def inviteAttempt (point : CrashPoint) : Attempt :=
  ⟨adminGroup, adminRecord, .invite [newLeaf] (adminChange (.add newLeaf)), point⟩

/-- The client after the transactions of an attempt. -/
def crashedClient (attempt : Attempt) : Client :=
  (adminStore.writeAll openContext (attempt.done.map fun write => ([7], write))).opened

/-- **A crash strands a group.** After a crash between the send of a removal and its confirmation,
the group is opened with the removal staged, without a reference to it, and with a record that does
not list the member who is still in the group. After a crash between the two transactions of a
failed invitation, the record lists a member who is not in the group. -/
theorem crash_strands_group :
    [7] ∉ ((crashedClient (removalAttempt (.sending 2))).restart openContext).quarantinedGroups ∧
    (((crashedClient (removalAttempt (.sending 2))).restart openContext).live[([7] : Bytes)]?.any
      fun group => group.pendingCommit.isSome) ∧
    ¬ ((crashedClient (removalAttempt (.sending 2))).restart openContext).epochManager.Resolvable
      [7] ∧
    ¬ ((crashedClient (removalAttempt (.sending 2))).restart openContext).Settled [7] ∧
    [7] ∉ ((crashedClient (inviteAttempt (.cleared 2))).restart openContext).quarantinedGroups ∧
    ¬ ((crashedClient (inviteAttempt (.cleared 2))).restart openContext).Settled [7] := by
  have differ (client : Client)
      (members : client.records[([7] : Bytes)]?.map GroupRecord.members ≠
        client.live[([7] : Bytes)]?.map fun group => marmotMembers group.toMlsGroup) :
      ¬ client.Settled [7] := by
    rintro ⟨group, record, live, recorded, -, same, -⟩
    rw [live, recorded] at members
    exact members (congrArg some same)
  refine ⟨by decide +kernel, by decide +kernel, restart_not_resolvable _ _ _,
    differ _ (by decide +kernel), by decide +kernel, differ _ (by decide +kernel)⟩

theorem adminStore_rows {groupId : Bytes} (apart : groupId ≠ [7]) :
    adminStore.rows groupId = ⟨none, none⟩ := by
  simp [StoredGroups.rows, adminStore, apart.symm]

/-- An invitation that is interrupted before it is resolved is taken back. -/
theorem interrupted_invite_settles : Crash openContext adminStore
    (fun groupId => if groupId = [7] then some (inviteAttempt (.sending 2)) else none)
    ((inviteAttempt (.sending 2)).done.map fun write => ([7], write))
    (crashedClient (inviteAttempt (.sending 2))) ∧
    ∀ groupId, groupId ∈ (crashedClient (inviteAttempt (.sending 2))).records →
      groupId ∉
        ((crashedClient (inviteAttempt (.sending 2))).restart openContext).quarantinedGroups →
        ((crashedClient (inviteAttempt (.sending 2))).restart openContext).Settled groupId := by
  have crash : Crash openContext adminStore
      (fun groupId => if groupId = [7] then some (inviteAttempt (.sending 2)) else none)
      ((inviteAttempt (.sending 2)).done.map fun write => ([7], write))
      (crashedClient (inviteAttempt (.sending 2))) := by
    refine ⟨fun groupId attempt attempted => ?_, fun groupId group record idle rows => ?_,
      fun groupId => ?_, rfl⟩
    · split_ifs at attempted with here
      obtain rfl := Option.some.inj attempted
      subst here
      exact .known rfl rfl ⟨rfl, mirrorGroup_epoch _ _ _, mirrorGroup_members _ _ _⟩
        (by decide +kernel)
    · split_ifs at idle with here
      rw [adminStore_rows here] at rows
      cases rows
    · by_cases here : groupId = [7]
      · simp [here, writesOf, filter_map, Function.comp_def]
      · simp [here, Ne.symm here, writesOf, filter_map, Function.comp_def]
  refine ⟨crash, (restart_settles_iff _ _ _ _ _ crash).mpr fun groupId attempt attempted => ?_⟩
  split_ifs at attempted with here
  obtain rfl := Option.some.inj attempted
  intro change listed
  have staged : change = adminChange (.add newLeaf) := by
    simpa [inviteAttempt, Attempt.sendWrites, Intent.sendWrites] using listed
  rw [staged]
  decide +kernel

end Darkmatter
