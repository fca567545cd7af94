/-
**The timeline is what a rebuild makes of it.**

Every operation of the store leaves the rows of the timeline, and the starts of streams, as a rebuild
of their group would. This needs reactions that refer to one event, since a rebuild puts a reaction on
the row of its first reference and the store on every row it refers to. And it needs the events of one
commit in one group, since their withdrawal rebuilds the group of the first of them only.

* `TimelineStore.Upkept` — the tables are rebuilt ones, and the references are complete;
* `refreshed_upkept`, `rebuilt_upkept` — rows computed anew, and a group that is rebuilt;
* `Upkept.record`, `Upkept.invalidate`, `Upkept.prune` — **what each operation keeps**;
* `TimelineOperation.Regular` — the condition;
* `timeline_eq_rebuild` — **after regular operations every table is what a rebuild makes**.
-/

import Darkmatter.Lib.Machine
import Darkmatter.Timeline.Incremental

namespace Darkmatter

open List hiding getElem?_insert
open Std Lib AppEvents Function

namespace TimelineStore

variable {store : TimelineStore} {groupIdHex : String}

/-! ### Rows that are computed anew -/

def refreshed (store : TimelineStore) (groupIdHex : String) (ids : List String) : TimelineStore :=
  { store with
    timeline := update store.timeline groupIdHex
      (refresh (fun id => (store.projectSingleMessageTimeline groupIdHex id).map (·.1))
        (store.timeline groupIdHex) ids)
    streamStarts := update store.streamStarts groupIdHex
      (refresh (fun id => (store.projectSingleMessageTimeline groupIdHex id).bind (·.2))
        (store.streamStarts groupIdHex) ids) }

theorem upsert_eq_refreshed (id : String) :
    store.upsertMessageTimelineProjection groupIdHex id = store.refreshed groupIdHex [id] := by
  unfold upsertMessageTimelineProjection refreshed refresh
  simp only [foldl_cons, foldl_nil, refreshRow]
  cases store.projectSingleMessageTimeline groupIdHex id with
  | none => rfl
  | some projected =>
    obtain ⟨_, start⟩ := projected
    cases start with
    | none => rfl
    | some start =>
      have again : ((store.streamStarts groupIdHex).erase id).insert id start =
          (store.streamStarts groupIdHex).insert id start := by
        refine ExtTreeMap.ext_getElem? fun key => ?_
        rw [getElem?_insert, getElem?_insert, getElem?_erase]
        split_ifs <;> rfl
      simp only [again, Option.map_some, Option.bind_some]

theorem refreshed_refreshed (ids more : List String) :
    (store.refreshed groupIdHex ids).refreshed groupIdHex more =
      store.refreshed groupIdHex (ids ++ more) := by
  have timeline : (store.refreshed groupIdHex ids).timeline groupIdHex = _ :=
    update_self _ _ _
  have starts : (store.refreshed groupIdHex ids).streamStarts groupIdHex = _ :=
    update_self _ _ _
  rw [refreshed, timeline, starts, refreshed, refreshed, update_idem, update_idem,
    refresh, refresh, refresh, refresh, refresh, refresh, foldl_append, foldl_append]
  rfl

theorem foldl_upsert (ids : List String) :
    ids.foldl (fun store id => store.upsertMessageTimelineProjection groupIdHex id) store =
      store.refreshed groupIdHex ids := by
  induction ids generalizing store with
  | nil =>
    rw [foldl_nil, refreshed, refresh, refresh, foldl_nil, foldl_nil,
      update_eq_self, update_eq_self]
  | cons id rest ih =>
    rw [foldl_cons, ih, upsert_eq_refreshed, refreshed_refreshed]
    rfl

/-! ### Tables that a rebuild makes -/

/-- The tables have what a rebuild makes under an id. -/
def TabledAt (store : TimelineStore) (groupIdHex id : String) : Prop :=
  (store.timeline groupIdHex)[id]? = store.rebuiltRow groupIdHex id ∧
    (store.streamStarts groupIdHex)[id]? = store.rebuiltStart groupIdHex id

/-- **Every table is what a rebuild makes.** -/
def Tabled (store : TimelineStore) : Prop :=
  ∀ groupIdHex id, store.TabledAt groupIdHex id

/-- **The tables are rebuilt ones**, the references are complete, and reactions refer to one
event. -/
structure Upkept (store : TimelineStore) : Prop where
  referenced : store.Referenced
  pointed : store.Pointed
  tabled : store.Tabled

theorem refreshed_upkept {ids : List String} (referenced : store.Referenced)
    (pointed : store.Pointed)
    (kept : ∀ group id, (group = groupIdHex → id ∉ ids) → store.TabledAt group id) :
    (store.refreshed groupIdHex ids).Upkept := by
  refine ⟨⟨referenced.mem_edges, referenced.once⟩, pointed, fun group id => ?_⟩
  change (update store.timeline groupIdHex _ group)[id]? = store.rebuiltRow group id ∧
    (update store.streamStarts groupIdHex _ group)[id]? = store.rebuiltStart group id
  by_cases here : group = groupIdHex
  · subst here
    rw [update_self, update_self, getElem?_refresh, getElem?_refresh]
    by_cases affected : id ∈ ids
    · rw [if_pos affected, if_pos affected]
      exact projectSingle_eq_rebuild referenced pointed
    · rw [if_neg affected, if_neg affected]
      exact kept group id fun _ => affected
  · rw [update_of_ne here, update_of_ne here]
    exact kept group id fun same => absurd same here

theorem rebuilt_upkept (referenced : store.Referenced) (pointed : store.Pointed)
    (kept : ∀ group, group ≠ groupIdHex → ∀ id, store.TabledAt group id) :
    (store.rebuildMessageTimelineForGroup groupIdHex).Upkept := by
  refine ⟨⟨referenced.mem_edges, referenced.once⟩, pointed, fun group id => ?_⟩
  change (update store.timeline groupIdHex _ group)[id]? = store.rebuiltRow group id ∧
    (update store.streamStarts groupIdHex _ group)[id]? = store.rebuiltStart group id
  by_cases here : group = groupIdHex
  · subst here
    rw [update_self, update_self]
    exact ⟨rfl, rfl⟩
  · rw [update_of_ne here, update_of_ne here]
    exact kept group here id

theorem rebuilt_congr {other : TimelineStore} {id : String}
    (same : ∀ id, other.eventAt groupIdHex id = store.eventAt groupIdHex id) :
    store.rebuiltRow groupIdHex id = other.rebuiltRow groupIdHex id ∧
      store.rebuiltStart groupIdHex id = other.rebuiltStart groupIdHex id :=
  rebuilt_kept (⟨fun _ _ => rfl, by simp⟩ : Unaffected store store groupIdHex [] id)
    ⟨fun id _ => same id, by simp⟩

theorem upkept_empty : empty.Upkept where
  referenced :=
    { mem_edges := by simp [empty, eventAt, AppEvents.empty, row?]
      once := by simp [empty] }
  pointed := by simp [Pointed, empty, eventAt, AppEvents.empty, row?]
  tabled := by
    intro _ _
    rw [TabledAt, rebuiltRow_eq, rebuiltStart_eq]
    simp [empty, eventAt, AppEvents.empty, row?]

/-! ### Recording -/

section Recording

variable {event : StoredAppEvent} {events : AppEvents}

/-- The store with the event and its references written. -/
def withEvent (store : TimelineStore) (event : StoredAppEvent) (events : AppEvents) :
    TimelineStore :=
  { store with events := events }.upsertMessageModifierEdges event

theorem mem_modifierEdges {edge : ModifierEdge} : edge ∈ modifierEdges event ↔
    edge.modifierMessageIdHex = event.messageIdHex ∧ event.kind = edge.kind ∧
      edge.kind ∈ [reactionKind, deleteKind] ∧
      edge.targetMessageIdHex ∈ tagValues event.tags eventRefTag := by
  obtain ⟨_, target, _⟩ := edge
  rw [modifierEdges]
  split_ifs with modifies
  · rw [mem_map]
    constructor
    · rintro ⟨_, listed, same⟩
      obtain ⟨rfl, rfl, rfl⟩ := ModifierEdge.mk.injEq .. ▸ same
      exact ⟨rfl, rfl, modifies, mem_dedup.mp listed⟩
    · rintro ⟨rfl, rfl, _, listed⟩
      exact ⟨target, mem_dedup.mpr listed, rfl⟩
  · constructor
    · intro listed
      cases listed
    · rintro ⟨_, rfl, here, _⟩
      exact absurd here modifies

theorem Referenced.update {other : TimelineStore} {edges : List ModifierEdge}
    (referenced : store.Referenced) (written : other.edges = update store.edges groupIdHex edges)
    (others : ∀ group, group ≠ groupIdHex → ∀ id, other.eventAt group id = store.eventAt group id)
    (mem_edges : ∀ edge, edge ∈ edges ↔
      ∃ event, other.eventAt groupIdHex edge.modifierMessageIdHex = some event ∧
        event.kind = edge.kind ∧ edge.kind ∈ [reactionKind, deleteKind] ∧
        edge.targetMessageIdHex ∈ tagValues event.tags eventRefTag)
    (once : edges.Nodup) : other.Referenced := by
  constructor
  · intro group _
    rw [written]
    by_cases here : group = groupIdHex
    · rw [here, update_self, mem_edges]
    · rw [update_of_ne here, others group here, referenced.mem_edges]
  · intro group
    rw [written]
    by_cases here : group = groupIdHex
    · rw [here, update_self]
      exact once
    · rw [update_of_ne here]
      exact referenced.once group

variable (recorded : store.events.recordAppEvent event = some events)

include recorded

theorem withEvent_eventAt (groupIdHex id : String) :
    (store.withEvent event events).eventAt groupIdHex id =
      if groupIdHex = event.groupIdHex ∧ id = event.messageIdHex then
        some (upserted event (store.eventAt groupIdHex id))
      else store.eventAt groupIdHex id := by
  have found := recordAppEvent_row? recorded (groupIdHex, id)
  simp only [StoredAppEvent.key, Prod.mk.injEq] at found
  exact found

theorem withEvent_referenced (referenced : store.Referenced) :
    (store.withEvent event events).Referenced := by
  refine referenced.update rfl (fun group other id => ?_) (fun edge => ?_) ?_
  · rw [withEvent_eventAt recorded, if_neg fun same => other same.1]
  · rw [withEvent_eventAt recorded, mem_append, mem_filter, decide_eq_true_eq, mem_modifierEdges]
    change edge ∈ store.edges event.groupIdHex ∧ _ ∨ _ ↔ _
    rw [referenced.mem_edges]
    by_cases own : edge.modifierMessageIdHex = event.messageIdHex
    · rw [if_pos ⟨rfl, own⟩]
      constructor
      · rintro (⟨_, other⟩ | ⟨_, refers⟩)
        · exact absurd own other
        · exact ⟨_, rfl, refers⟩
      · rintro ⟨_, found, refers⟩
        obtain rfl := Option.some.inj found
        exact .inr ⟨own, refers⟩
    · rw [if_neg fun same => own same.2]
      exact ⟨fun listed => listed.elim (·.1) fun listed => absurd listed.1 own,
        fun listed => .inl ⟨listed, own⟩⟩
  · refine nodup_append.mpr ⟨(referenced.once _).filter _, ?_, ?_⟩
    · rw [modifierEdges]
      split_ifs
      · exact (nodup_dedup _).map fun target other same => (ModifierEdge.mk.inj same).2.1
      · exact nodup_nil
    · rintro _ old _ new rfl
      rw [mem_filter, decide_eq_true_eq] at old
      exact old.2 (mem_modifierEdges.mp new).1

theorem withEvent_pointed (pointed : store.Pointed) (once : event.RefersOnce) :
    (store.withEvent event events).Pointed := by
  intro group id found there isReaction
  rw [withEvent_eventAt recorded] at there
  split_ifs at there with own
  · cases there
    exact once isReaction
  · exact pointed group id found there isReaction

theorem withEvent_unaffected {id : String} (spared : id ∉ store.recordAffected event) :
    Unaffected store store event.groupIdHex [event.messageIdHex] id ∧
      Unaffected store (store.withEvent event events) event.groupIdHex [event.messageIdHex] id := by
  rw [recordAffected, mem_append, not_or] at spared
  obtain ⟨byNew, byOld⟩ := spared
  have direct : ∀ {kind tags}, id ∉ store.affectedTimelineMessageIds event.groupIdHex
      event.messageIdHex kind tags →
      id ∉ store.directlyAffected event.groupIdHex event.messageIdHex kind tags :=
    fun spared listed => spared (mem_append_left _ listed)
  refine ⟨⟨fun _ _ => rfl, ?_⟩, ⟨?_, ?_⟩⟩
  · intro other touched existing found
    obtain rfl := mem_singleton.mp touched
    have stored : store.events.row? event.key = some existing := found
    rw [stored] at byOld
    exact direct byOld
  · intro _ untouched
    rw [withEvent_eventAt recorded, if_neg fun same => untouched (mem_singleton.mpr same.2)]
  · intro _ touched _ found
    obtain rfl := mem_singleton.mp touched
    rw [withEvent_eventAt recorded, if_pos ⟨rfl, rfl⟩] at found
    cases found
    exact direct byNew

/-- **A recorded event**: its group is refreshed where it may be affected, or rebuilt. -/
theorem Upkept.record (upkept : store.Upkept) (once : event.RefersOnce) :
    (store.recordWritten event events).Upkept := by
  have referenced := withEvent_referenced recorded upkept.referenced
  have pointed := withEvent_pointed recorded upkept.pointed once
  have others : ∀ group, group ≠ event.groupIdHex → ∀ id,
      (store.withEvent event events).TabledAt group id := by
    intro group other id
    obtain ⟨row, start⟩ := @rebuilt_congr store group (store.withEvent event events) id
      fun id => by rw [withEvent_eventAt recorded, if_neg fun same => other same.1]
    rw [TabledAt, ← row, ← start]
    exact upkept.tabled group id
  rw [recordWritten, ← withEvent]
  split_ifs
  · rw [foldl_upsert]
    refine refreshed_upkept referenced pointed fun group id spared => ?_
    by_cases here : group = event.groupIdHex
    · subst here
      obtain ⟨before, after⟩ := withEvent_unaffected recorded (spared rfl)
      obtain ⟨row, start⟩ := rebuilt_kept before after
      rw [TabledAt, ← row, ← start]
      exact upkept.tabled event.groupIdHex id
    · exact others group here id
  · exact rebuilt_upkept referenced pointed others

end Recording

/-! ### Withdrawing -/

section Withdrawing

variable {picks : AppEventRow → Bool} {reason : String}

theorem invalidated_eventAt (group id : String) :
    { store with events := store.events.invalidateRows picks reason }.eventAt group id =
      (store.eventAt group id).map fun row =>
        if picks row then { row with invalidated := true, invalidationReason := some reason }
        else row :=
  invalidateRows_row? picks reason (group, id)

theorem invalidated_row {group id : String} {event : AppEventRow}
    (there : { store with events := store.events.invalidateRows picks reason }.eventAt group id =
      some event) :
    ∃ row, store.eventAt group id = some row ∧ event.kind = row.kind ∧ event.tags = row.tags := by
  rw [invalidated_eventAt] at there
  obtain ⟨row, here, rfl⟩ := Option.map_eq_some_iff.mp there
  refine ⟨row, here, ?_⟩
  split_ifs <;> exact ⟨rfl, rfl⟩

theorem invalidated_referenced (referenced : store.Referenced) :
    { store with events := store.events.invalidateRows picks reason }.Referenced := by
  refine ⟨fun group edge => ?_, referenced.once⟩
  refine (referenced.mem_edges group edge).trans ⟨?_, ?_⟩
  · rintro ⟨row, here, refers⟩
    refine ⟨_, (invalidated_eventAt ..).trans (congrArg _ here), ?_⟩
    dsimp only
    split_ifs <;> exact refers
  · rintro ⟨_, there, refers⟩
    obtain ⟨row, here, kind, tags⟩ := invalidated_row there
    rw [kind, tags] at refers
    exact ⟨row, here, refers⟩

/-- **Withdrawn events**, all in one group, which is rebuilt. -/
theorem Upkept.invalidate (upkept : store.Upkept)
    (within : ∀ row ∈ store.events.rows, picks row → row.groupIdHex = groupIdHex) :
    ({ store with events := store.events.invalidateRows picks reason }.rebuildMessageTimelineForGroup
      groupIdHex).Upkept := by
  refine rebuilt_upkept (invalidated_referenced upkept.referenced) ?_ ?_
  · intro group id _ there isReaction
    obtain ⟨row, here, kind, tags⟩ := invalidated_row there
    rw [tags]
    exact upkept.pointed group id row here (kind.symm.trans isReaction)
  · intro group other id
    have same : ∀ id, { store with events := store.events.invalidateRows picks reason }.eventAt
        group id = store.eventAt group id := by
      intro id
      rw [invalidated_eventAt]
      cases here : store.eventAt group id with
      | none => rfl
      | some row =>
        have inGroup := (eventAt_messageIdHex here).2
        rw [Option.map_some, if_neg fun picked =>
          other (inGroup.symm.trans (within row (row?_eq_some.mp here).1 picked))]
    obtain ⟨row, start⟩ := @rebuilt_congr store group _ id same
    rw [TabledAt, ← row, ← start]
    exact upkept.tabled group id

end Withdrawing

/-! ### Pruning -/

/-- The event of a group is before a time. -/
def isPruned (groupIdHex : String) (cutoffRecordedAt : Nat) (event : AppEventRow) : Bool :=
  event.groupIdHex = groupIdHex && event.recordedAt < cutoffRecordedAt

section Pruning

variable {cutoffRecordedAt : Nat}

def prunedIds (store : TimelineStore) (groupIdHex : String) (cutoffRecordedAt : Nat) : List String :=
  (store.events.rows.filter (isPruned groupIdHex cutoffRecordedAt)).map (·.messageIdHex)

/-- The events before a time are deleted, with their references and rows. -/
def erased (store : TimelineStore) (groupIdHex : String) (cutoffRecordedAt : Nat) :
    TimelineStore where
  events := store.events.deleteRows (isPruned groupIdHex cutoffRecordedAt)
  edges := update store.edges groupIdHex
    ((store.edges groupIdHex).filter
      (·.modifierMessageIdHex ∉ store.prunedIds groupIdHex cutoffRecordedAt))
  timeline := update store.timeline groupIdHex
    ((store.prunedIds groupIdHex cutoffRecordedAt).foldl .erase (store.timeline groupIdHex))
  streamStarts := update store.streamStarts groupIdHex
    ((store.prunedIds groupIdHex cutoffRecordedAt).foldl .erase (store.streamStarts groupIdHex))

theorem mem_prunedIds {id : String} : id ∈ store.prunedIds groupIdHex cutoffRecordedAt ↔
    ∃ event, store.eventAt groupIdHex id = some event ∧ event.recordedAt < cutoffRecordedAt := by
  rw [prunedIds, mem_map]
  refine exists_congr fun event => ?_
  rw [mem_filter, isPruned, Bool.and_eq_true, decide_eq_true_eq, decide_eq_true_eq, eventAt,
    row?_eq_some, StoredAppEvent.key, Prod.mk.injEq]
  tauto

theorem erased_eventAt (group id : String) :
    (store.erased groupIdHex cutoffRecordedAt).eventAt group id =
      if group = groupIdHex ∧ id ∈ store.prunedIds groupIdHex cutoffRecordedAt then none
      else store.eventAt group id := by
  have found : (store.erased groupIdHex cutoffRecordedAt).eventAt group id =
      (store.eventAt group id).filter fun row => !isPruned groupIdHex cutoffRecordedAt row :=
    deleteRows_row? _ _
  rw [found]
  split_ifs with pruned
  · obtain ⟨rfl, listed⟩ := pruned
    obtain ⟨_, here, early⟩ := mem_prunedIds.mp listed
    rw [here, Option.filter_eq_none_iff]
    intro row same
    obtain rfl := Option.some.inj same
    simp [isPruned, (eventAt_messageIdHex here).2, early]
  · cases here : store.eventAt group id with
    | none => rfl
    | some row =>
      refine Option.filter_some_pos ?_
      rw [Bool.not_eq_true', Bool.eq_false_iff, isPruned, ne_eq, Bool.and_eq_true,
        decide_eq_true_eq, decide_eq_true_eq]
      rintro ⟨inGroup, early⟩
      have same := inGroup.symm.trans (eventAt_messageIdHex here).2
      subst same
      exact pruned ⟨rfl, mem_prunedIds.mpr ⟨row, here, early⟩⟩

theorem erased_referenced (referenced : store.Referenced) :
    (store.erased groupIdHex cutoffRecordedAt).Referenced := by
  refine referenced.update rfl (fun group other id => ?_) (fun edge => ?_)
    ((referenced.once groupIdHex).filter _)
  · rw [erased_eventAt, if_neg fun both => other both.1]
  · rw [erased_eventAt, mem_filter, decide_eq_true_eq, referenced.mem_edges]
    by_cases pruned : edge.modifierMessageIdHex ∈ store.prunedIds groupIdHex cutoffRecordedAt
    · rw [if_pos ⟨rfl, pruned⟩]
      simp [pruned]
    · rw [if_neg fun both => pruned both.2, and_iff_left pruned]

theorem erased_pointed (pointed : store.Pointed) :
    (store.erased groupIdHex cutoffRecordedAt).Pointed := by
  intro group id event there
  rw [erased_eventAt] at there
  split_ifs at there
  exact pointed group id event there

theorem erased_unaffected {id : String}
    (spared : ∀ event ∈ store.events.rows.filter (isPruned groupIdHex cutoffRecordedAt),
      id ∉ store.directlyAffected groupIdHex event.messageIdHex event.kind event.tags) :
    Unaffected store store groupIdHex (store.prunedIds groupIdHex cutoffRecordedAt) id ∧
      Unaffected store (store.erased groupIdHex cutoffRecordedAt) groupIdHex
        (store.prunedIds groupIdHex cutoffRecordedAt) id := by
  refine ⟨⟨fun _ _ => rfl, ?_⟩, ⟨?_, ?_⟩⟩
  · intro other touched event found
    obtain ⟨row, listed, rfl⟩ := mem_map.mp touched
    have inGroup : row.groupIdHex = groupIdHex := by
      have picked := (mem_filter.mp listed).2
      rw [isPruned, Bool.and_eq_true, decide_eq_true_eq] at picked
      exact picked.1
    have here : store.eventAt groupIdHex row.messageIdHex = some row :=
      row?_eq_some.mpr ⟨(mem_filter.mp listed).1, by rw [← inGroup]; rfl⟩
    obtain rfl := Option.some.inj (found.symm.trans here)
    exact spared event listed
  · intro _ untouched
    rw [erased_eventAt, if_neg fun both => untouched both.2]
  · intro _ touched _ found
    rw [erased_eventAt, if_pos ⟨rfl, touched⟩] at found
    cases found

/-- **Pruned events**: the rows that they affected are computed anew. -/
theorem Upkept.prune (upkept : store.Upkept) :
    (store.securePruneAppEventsBefore groupIdHex cutoffRecordedAt).Upkept := by
  have referenced : (store.erased groupIdHex cutoffRecordedAt).Referenced :=
    erased_referenced upkept.referenced
  have pointed : (store.erased groupIdHex cutoffRecordedAt).Pointed :=
    erased_pointed upkept.pointed
  unfold securePruneAppEventsBefore
  rw [foldl_upsert]
  change ((store.erased groupIdHex cutoffRecordedAt).refreshed groupIdHex _).Upkept
  refine refreshed_upkept referenced pointed fun group id spared => ?_
  by_cases here : group = groupIdHex
  · subst here
    have timeline : (store.erased group cutoffRecordedAt).timeline group = _ :=
      update_self _ _ _
    have starts : (store.erased group cutoffRecordedAt).streamStarts group = _ :=
      update_self _ _ _
    rw [TabledAt, timeline, starts, getElem?_foldl_erase, getElem?_foldl_erase]
    by_cases pruned : id ∈ store.prunedIds group cutoffRecordedAt
    · rw [if_pos pruned, if_pos pruned, rebuiltRow_eq, rebuiltStart_eq, erased_eventAt,
        if_pos ⟨rfl, pruned⟩]
      exact ⟨rfl, rfl⟩
    · rw [if_neg pruned, if_neg pruned]
      obtain ⟨before, after⟩ := @erased_unaffected store group cutoffRecordedAt id (by
        intro event listed affects
        refine spared rfl (mem_filter.mpr ⟨mem_flatMap.mpr ⟨event, listed, affects⟩, ?_⟩)
        exact decide_eq_true pruned)
      obtain ⟨row, start⟩ := rebuilt_kept before after
      rw [← row, ← start]
      exact upkept.tabled group id
  · have timeline : (store.erased groupIdHex cutoffRecordedAt).timeline group = _ :=
      update_of_ne here _ _
    have starts : (store.erased groupIdHex cutoffRecordedAt).streamStarts group = _ :=
      update_of_ne here _ _
    obtain ⟨row, start⟩ := @rebuilt_congr store group
      (store.erased groupIdHex cutoffRecordedAt) id fun id => by
        rw [erased_eventAt, if_neg fun both => here both.1]
    rw [TabledAt, timeline, starts, ← row, ← start]
    exact upkept.tabled group id

end Pruning

end TimelineStore

/-! ### Runs -/

/-- **A regular operation**: a recorded reaction refers to one event, and the events of a withdrawn
commit are in one group. -/
def TimelineOperation.Regular (store : TimelineStore) : TimelineOperation → Prop
  | .record event => event.RefersOnce
  | .invalidateByOriginCommit originCommitId _ =>
    ∀ row ∈ store.events.rows, row.originCommitId = some originCommitId →
      ∀ other ∈ store.events.rows, other.originCommitId = some originCommitId →
        row.groupIdHex = other.groupIdHex
  | _ => True

namespace TimelineStore

variable {store : TimelineStore}

/-- **Every operation keeps the references.** -/
theorem Referenced.apply (referenced : store.Referenced) (operation : TimelineOperation) :
    (store.apply operation).Referenced := by
  have withdrawn (found : Option AppEventRow) {picks reason} : ((found.map fun row =>
      { store with
        events := store.events.invalidateRows picks reason }.rebuildMessageTimelineForGroup
          row.groupIdHex).getD store).Referenced := by
    cases found with
    | none => exact referenced
    | some => exact ⟨(invalidated_referenced referenced).mem_edges, referenced.once⟩
  cases operation with
  | record event =>
    rw [TimelineStore.apply, recordAppEvent]
    cases recorded : store.events.recordAppEvent event with
    | none => exact referenced
    | some events =>
      have written := withEvent_referenced recorded referenced
      change (store.recordWritten event events).Referenced
      rw [recordWritten, ← withEvent, foldl_upsert]
      split_ifs <;> exact ⟨written.mem_edges, written.once⟩
  | invalidateBySource =>
    rw [TimelineStore.apply, invalidateAppEventBySource, Option.map_map]
    exact withdrawn _
  | invalidateByMessageId =>
    rw [TimelineStore.apply, invalidateAppEventByMessageId, Option.map_map]
    exact withdrawn _
  | invalidateByOriginCommit =>
    rw [TimelineStore.apply, invalidateAppEventsByOriginCommit, Option.map_map]
    exact withdrawn _
  | prune =>
    rw [TimelineStore.apply, securePruneAppEventsBefore, foldl_upsert]
    exact ⟨(erased_referenced referenced).mem_edges, (erased_referenced referenced).once⟩

/-- A store that operations lead to. -/
def Reached (store : TimelineStore) : Prop :=
  ∃ operations : List TimelineOperation, operations.foldl TimelineStore.apply .empty = store

theorem Reached.referenced (reached : store.Reached) : store.Referenced := by
  obtain ⟨operations, rfl⟩ := reached
  exact foldlRecOn operations _ upkept_empty.referenced fun _ referenced operation _ =>
    referenced.apply operation

theorem Upkept.apply {operation : TimelineOperation} (upkept : store.Upkept)
    (regular : operation.Regular store) : (store.apply operation).Upkept := by
  cases operation with
  | record event =>
    rw [TimelineStore.apply, recordAppEvent]
    cases recorded : store.events.recordAppEvent event with
    | none => exact upkept
    | some => exact upkept.record recorded regular
  | invalidateBySource sourceMessageIdHex =>
    rw [TimelineStore.apply, invalidateAppEventBySource]
    cases found : store.events.rows.find? (·.sourceMessageIdHex = some sourceMessageIdHex) with
    | none => exact upkept
    | some =>
      refine upkept.invalidate fun row listed names => ?_
      have isFirst := mem_of_find?_eq_some found
      have firstNames := find?_some found
      rw [sourced_eq listed isFirst (of_decide_eq_true names) (of_decide_eq_true firstNames)]
  | invalidateByMessageId groupIdHex messageIdHex =>
    rw [TimelineStore.apply, invalidateAppEventByMessageId]
    cases found : store.events.row? (groupIdHex, messageIdHex) with
    | none => exact upkept
    | some =>
      refine upkept.invalidate fun row listed names => ?_
      have key := of_decide_eq_true names
      rw [← (row?_eq_some.mp found).2] at key
      exact congrArg Prod.fst key
  | invalidateByOriginCommit originCommitId =>
    rw [TimelineStore.apply, invalidateAppEventsByOriginCommit]
    cases found : (store.events.rows.filter (·.originCommitId = some originCommitId)).head? with
    | none => exact upkept
    | some first =>
      refine upkept.invalidate fun row listed names => ?_
      have isFirst := mem_filter.mp (mem_of_head? found)
      exact regular row listed (of_decide_eq_true names) first isFirst.1
        (of_decide_eq_true isFirst.2)
  | prune => exact upkept.prune

end TimelineStore

open TimelineStore

theorem regular_upkept {operations : List TimelineOperation}
    (regular : Along apply (fun store operation => operation.Regular store) .empty
      operations) : (operations.foldl apply .empty).Upkept :=
  regular.invariant upkept_empty fun _ _ upkept regular => upkept.apply regular

namespace UpkeepExample

def event (groupIdHex messageIdHex : String) (kind : Nat) (tags : List (List String))
    (originCommitId : Option String) : StoredAppEvent where
  groupIdHex := groupIdHex
  messageIdHex := messageIdHex
  sourceMessageIdHex := none
  sourceEpoch := none
  direction := "received"
  sender := "alice"
  plaintext := "+"
  kind := kind
  tags := tags
  recordedAt := 10
  receivedAt := 10
  originCommitId := originCommitId

def chat (messageIdHex : String) : TimelineOperation :=
  .record (event "g" messageIdHex chatKind [] none)

def reaction (tags : List (List String)) : TimelineOperation :=
  .record (event "g" "r" reactionKind tags none)

/-- A reaction to two messages. -/
def twoTargets : List TimelineOperation :=
  [chat "a", chat "b", reaction [["e", "a"], ["e", "b"]]]

/-- The first reference of the reaction has no value. -/
def emptyReference : List TimelineOperation := [chat "a", reaction [["e"], ["e", "a"]]]

/-- The commit has events in two groups. -/
def twoGroups : List TimelineOperation :=
  [.record (event "f" "s" groupSystemKind [] (some "c")),
    .record (event "g" "t" groupSystemKind [] (some "c")),
    .invalidateByOriginCommit "c" "fork"]

/-- A reaction arrives before its target, is deleted, and the deletion is withdrawn. -/
def deletedReaction : List TimelineOperation :=
  [reaction [["e", "a"]], chat "a",
    .record (event "g" "d" deleteKind [["e", "r"]] none),
    .invalidateByMessageId "g" "d" "fork"]

/-- A row of the group differs from that of a rebuild. -/
def Parts (operations : List TimelineOperation) (id : String) : Prop :=
  ((operations.foldl apply .empty).timeline "g")[id]? ≠
    (operations.foldl apply .empty).rebuiltRow "g" id

end UpkeepExample

open UpkeepExample in
/-- **Rows that a rebuild makes otherwise**: of a message that a reaction refers to second, of one
whose reference comes after an empty one, and of a withdrawn event in a second group. -/
theorem timeline_parts_from_rebuild :
    Parts twoTargets "b" ∧ Parts emptyReference "a" ∧ Parts twoGroups "t" := by
  unfold Parts
  decide +kernel

/-- **After regular operations every table is what a rebuild makes.** -/
theorem timeline_eq_rebuild {operations : List TimelineOperation}
    (regular : Along apply (fun store operation => operation.Regular store) .empty
      operations) (groupIdHex : String) :
    let store := operations.foldl apply .empty
    (store.timeline groupIdHex, store.streamStarts groupIdHex) =
      projectGroupEvents (store.appEventsForRebuild groupIdHex) := by
  intro store
  have upkept : store.Upkept := regular_upkept regular
  refine Prod.ext (ExtTreeMap.ext_getElem? fun id => ?_) (ExtTreeMap.ext_getElem? fun id => ?_)
  · exact (upkept.tabled groupIdHex id).1
  · exact (upkept.tabled groupIdHex id).2

open UpkeepExample in
theorem deleted_reaction_returns :
    (((deletedReaction.foldl apply .empty).timeline "g")["a"]?.map
        (·.reactions.userReactions.length)) = some 1 ∧
      (((deletedReaction.foldl apply .empty).timeline "g"),
        ((deletedReaction.foldl apply .empty).streamStarts "g")) =
        projectGroupEvents
          ((deletedReaction.foldl apply .empty).appEventsForRebuild "g") :=
  ⟨by decide +kernel, @timeline_eq_rebuild deletedReaction (by
    refine ⟨?_, ?_, ?_, ?_, trivial⟩ <;>
      simp [TimelineOperation.Regular, StoredAppEvent.RefersOnce, reaction, chat, event, tagValues,
        tagValue, eventRefTag, chatKind, reactionKind, deleteKind]) "g"⟩

end Darkmatter
