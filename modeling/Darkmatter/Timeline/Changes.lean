/-
**The changes that a call returns, and a copy of the timeline.**

A subscriber has a copy of the timelines, with the previews of the messages that rows reply to, and
takes over the changes that a recorded or a withdrawn event returns. Every returned row is right. They
also cover every row that changed, apart from two cases: an event that is recorded again as one
without a row takes the row away, and the changes never say so; and an edit that rows reply to changes
their previews, and the store looks for replies to other kinds only.

* `TimelineStore.view` — what a reader sees, and a copy of it;
* `Rendered` — tables that are rebuilt ones up to the reactions, which no preview shows;
* `preview_kept` — **events that a preview does not depend on**;
* `TimelineOperation.Announced` — the condition;
* `changes_complete_iff` — **the copy is the new timeline exactly when it holds**.
-/

import Darkmatter.Timeline.Upkeep

namespace Darkmatter

open Std Lib TimelineRow List Function
open Option (map_some bind_some)

/-! ### Copies -/

/-- What a change does under which id. -/
def TimelineMessageChange.entry : TimelineMessageChange → String × Option TimelineMessageRecord
  | .upsert _ message => (message.messageIdHex, some message)
  | .remove messageIdHex _ => (messageIdHex, none)

/-- **What a reader sees** of every group. -/
def TimelineStore.view (store : TimelineStore) (groupIdHex : String) :
    Table String TimelineMessageRecord :=
  (store.timeline groupIdHex).map fun _ row => store.attachReplyPreview row

/-- A copy takes over the changes of one update. -/
def TimelineProjectionUpdate.applyTo (update : TimelineProjectionUpdate)
    (copy : String → Table String TimelineMessageRecord) :
    String → Table String TimelineMessageRecord :=
  Function.update copy update.groupIdHex
    (follow (copy update.groupIdHex) (update.changes.map TimelineMessageChange.entry))

/-- What a call returns. A prune returns no changes. -/
def TimelineStore.update? (store : TimelineStore) :
    TimelineOperation → Option TimelineProjectionUpdate
  | .record event => (store.recordAppEvent event).map (·.2)
  | .invalidateBySource sourceMessageIdHex reason =>
    (store.invalidateAppEventBySource sourceMessageIdHex reason).map (·.2)
  | .invalidateByMessageId groupIdHex messageIdHex reason =>
    (store.invalidateAppEventByMessageId groupIdHex messageIdHex reason).map (·.2)
  | .invalidateByOriginCommit originCommitId reason =>
    (store.invalidateAppEventsByOriginCommit originCommitId reason).map (·.2)
  | .prune _ _ => none

/-- **A copy follows a call**: a copy of the timelines before is one of those after. -/
def TimelineStore.Follows (store : TimelineStore) (operation : TimelineOperation) : Prop :=
  (store.update? operation).elim store.view (·.applyTo store.view) = (store.apply operation).view

/-! ### Previews -/

def TimelineReplyPreview.applyDelete (preview : TimelineReplyPreview) (delete : AppEventRow) :
    TimelineReplyPreview :=
  if preview.sender ≠ delete.sender then
    preview
  else
    { preview with
      deleted := true
      plaintext := ""
      media := none
      agentTextStream := none }

theorem replyPreviewFromRow_applyDelete (row : TimelineRow) (delete : AppEventRow) :
    replyPreviewFromRow (row.applyDelete delete) = (replyPreviewFromRow row).applyDelete delete := by
  rw [applyDelete, TimelineReplyPreview.applyDelete]
  split_ifs with other same same
  · rfl
  · exact absurd other same
  · exact absurd same other
  · rfl

theorem replyPreviewFromRow_pushReactions (row : TimelineRow) (reactions : List AppEventRow) :
    replyPreviewFromRow (reactions.foldl
      (fun row reaction => row.pushReaction (userReaction row.messageIdHex reaction)) row) =
      replyPreviewFromRow row := by
  induction reactions generalizing row with
  | nil => rfl
  | cons first rest ih => exact ih _

/-- **A preview shows no reactions.** -/
theorem replyPreviewFromRow_modified (row : TimelineRow) (reactions deletes : List AppEventRow) :
    replyPreviewFromRow (row.modified reactions deletes) =
      deletes.foldl .applyDelete (replyPreviewFromRow row) := by
  rw [modified, ← replyPreviewFromRow_pushReactions row reactions]
  generalize reactions.foldl _ row = reacted
  change _ = deletes.foldl .applyDelete (replyPreviewFromRow reacted.summarizeReactions)
  generalize reacted.summarizeReactions = summarized
  induction deletes generalizing summarized with
  | nil => rfl
  | cons first rest ih => rw [foldl_cons, foldl_cons, ih, replyPreviewFromRow_applyDelete]

theorem modified_kept {β : Type} (read : TimelineRow → β)
    (pushed : ∀ row reaction, read (pushReaction row reaction) = read row)
    (summarized : ∀ row, read (summarizeReactions row) = read row)
    (deleted : ∀ row delete, read (applyDelete row delete) = read row)
    (row : TimelineRow) (reactions deletes : List AppEventRow) :
    read (row.modified reactions deletes) = read row := by
  have kept : ∀ {α : Type} {step : TimelineRow → α → TimelineRow},
      (∀ row action, read (step row action) = read row) → ∀ actions row,
        read (List.foldl step row actions) = read row := by
    intro α _ keeps actions
    induction actions with
    | nil => exact fun _ => rfl
    | cons first rest ih => exact fun row => (ih _).trans (keeps row first)
  rw [modified, kept deleted, summarized, kept fun row reaction => pushed row _]

theorem modified_place (row : TimelineRow) (reactions deletes : List AppEventRow) :
    (row.modified reactions deletes).groupIdHex = row.groupIdHex ∧
      (row.modified reactions deletes).messageIdHex = row.messageIdHex := by
  have kept := modified_kept (fun row => (row.groupIdHex, row.messageIdHex)) (fun _ _ => rfl)
    (fun _ => rfl) (fun row delete => by rw [applyDelete]; split_ifs <;> rfl) row
    reactions deletes
  exact Prod.mk.inj kept

namespace TimelineStore

variable {store before after : TimelineStore} {groupIdHex id : String}

/-- **The rows of a group are rebuilt ones up to the reactions.** -/
def Rendered (store : TimelineStore) (groupIdHex : String) : Prop :=
  ∀ id, ∃ reactions, (store.timeline groupIdHex)[id]? =
    ((store.eventAt groupIdHex id).bind rowFor).map fun row =>
      row.modified reactions (store.deletesOn groupIdHex id)

theorem Upkept.rendered (upkept : store.Upkept) : store.Rendered groupIdHex := fun id =>
  ⟨_, (upkept.tabled groupIdHex id).1.trans rebuiltRow_eq⟩

section Rendering

variable (rendered : store.Rendered groupIdHex)

include rendered

theorem Rendered.isSome (id : String) :
    (store.timeline groupIdHex)[id]?.isSome = ((store.eventAt groupIdHex id).bind rowFor).isSome := by
  obtain ⟨_, shown⟩ := rendered id
  rw [shown, Option.isSome_map]

theorem Rendered.place {row : TimelineRow} (found : (store.timeline groupIdHex)[id]? = some row) :
    row.groupIdHex = groupIdHex ∧ row.messageIdHex = id := by
  obtain ⟨_, shown⟩ := rendered id
  rw [found] at shown
  obtain ⟨_, projected, rfl⟩ := Option.map_eq_some_iff.mp shown.symm
  obtain ⟨_, stored, projected⟩ := Option.bind_eq_some_iff.mp projected
  have place := rowFor_place projected
  have key := eventAt_messageIdHex stored
  rw [(modified_place ..).1, (modified_place ..).2, place.1, place.2]
  exact key.symm

/-- The preview that the row of an id gives. -/
def previewAt (store : TimelineStore) (groupIdHex id : String) : Option TimelineReplyPreview :=
  (store.timeline groupIdHex)[id]?.map replyPreviewFromRow

theorem Rendered.previewAt (id : String) :
    store.previewAt groupIdHex id =
      (((store.eventAt groupIdHex id).bind rowFor).map replyPreviewFromRow).map
        fun preview => (store.deletesOn groupIdHex id).foldl .applyDelete preview := by
  obtain ⟨reactions, shown⟩ := rendered id
  rw [TimelineStore.previewAt, shown, Option.map_map, Option.map_map]
  refine congrArg (Option.map · _) (funext fun row => ?_)
  exact replyPreviewFromRow_modified row reactions _

theorem Rendered.view (id : String) :
    (store.view groupIdHex)[id]? = (store.timeline groupIdHex)[id]?.map fun row =>
      { row with replyPreview := row.replyToMessageIdHex.bind (store.previewAt groupIdHex) } := by
  rw [TimelineStore.view, ExtTreeMap.getElem?_map]
  cases found : (store.timeline groupIdHex)[id]? with
  | none => rfl
  | some =>
    rw [map_some, map_some, attachReplyPreview, (rendered.place found).1]
    rfl

/-! ### The records of some ids -/

variable {ids : List String} {message : TimelineMessageRecord}

omit rendered in
theorem mem_timelineRecordsByIds :
    message ∈ store.timelineRecordsByIds groupIdHex ids ↔
      ∃ id ∈ ids, (store.view groupIdHex)[id]? = some message := by
  rw [timelineRecordsByIds, mem_map]
  simp only [mem_sortBy, mem_map, mem_filter, decide_eq_true_eq, Prod.exists,
    ExtTreeMap.mem_toList_iff_getElem?_eq_some, TimelineStore.view, ExtTreeMap.getElem?_map,
    Option.map_eq_some_iff]
  constructor
  · rintro ⟨row, ⟨id, _, ⟨found, listed⟩, rfl⟩, rfl⟩
    exact ⟨id, listed, _, found, rfl⟩
  · rintro ⟨id, listed, row, found, rfl⟩
    exact ⟨row, ⟨id, row, ⟨found, listed⟩, rfl⟩, rfl⟩

theorem Rendered.view_messageIdHex (found : (store.view groupIdHex)[id]? = some message) :
    message.messageIdHex = id := by
  rw [rendered.view] at found
  obtain ⟨_, here, rfl⟩ := Option.map_eq_some_iff.mp found
  exact (rendered.place here).2

theorem Rendered.find?_records (listed : id ∈ ids) :
    (store.timelineRecordsByIds groupIdHex ids).find? (·.messageIdHex = id) =
      (store.view groupIdHex)[id]? := by
  cases found : (store.timelineRecordsByIds groupIdHex ids).find? (·.messageIdHex = id) with
  | none =>
    rw [find?_eq_none] at found
    cases seen : (store.view groupIdHex)[id]? with
    | none => rfl
    | some message =>
      refine absurd ?_ (found message (mem_timelineRecordsByIds.mpr ⟨id, listed, seen⟩))
      exact decide_eq_true (rendered.view_messageIdHex seen)
  | some =>
    obtain ⟨_, _, seen⟩ := mem_timelineRecordsByIds.mp (mem_of_find?_eq_some found)
    have named := of_decide_eq_true (find?_some found :)
    rw [rendered.view_messageIdHex seen] at named
    rw [← named, seen]

theorem Rendered.mem_records_ids :
    id ∈ (store.timelineRecordsByIds groupIdHex ids).map (·.messageIdHex) ↔
      id ∈ ids ∧ (store.view groupIdHex)[id]?.isSome := by
  rw [mem_map]
  constructor
  · rintro ⟨message, listed, rfl⟩
    obtain ⟨id, affected, seen⟩ := mem_timelineRecordsByIds.mp listed
    rw [rendered.view_messageIdHex seen, seen]
    exact ⟨affected, rfl⟩
  · rintro ⟨affected, isSome⟩
    obtain ⟨message, seen⟩ := Option.isSome_iff_exists.mp isSome
    exact ⟨message, mem_timelineRecordsByIds.mpr ⟨id, affected, seen⟩,
      rendered.view_messageIdHex seen⟩

end Rendering

/-! ### What two views have in common -/

theorem Rendered.view_congr (rendered : before.Rendered groupIdHex)
    (same : after.timeline groupIdHex = before.timeline groupIdHex) :
    after.view groupIdHex = before.view groupIdHex := by
  refine ExtTreeMap.ext_getElem? fun id => ?_
  rw [TimelineStore.view, TimelineStore.view, same, ExtTreeMap.getElem?_map,
    ExtTreeMap.getElem?_map]
  cases found : (before.timeline groupIdHex)[id]? with
  | none => rfl
  | some =>
    rw [map_some, map_some, attachReplyPreview, attachReplyPreview, (rendered.place found).1, same]

/-- A row that is the same, and a reply to a message whose preview is the same. -/
theorem view_eq (here : before.Rendered groupIdHex) (there : after.Rendered groupIdHex)
    (row : (after.timeline groupIdHex)[id]? = (before.timeline groupIdHex)[id]?)
    (previews : ∀ row, (before.timeline groupIdHex)[id]? = some row →
      ∀ target, row.replyToMessageIdHex = some target →
        after.previewAt groupIdHex target = before.previewAt groupIdHex target) :
    (before.view groupIdHex)[id]? = (after.view groupIdHex)[id]? := by
  rw [here.view, there.view, row]
  cases found : (before.timeline groupIdHex)[id]? with
  | none => rfl
  | some row =>
    rw [map_some, map_some]
    cases replies : row.replyToMessageIdHex with
    | none => rfl
    | some target => rw [bind_some, bind_some, previews row found target replies]

/-- **Events that a preview does not depend on.** -/
theorem preview_kept (here : before.Rendered groupIdHex) (there : after.Rendered groupIdHex)
    (own : ((before.eventAt groupIdHex id).bind rowFor).map replyPreviewFromRow =
      ((after.eventAt groupIdHex id).bind rowFor).map replyPreviewFromRow)
    (deletes : before.deletesOn groupIdHex id = after.deletesOn groupIdHex id) :
    after.previewAt groupIdHex id = before.previewAt groupIdHex id := by
  rw [here.previewAt, there.previewAt, own, deletes]

/-- **A copy after an update** is right exactly when the changes cover the ids that are seen
otherwise. -/
theorem applyTo_eq_iff {update : TimelineProjectionUpdate}
    (others : ∀ group, group ≠ update.groupIdHex → after.view group = before.view group)
    (right : ∀ change ∈ update.changes,
      change.entry.2 = (after.view update.groupIdHex)[change.entry.1]?) :
    update.applyTo before.view = after.view ↔
      ∀ id, id ∉ update.changes.map (·.entry.1) →
        (before.view update.groupIdHex)[id]? = (after.view update.groupIdHex)[id]? := by
  have rightEntries : ∀ entry ∈ update.changes.map TimelineMessageChange.entry,
      entry.2 = (after.view update.groupIdHex)[entry.1]? := by
    intro _ listed
    obtain ⟨change, isChange, rfl⟩ := mem_map.mp listed
    exact right change isChange
  have keys : update.changes.map (·.entry.1) =
      (update.changes.map TimelineMessageChange.entry).map (·.1) := by
    rw [map_map]
    rfl
  rw [keys, ← follow_eq_iff rightEntries, TimelineProjectionUpdate.applyTo]
  constructor
  · intro same
    rw [← same, Function.update_self]
  · intro same
    funext group
    by_cases own : group = update.groupIdHex
    · subst own
      rw [update_self, same]
    · rw [update_of_ne own, others group own]

/-! ### Recorded events -/

theorem timeline_rebuilt :
    ((store.rebuildMessageTimelineForGroup groupIdHex).timeline groupIdHex)[id]? =
      store.rebuiltRow groupIdHex id :=
  congrArg (·[id]?) (update_self _ _ _)

section Recorded

variable {event : StoredAppEvent} {events : AppEvents}

theorem recordWritten_eq :
    store.recordWritten event events =
        (store.withEvent event events).refreshed event.groupIdHex (store.recordAffected event) ∨
      store.recordWritten event events =
        (store.withEvent event events).rebuildMessageTimelineForGroup event.groupIdHex := by
  rw [recordWritten, ← withEvent]
  split_ifs
  · exact .inl (foldl_upsert _)
  · exact .inr rfl

theorem recordWritten_others {group : String} (other : group ≠ event.groupIdHex) :
    (store.recordWritten event events).timeline group = store.timeline group := by
  obtain same | same := @recordWritten_eq store event events <;>
    rw [same] <;> exact update_of_ne other _ _

variable (recorded : store.events.recordAppEvent event = some events)

include recorded

theorem recordWritten_eventAt (groupIdHex id : String) :
    (store.recordWritten event events).eventAt groupIdHex id =
      if groupIdHex = event.groupIdHex ∧ id = event.messageIdHex then
        some (AppEvents.upserted event (store.eventAt groupIdHex id))
      else store.eventAt groupIdHex id := by
  rw [← withEvent_eventAt recorded]
  obtain same | same := @recordWritten_eq store event events <;> rw [same] <;> rfl

theorem recordWritten_row (upkept : store.Upkept) (spared : id ∉ store.recordAffected event) :
    ((store.recordWritten event events).timeline event.groupIdHex)[id]? =
      (store.timeline event.groupIdHex)[id]? := by
  obtain same | same := @recordWritten_eq store event events
  · have timeline : ((store.withEvent event events).refreshed event.groupIdHex
        (store.recordAffected event)).timeline event.groupIdHex = _ := update_self _ _ _
    rw [same, timeline, getElem?_refresh, if_neg spared]
    rfl
  · obtain ⟨before, after⟩ := withEvent_unaffected recorded spared
    rw [same, timeline_rebuilt, (upkept.tabled event.groupIdHex id).1, (rebuilt_kept before after).1]

theorem recordWritten_rendered (upkept : store.Upkept) :
    (store.recordWritten event events).Rendered event.groupIdHex := by
  intro id
  by_cases affected : id ∈ store.recordAffected event
  · obtain same | same := @recordWritten_eq store event events
    · have timeline : ((store.withEvent event events).refreshed event.groupIdHex
          (store.recordAffected event)).timeline event.groupIdHex = _ := update_self _ _ _
      rw [same, timeline, getElem?_refresh, if_pos affected,
        projectSingle_row (withEvent_referenced recorded upkept.referenced)]
      exact ⟨_, rfl⟩
    · rw [same]
      exact ⟨_, timeline_rebuilt.trans rebuiltRow_eq⟩
  · rw [recordWritten_row recorded upkept affected]
    obtain ⟨before, after⟩ := withEvent_unaffected recorded affected
    rw [(upkept.tabled event.groupIdHex id).1, (rebuilt_kept before after).1, rebuiltRow_eq]
    obtain same | same := @recordWritten_eq store event events <;> rw [same] <;> exact ⟨_, rfl⟩

/-- The row of an event that is recorded. -/
def recordedRow (event : StoredAppEvent) : Option TimelineRow :=
  rowFor (AppEvents.upserted event none)

/-- The preview that a recorded event gives: of its row, with the deletions that name it. -/
def recordedPreview (store : TimelineStore) (event : StoredAppEvent) : Option TimelineReplyPreview :=
  ((recordedRow event).map replyPreviewFromRow).map fun preview =>
    ((store.deletesOn event.groupIdHex event.messageIdHex).filter
      (·.messageIdHex ≠ event.messageIdHex)).foldl .applyDelete preview

/-- **The row is not taken away**: an event whose id has a row has one. -/
def KeepsRow (store : TimelineStore) (event : StoredAppEvent) : Prop :=
  (store.timeline event.groupIdHex)[event.messageIdHex]?.isSome → (recordedRow event).isSome

/-- **Replies to an edit show it already**, those apart that the event affects otherwise. -/
def ShowsEdit (store : TimelineStore) (event : StoredAppEvent) : Prop :=
  event.kind = editKind → ∀ id row, (store.timeline event.groupIdHex)[id]? = some row →
    row.replyToMessageIdHex = some event.messageIdHex → id ∉ store.recordAffected event →
      store.previewAt event.groupIdHex event.messageIdHex = store.recordedPreview event

theorem recordWritten_bind_own :
    ((store.recordWritten event events).eventAt event.groupIdHex event.messageIdHex).bind rowFor =
      recordedRow event := by
  rw [recordWritten_eventAt recorded, if_pos ⟨rfl, rfl⟩]
  rfl

theorem recordWritten_bind_other (other : id ≠ event.messageIdHex) :
    (store.recordWritten event events).eventAt event.groupIdHex id =
      store.eventAt event.groupIdHex id := by
  rw [recordWritten_eventAt recorded, if_neg fun same => other same.2]

theorem recordWritten_deletesOn (modifies : event.kind ≠ deleteKind) :
    (store.recordWritten event events).deletesOn event.groupIdHex id =
      (store.deletesOn event.groupIdHex id).filter (·.messageIdHex ≠ event.messageIdHex) := by
  rw [deletesOn, deletesOn, filter_filter]
  refine filter_appEventsForRebuild fun delete => ?_
  rw [recordWritten_eventAt recorded]
  by_cases own : delete.messageIdHex = event.messageIdHex
  · rw [if_pos ⟨rfl, own⟩]
    simp only [own, ne_eq, not_true_eq_false, decide_false, Bool.false_and, Bool.false_eq_true,
      and_false, iff_false, not_and]
    intro same deletes
    rw [← Option.some.inj same, Bool.and_eq_true, isLive_iff] at deletes
    exact modifies deletes.1.1
  · rw [if_neg fun same => own same.2]
    simp [own]

variable {row : TimelineRow} {target : String}

omit recorded in
/-- A row that replies to one whose preview the event changes is affected. -/
theorem mem_affected_of_replies {messageIdHex : String} {kind : Nat} {tags : List (List String)}
    (found : (store.timeline groupIdHex)[id]? = some row)
    (replies : row.replyToMessageIdHex = some target)
    (previewed : target ∈ replyPreviewTargets messageIdHex kind tags) :
    id ∈ store.affectedTimelineMessageIds groupIdHex messageIdHex kind tags := by
  refine mem_append_right _ (mem_map.mpr ⟨(id, row), mem_filter.mpr ⟨?_, ?_⟩, rfl⟩)
  · exact ExtTreeMap.mem_toList_iff_getElem?_eq_some.mpr found
  · dsimp only
    rw [replies, Option.any_some]
    exact decide_eq_true previewed

omit recorded in
theorem replyPreviewTargets_delete (messageIdHex : String) (tags : List (List String)) :
    replyPreviewTargets messageIdHex deleteKind tags = tagValues tags eventRefTag := rfl

/-- **The preview of a message that an unaffected row replies to.** -/
theorem recordWritten_preview (upkept : store.Upkept) (keeps : store.KeepsRow event)
    (shows : store.ShowsEdit event) (spared : id ∉ store.recordAffected event)
    (found : (store.timeline event.groupIdHex)[id]? = some row)
    (replies : row.replyToMessageIdHex = some target) :
    (store.recordWritten event events).previewAt event.groupIdHex target =
      store.previewAt event.groupIdHex target := by
  have rendered : store.Rendered event.groupIdHex := upkept.rendered
  have renderedAfter := recordWritten_rendered recorded upkept
  have sparedToo := spared
  rw [recordAffected, mem_append, not_or] at sparedToo
  obtain ⟨byNew, byOld⟩ := sparedToo
  have notNew : target ∉ replyPreviewTargets event.messageIdHex event.kind event.tags :=
    fun previewed => byNew (mem_affected_of_replies found replies previewed)
  have notOld : ∀ existing, store.eventAt event.groupIdHex event.messageIdHex = some existing →
      target ∉ replyPreviewTargets event.messageIdHex existing.kind existing.tags := by
    intro existing stored previewed
    have here : store.events.row? event.key = some existing := stored
    rw [here] at byOld
    exact byOld (mem_affected_of_replies found replies previewed)
  by_cases own : target = event.messageIdHex
  · subst own
    have notKind : event.kind ∉ [chatKind, agentStreamStartKind, agentActivityKind,
        agentOperationKind, groupSystemKind] := by
      intro previewing
      rw [replyPreviewTargets, if_pos previewing] at notNew
      exact notNew (mem_singleton_self _)
    by_cases edits : event.kind = editKind
    · rw [shows edits id row found replies spared, renderedAfter.previewAt,
        recordWritten_bind_own recorded, recordedPreview,
        recordWritten_deletesOn recorded (by rw [edits]; decide)]
    · -- The event has no row, and so its id had none.
      have hidden : recordedRow event = none := rowFor_eq_none_of_kind notKind edits
      have noRow : (store.timeline event.groupIdHex)[event.messageIdHex]? = none := by
        by_contra some
        have isSome := keeps (Option.isSome_iff_ne_none.mpr some)
        rw [hidden] at isSome
        cases isSome
      rw [renderedAfter.previewAt, recordWritten_bind_own recorded, hidden, previewAt, noRow]
      rfl
  · refine preview_kept rendered renderedAfter ?_ ?_
    · rw [recordWritten_bind_other recorded own]
    · refine @deletesOn_congr _ _ _ _ [event.messageIdHex] ?_ ?_ ?_
      · intro other untouched
        rw [recordWritten_bind_other recorded fun same => untouched (mem_singleton.mpr same)]
      · intro _ touched existing stored isDelete
        obtain rfl := mem_singleton.mp touched
        have spares := notOld existing stored
        rwa [isDelete, replyPreviewTargets_delete] at spares
      · intro _ touched _ stored isDelete
        obtain rfl := mem_singleton.mp touched
        rw [recordWritten_eventAt recorded, if_pos ⟨rfl, rfl⟩] at stored
        obtain rfl := Option.some.inj stored
        have kind : event.kind = deleteKind := isDelete
        rwa [kind, replyPreviewTargets_delete] at notNew

omit recorded in
theorem Rendered.view_isSome (rendered : store.Rendered groupIdHex) (id : String) :
    (store.view groupIdHex)[id]?.isSome = (store.timeline groupIdHex)[id]?.isSome := by
  rw [rendered.view, Option.isSome_map]

/-- A copy follows when the ids without a returned row are seen as before. -/
theorem record_follows_iff_covered (upkept : store.Upkept) :
    store.Follows (.record event) ↔ ∀ id, ¬ (id ∈ store.recordAffected event ∧
        ((store.recordWritten event events).view event.groupIdHex)[id]?.isSome) →
      (store.view event.groupIdHex)[id]? =
        ((store.recordWritten event events).view event.groupIdHex)[id]? := by
  have rendered := recordWritten_rendered recorded upkept
  rw [Follows, update?, TimelineStore.apply, recordAppEvent, recorded]
  refine (applyTo_eq_iff ?_ ?_).trans (forall_congr' fun id => imp_congr_left (not_congr ?_))
  · intro _ other
    exact upkept.rendered.view_congr (recordWritten_others other)
  · intro change listed
    obtain ⟨message, isMessage, rfl⟩ := mem_map.mp listed
    obtain ⟨id, _, seen⟩ := mem_timelineRecordsByIds.mp isMessage
    change some message = (view _ event.groupIdHex)[message.messageIdHex]?
    rw [rendered.view_messageIdHex seen]
    exact seen.symm
  · rw [← rendered.mem_records_ids]
    change id ∈ (map _ (map _ _)) ↔ _
    rw [map_map]
    rfl

/-- **A copy follows a recorded event** exactly when it takes no row away and the replies to an edit
show it. -/
theorem record_follows_iff (upkept : store.Upkept) :
    store.Follows (.record event) ↔ store.KeepsRow event ∧ store.ShowsEdit event := by
  have rendered : store.Rendered event.groupIdHex := upkept.rendered
  have renderedAfter := recordWritten_rendered recorded upkept
  rw [record_follows_iff_covered recorded upkept]
  constructor
  · intro covered
    constructor
    · intro hadRow
      by_contra hidden
      have gone : ((store.recordWritten event events).view event.groupIdHex)[event.messageIdHex]?.isSome
          = false := by
        rw [renderedAfter.view_isSome, renderedAfter.isSome, recordWritten_bind_own recorded]
        simpa using hidden
      have same := covered event.messageIdHex (by simp [gone])
      rw [← rendered.view_isSome, same, gone] at hadRow
      cases hadRow
    · intro edits id row found replies spared
      have same := covered id fun both => spared both.1
      have kept := recordWritten_row recorded upkept spared
      rw [rendered.view, renderedAfter.view, kept, found, map_some, map_some,
        replies, bind_some, bind_some] at same
      have preview := congrArg TimelineMessageRecord.replyPreview (Option.some.inj same)
      refine preview.trans ?_
      rw [renderedAfter.previewAt, recordWritten_bind_own recorded, recordedPreview,
        recordWritten_deletesOn recorded (by rw [edits]; decide)]
  · rintro ⟨keeps, shows⟩ id uncovered
    by_cases affected : id ∈ store.recordAffected event
    · -- The id has no row afterwards, and so it had none.
      have noneAfter : (((store.recordWritten event events).eventAt event.groupIdHex id).bind
          rowFor).isSome = false := by
        rw [← renderedAfter.isSome, ← renderedAfter.view_isSome]
        exact Bool.eq_false_iff.mpr fun isSome => uncovered ⟨affected, isSome⟩
      have noneBefore : (store.timeline event.groupIdHex)[id]?.isSome = false := by
        by_cases own : id = event.messageIdHex
        · subst own
          rw [recordWritten_bind_own recorded] at noneAfter
          by_contra hadRow
          rw [keeps (by simpa using hadRow)] at noneAfter
          cases noneAfter
        · rw [rendered.isSome, ← recordWritten_bind_other recorded own, noneAfter]
      rw [← rendered.view_isSome] at noneBefore
      rw [← renderedAfter.isSome, ← renderedAfter.view_isSome] at noneAfter
      rw [Option.isSome_eq_false_iff, Option.isNone_iff_eq_none] at noneBefore noneAfter
      rw [noneBefore, noneAfter]
    · refine view_eq rendered renderedAfter (recordWritten_row recorded upkept affected) ?_
      intro _ found _ replies
      exact recordWritten_preview recorded upkept keeps shows affected found replies

end Recorded

/-! ### Withdrawn events -/

section Withdrawn

variable {picks : AppEventRow → Bool} {reason : String} {affected : List String}

/-- The store after the withdrawal of some events, with one group rebuilt. -/
def withdrawn (store : TimelineStore) (picks : AppEventRow → Bool) (reason groupIdHex : String) :
    TimelineStore :=
  { store with
    events := store.events.invalidateRows picks reason }.rebuildMessageTimelineForGroup groupIdHex

theorem withdrawn_eventAt (group id : String) :
    (store.withdrawn picks reason groupIdHex).eventAt group id =
      (store.eventAt group id).map fun row =>
        if picks row then { row with invalidated := true, invalidationReason := some reason }
        else row :=
  invalidated_eventAt group id

theorem withdrawn_rendered : (store.withdrawn picks reason groupIdHex).Rendered groupIdHex := by
  intro _
  exact ⟨_, timeline_rebuilt.trans rebuiltRow_eq⟩

theorem withdrawn_preview (event : AppEventRow) :
    (rowFor { event with invalidated := true, invalidationReason := some reason }).map
      replyPreviewFromRow = (rowFor event).map replyPreviewFromRow := by
  have marked (event : AppEventRow) (row : TimelineRow) :
      replyPreviewFromRow (markInvalidated event row) = replyPreviewFromRow row := by
    rw [markInvalidated]
    split_ifs <;> rfl
  rw [rowFor, rowFor]
  split_ifs
  · rw [map_some, map_some, marked, marked]
    rfl
  · rw [map_some, map_some, marked, marked]
    rfl
  · rw [map_some, map_some, marked, marked]
    rfl
  · rfl

/-- The ids of the withdrawn events of the group. -/
def withdrawnIds (store : TimelineStore) (picks : AppEventRow → Bool) (groupIdHex : String) :
    List String :=
  (store.events.rows.filter fun row => picks row && row.groupIdHex = groupIdHex).map (·.messageIdHex)

theorem mem_withdrawnIds : id ∈ store.withdrawnIds picks groupIdHex ↔
    ∃ row, store.eventAt groupIdHex id = some row ∧ picks row := by
  rw [withdrawnIds, mem_map]
  refine exists_congr fun row => ?_
  rw [mem_filter, Bool.and_eq_true, decide_eq_true_eq, eventAt, AppEvents.row?_eq_some,
    StoredAppEvent.key, Prod.mk.injEq]
  tauto

theorem withdrawn_agree (other : String) (untouched : other ∉ store.withdrawnIds picks groupIdHex) :
    (store.withdrawn picks reason groupIdHex).eventAt groupIdHex other =
      store.eventAt groupIdHex other := by
  rw [withdrawn_eventAt]
  cases found : store.eventAt groupIdHex other with
  | none => rfl
  | some row =>
    rw [map_some, if_neg fun picked => untouched (mem_withdrawnIds.mpr ⟨row, found, picked⟩)]

theorem withdrawn_kind {event : AppEventRow}
    (there : (store.withdrawn picks reason groupIdHex).eventAt groupIdHex id = some event) :
    ∃ row, store.eventAt groupIdHex id = some row ∧ event.kind = row.kind ∧ event.tags = row.tags := by
  rw [withdrawn_eventAt] at there
  obtain ⟨row, here, rfl⟩ := Option.map_eq_some_iff.mp there
  refine ⟨row, here, ?_⟩
  split_ifs <;> exact ⟨rfl, rfl⟩

/-- **What a withdrawal leaves as it was seen**: the ids that the withdrawn events do not affect. -/
theorem withdrawn_view (upkept : store.Upkept)
    (covers : ∀ row ∈ store.events.rows, picks row → row.groupIdHex = groupIdHex →
      store.affectedTimelineMessageIds groupIdHex row.messageIdHex row.kind row.tags ⊆ affected)
    (spared : id ∉ affected) :
    (store.view groupIdHex)[id]? =
      ((store.withdrawn picks reason groupIdHex).view groupIdHex)[id]? := by
  have affects : ∀ other ∈ store.withdrawnIds picks groupIdHex, ∀ event,
      store.eventAt groupIdHex other = some event →
      id ∉ store.affectedTimelineMessageIds groupIdHex other event.kind event.tags := by
    intro other touched event found listed
    obtain ⟨row, here, picked⟩ := mem_withdrawnIds.mp touched
    obtain rfl := Option.some.inj (found.symm.trans here)
    obtain ⟨named, inGroup⟩ := eventAt_messageIdHex found
    rw [← named] at listed
    exact spared (covers event (AppEvents.row?_eq_some.mp found).1 picked inGroup listed)
  have before : Unaffected store store groupIdHex (store.withdrawnIds picks groupIdHex) id :=
    ⟨fun _ _ => rfl, fun other touched event found listed =>
      affects other touched event found (mem_append_left _ listed)⟩
  have after : Unaffected store (store.withdrawn picks reason groupIdHex) groupIdHex
      (store.withdrawnIds picks groupIdHex) id := by
    refine ⟨withdrawn_agree, fun other touched event found listed => ?_⟩
    obtain ⟨row, here, kind, tags⟩ := withdrawn_kind found
    rw [kind, tags] at listed
    exact affects other touched row here (mem_append_left _ listed)
  refine view_eq upkept.rendered withdrawn_rendered ?_ ?_
  · rw [(upkept.tabled groupIdHex id).1, (rebuilt_kept before after).1]
    exact timeline_rebuilt
  · intro row found target replies
    refine preview_kept upkept.rendered withdrawn_rendered ?_ ?_
    · rw [withdrawn_eventAt]
      cases store.eventAt groupIdHex target with
      | none => rfl
      | some event =>
        rw [map_some, bind_some, bind_some]
        split_ifs
        · exact (withdrawn_preview event).symm
        · rfl
    · have previewed : ∀ other ∈ store.withdrawnIds picks groupIdHex, ∀ event,
          store.eventAt groupIdHex other = some event → event.kind = deleteKind →
          target ∉ tagValues event.tags eventRefTag := by
        intro other touched event stored isDelete _
        refine affects other touched event stored (mem_affected_of_replies found replies ?_)
        rwa [isDelete, replyPreviewTargets_delete]
      refine deletesOn_congr (fun other untouched => (withdrawn_agree other untouched).symm)
        previewed ?_
      intro other touched _ stored isDelete
      obtain ⟨row, here, kind, tags⟩ := withdrawn_kind stored
      rw [tags]
      exact previewed other touched row here (kind.symm.trans isDelete)

variable {eventMessageIdHex : String} {kind : Nat} {tags : List (List String)}

theorem changesForInvalidation_right (here : before.Rendered groupIdHex)
    (there : after.Rendered groupIdHex) :
    ∀ change ∈ timelineChangesForInvalidation eventMessageIdHex kind tags
        (before.timelineRecordsByIds groupIdHex affected)
        (after.timelineRecordsByIds groupIdHex affected),
      change.entry.2 = (after.view groupIdHex)[change.entry.1]? := by
  intro change listed
  rw [timelineChangesForInvalidation, mem_append, mem_map, mem_map] at listed
  obtain ⟨message, isMessage, rfl⟩ | ⟨message, isMessage, rfl⟩ := listed
  · obtain ⟨id, _, seen⟩ := mem_timelineRecordsByIds.mp (mem_of_mem_filter isMessage)
    change some message = (after.view groupIdHex)[message.messageIdHex]?
    rw [there.view_messageIdHex seen, seen]
  · rw [mem_filter] at isMessage
    obtain ⟨id, isAffected, seen⟩ := mem_timelineRecordsByIds.mp isMessage.1
    have named := here.view_messageIdHex seen
    change none = (after.view groupIdHex)[message.messageIdHex]?
    rw [← there.find?_records (named ▸ isAffected)]
    exact (Option.isNone_iff_eq_none.mp isMessage.2).symm

/-- **They cover every affected id that is seen otherwise.** -/
theorem changesForInvalidation_covers (here : before.Rendered groupIdHex)
    (there : after.Rendered groupIdHex) (isAffected : id ∈ affected)
    (differs : (before.view groupIdHex)[id]? ≠ (after.view groupIdHex)[id]?) :
    id ∈ (timelineChangesForInvalidation eventMessageIdHex kind tags
      (before.timelineRecordsByIds groupIdHex affected)
      (after.timelineRecordsByIds groupIdHex affected)).map (·.entry.1) := by
  rw [timelineChangesForInvalidation, map_append, map_map, map_map, mem_append]
  cases seenAfter : (after.view groupIdHex)[id]? with
  | some message =>
    have named := there.view_messageIdHex seenAfter
    refine .inl (mem_map.mpr ⟨message, mem_filter.mpr ⟨?_, ?_⟩, named⟩)
    · exact mem_timelineRecordsByIds.mpr ⟨id, isAffected, seenAfter⟩
    · rw [seenAfter] at differs
      rw [decide_eq_true_eq, named, here.find?_records isAffected]
      exact differs
  | none =>
    rw [seenAfter] at differs
    obtain ⟨message, seenBefore⟩ := Option.ne_none_iff_exists'.mp differs
    have named := here.view_messageIdHex seenBefore
    refine .inr (mem_map.mpr ⟨message, mem_filter.mpr ⟨?_, ?_⟩, named⟩)
    · exact mem_timelineRecordsByIds.mpr ⟨id, isAffected, seenBefore⟩
    · rw [named, there.find?_records isAffected, seenAfter]
      rfl

/-- A copy follows a withdrawal whose changes are right and cover the affected ids. -/
theorem withdrawn_follows (upkept : store.Upkept)
    (covers : ∀ row ∈ store.events.rows, picks row → row.groupIdHex = groupIdHex →
      store.affectedTimelineMessageIds groupIdHex row.messageIdHex row.kind row.tags ⊆ affected)
    {update : TimelineProjectionUpdate} (group : update.groupIdHex = groupIdHex)
    (right : ∀ change ∈ update.changes, change.entry.2 =
      ((store.withdrawn picks reason groupIdHex).view groupIdHex)[change.entry.1]?)
    (covered : ∀ id ∈ affected, (store.view groupIdHex)[id]? ≠
        ((store.withdrawn picks reason groupIdHex).view groupIdHex)[id]? →
      id ∈ update.changes.map (·.entry.1)) :
    update.applyTo store.view = (store.withdrawn picks reason groupIdHex).view := by
  subst group
  refine (applyTo_eq_iff ?_ right).mpr fun id uncovered => ?_
  · intro _ other
    exact upkept.rendered.view_congr (update_of_ne other _ _)
  · by_cases isAffected : id ∈ affected
    · by_contra differs
      exact uncovered (covered id isAffected differs)
    · exact withdrawn_view upkept covers isAffected

theorem invalidate_follows (upkept : store.Upkept) {row : AppEventRow}
    (picksRow : ∀ other ∈ store.events.rows, picks other → other = row) :
    (store.invalidateAppEvent row (store.events.invalidateRows picks reason)).2.applyTo store.view =
      (store.invalidateAppEvent row (store.events.invalidateRows picks reason)).1.view := by
  refine @withdrawn_follows store row.groupIdHex picks reason
    (store.affectedTimelineMessageIds row.groupIdHex row.messageIdHex row.kind row.tags) upkept ?_ _
    rfl ?_ ?_
  · intro other listed picked _
    rw [picksRow other listed picked]
    exact fun _ listed => listed
  · exact changesForInvalidation_right upkept.rendered withdrawn_rendered
  · intro _ isAffected differs
    exact changesForInvalidation_covers upkept.rendered withdrawn_rendered isAffected differs

end Withdrawn

end TimelineStore

/-! ### Changes that are made once -/

variable {changes : List TimelineMessageChange}

/-- A change to keep, unless one of the kind is kept. -/
theorem foldl_dedup {kept : List TimelineMessageChange} :
    (∀ change ∈ changes.foldl (fun kept change =>
        if change.key ∈ kept.map TimelineMessageChange.key then kept else kept ++ [change]) kept,
      change ∈ kept ∨ change ∈ changes) ∧
    ∀ change, change ∈ kept ∨ change ∈ changes →
      ∃ other ∈ changes.foldl (fun kept change =>
        if change.key ∈ kept.map TimelineMessageChange.key then kept else kept ++ [change]) kept,
      other.key = change.key := by
  induction changes generalizing kept with
  | nil => exact ⟨fun change => .inl, fun change listed => ⟨change, by simpa using listed, rfl⟩⟩
  | cons first rest ih =>
    rw [foldl_cons]
    by_cases known : first.key ∈ kept.map TimelineMessageChange.key
    · rw [if_pos known]
      refine ⟨fun change listed => (ih.1 change listed).imp id (mem_cons_of_mem _), ?_⟩
      rintro change (isKept | listed)
      · exact ih.2 change (.inl isKept)
      · obtain rfl | later := mem_cons.mp listed
        · obtain ⟨other, isKept, same⟩ := mem_map.mp known
          rw [← same]
          exact ih.2 other (.inl isKept)
        · exact ih.2 change (.inr later)
    · rw [if_neg known]
      constructor
      · intro change listed
        obtain isKept | later := ih.1 change listed
        · obtain isKept | isFirst := mem_append.mp isKept
          · exact .inl isKept
          · rw [mem_singleton.mp isFirst]
            exact .inr mem_cons_self
        · exact .inr (mem_cons_of_mem _ later)
      · rintro change (isKept | listed)
        · exact ih.2 change (.inl (mem_append_left _ isKept))
        · obtain rfl | later := mem_cons.mp listed
          · exact ih.2 change (.inl (mem_append_right _ (mem_singleton_self _)))
          · exact ih.2 change (.inr later)

theorem key_entry {change other : TimelineMessageChange} (same : change.key = other.key) :
    change.entry.1 = other.entry.1 := by
  cases change <;> cases other <;> simp_all [TimelineMessageChange.key, TimelineMessageChange.entry]

theorem mem_dedup_ids {id : String} (listed : id ∈ changes.map (·.entry.1)) :
    id ∈ (dedupTimelineChanges changes).map (·.entry.1) := by
  obtain ⟨change, isChange, rfl⟩ := mem_map.mp listed
  obtain ⟨kept, isKept, same⟩ := foldl_dedup.2 change (.inr isChange)
  exact mem_map.mpr ⟨kept, isKept, key_entry same⟩

namespace TimelineStore

variable {store : TimelineStore}

/-- The events of a commit that are withdrawn, in the group of the first of them. -/
theorem originCommit_follows (upkept : store.Upkept) (originCommitId reason : String) :
    store.Follows (.invalidateByOriginCommit originCommitId reason) := by
  rw [Follows, update?, TimelineStore.apply, invalidateAppEventsByOriginCommit]
  cases found : (store.events.rows.filter (·.originCommitId = some originCommitId)).head? with
  | none => rfl
  | some first =>
    refine @withdrawn_follows store first.groupIdHex (·.originCommitId = some originCommitId) reason
      ((store.events.rows.filter (·.originCommitId = some originCommitId)).flatMap fun row =>
        store.affectedTimelineMessageIds row.groupIdHex row.messageIdHex row.kind row.tags) upkept
      ?_ _ rfl ?_ ?_
    · intro row listed picked inGroup id _
      refine mem_flatMap.mpr ⟨row, mem_filter.mpr ⟨listed, picked⟩, ?_⟩
      rwa [inGroup]
    · intro change listed
      obtain none | isChange := foldl_dedup.1 change listed
      · cases none
      · obtain ⟨_, _, isChange⟩ := mem_flatMap.mp isChange
        exact changesForInvalidation_right upkept.rendered withdrawn_rendered change isChange
    · intro id isAffected differs
      -- The changes of the first event cover the affected ids of all of them.
      have isFirst := mem_of_head? found
      obtain ⟨change, isChange, named⟩ := mem_map.mp
        (@changesForInvalidation_covers _ _ _ _ _ first.messageIdHex first.kind first.tags
          upkept.rendered withdrawn_rendered isAffected differs)
      change id ∈ (dedupTimelineChanges _).map _
      refine mem_dedup_ids (mem_map.mpr ⟨change, ?_, named⟩)
      exact mem_flatMap.mpr ⟨first, isFirst, isChange⟩

end TimelineStore

/-! ### Calls -/

open TimelineStore

/-- **The condition.** Withdrawals are always announced. -/
def TimelineOperation.Announced (store : TimelineStore) : TimelineOperation → Prop
  | .record event => store.events.clashes event = false →
    store.KeepsRow event ∧ store.ShowsEdit event
  | _ => True

/-- **A copy follows a call exactly when the call is announced**, in every state that regular
operations lead to. -/
theorem changes_complete_iff {operations : List TimelineOperation}
    (regular : Along apply (fun store operation => operation.Regular store) .empty
      operations) (operation : TimelineOperation)
    (calls : ∀ groupIdHex cutoffRecordedAt, operation ≠ .prune groupIdHex cutoffRecordedAt) :
    (operations.foldl apply .empty).Follows operation ↔
      operation.Announced (operations.foldl apply .empty) := by
  have upkept := regular_upkept regular
  generalize operations.foldl apply .empty = store at upkept
  cases operation with
  | record event =>
    cases recorded : store.events.recordAppEvent event with
    | none =>
      have refused : store.events.clashes event ≠ false := by
        intro free
        rw [AppEvents.recordAppEvent, dif_pos free] at recorded
        cases recorded
      refine iff_of_true ?_ fun free => absurd free refused
      rw [TimelineStore.Follows, update?, apply, recordAppEvent, recorded]
      rfl
    | some =>
      have free : store.events.clashes event = false := by
        by_contra refused
        rw [AppEvents.recordAppEvent, dif_neg refused] at recorded
        cases recorded
      rw [record_follows_iff recorded upkept]
      exact ⟨fun both _ => both, fun both => both free⟩
  | invalidateBySource sourceMessageIdHex =>
    refine iff_of_true ?_ trivial
    rw [TimelineStore.Follows, update?, apply, invalidateAppEventBySource]
    cases found : store.events.rows.find? (·.sourceMessageIdHex = some sourceMessageIdHex) with
    | none => rfl
    | some row =>
      have names := find?_some found
      refine invalidate_follows upkept fun other listed picked => ?_
      exact AppEvents.sourced_eq listed (mem_of_find?_eq_some found)
        (of_decide_eq_true picked) (of_decide_eq_true names)
  | invalidateByMessageId groupIdHex messageIdHex =>
    refine iff_of_true ?_ trivial
    rw [TimelineStore.Follows, update?, apply, invalidateAppEventByMessageId]
    cases found : store.events.row? (groupIdHex, messageIdHex) with
    | none => rfl
    | some row =>
      refine invalidate_follows upkept fun other listed picked => ?_
      have there := AppEvents.row?_eq_some.mpr ⟨listed, of_decide_eq_true picked⟩
      exact Option.some.inj (there.symm.trans found)
  | invalidateByOriginCommit originCommitId reason =>
    exact iff_of_true (originCommit_follows upkept originCommitId reason) trivial
  | prune groupIdHex cutoffRecordedAt => exact absurd rfl (calls groupIdHex cutoffRecordedAt)

/-! ### Changes that are not announced -/

namespace ChangesExample

open UpkeepExample

/-- A message is recorded again as a reaction, under the same id. -/
def retyped : TimelineOperation := .record (event "g" "a" reactionKind [["e", "b"]] none)

/-- A message replies to an edit that is recorded later. -/
def replied : List TimelineOperation := [.record (event "g" "a" chatKind [["e", "x"]] none)]

def edited : TimelineOperation := .record (event "g" "x" editKind [["e", "b"]] none)

def reacted : TimelineOperation := reaction [["e", "a"]]

end ChangesExample

open UpkeepExample ChangesExample in
/-- **A copy that keeps a row, and one that lacks a preview.** -/
theorem changes_incomplete :
    ¬ ([chat "a"].foldl apply .empty).Follows retyped ∧
      ¬ (replied.foldl apply .empty).Follows edited := by
  constructor
  · intro follows
    have same := congrArg (·["a"]?) (congrFun follows "g")
    exact absurd same (by decide +kernel)
  · intro follows
    have same := congrArg (·["a"]?) (congrFun follows "g")
    exact absurd same (by decide +kernel)

open UpkeepExample ChangesExample in
theorem reaction_announced :
    ([chat "a"].foldl apply .empty).update? reacted ≠ none ∧
      ([chat "a"].foldl apply .empty).Follows reacted := by
  refine ⟨by decide +kernel, (@changes_complete_iff [chat "a"] ⟨?_, trivial⟩ reacted ?_).mpr ?_⟩
  · intro isReaction
    exact absurd isReaction (by decide)
  · rintro groupIdHex cutoffRecordedAt ⟨⟩
  · intro _
    refine ⟨fun hadRow => absurd hadRow (by decide +kernel), fun edits => ?_⟩
    exact absurd edits (by decide)

end Darkmatter
