/-
**One row of the timeline, and the rebuild of its group.**

The store computes the row of a message from the event and from the reactions and deletions that its
references name. A rebuild goes through the events of the group. Here is when the two agree, and when
the row of a rebuild stays as it was.

* `TimelineStore.Referenced` — the references are those of the stored reactions and deletions;
* `StoredAppEvent.RefersOnce` — a reaction refers to one event only;
* `projectSingle_eq_rebuild` — **the row of one message is its row in the rebuild**;
* `rebuilt_kept` — **events that do not affect a row, as the store finds it, leave its rebuild**.
-/

import Darkmatter.Timeline.Store

namespace Darkmatter

open Std Lib List

/-- **A reaction refers to one event only**, the one that its first reference names. -/
def StoredAppEvent.RefersOnce (event : StoredAppEvent) : Prop :=
  event.kind = reactionKind → ∀ target ∈ tagValues event.tags eventRefTag,
    tagValue event.tags eventRefTag = some target

/-! ### The events of a group -/

namespace TimelineStore

variable {store before after : TimelineStore} {groupIdHex id : String}

def eventAt (store : TimelineStore) (groupIdHex id : String) : Option AppEventRow :=
  store.events.row? (groupIdHex, id)

variable {event : AppEventRow} {tags : List (List String)}

theorem eventAt_messageIdHex (found : store.eventAt groupIdHex id = some event) :
    event.messageIdHex = id ∧ event.groupIdHex = groupIdHex := by
  have key := (AppEvents.row?_eq_some.mp found).2
  exact ⟨congrArg Prod.snd key, congrArg Prod.fst key⟩

theorem mem_appEventsForRebuild :
    event ∈ store.appEventsForRebuild groupIdHex ↔
      store.eventAt groupIdHex event.messageIdHex = some event := by
  rw [appEventsForRebuild, mem_sortBy, mem_filter, decide_eq_true_eq, eventAt,
    AppEvents.row?_eq_some]
  refine and_congr_right fun _ => ?_
  rw [StoredAppEvent.key, Prod.mk.injEq, and_iff_left rfl]

theorem appEventsForRebuild_unique :
    ((store.appEventsForRebuild groupIdHex).map (·.messageIdHex)).Nodup := by
  have perm := (@sortBy_perm _ eventOrder
    (store.events.rows.filter (·.groupIdHex = groupIdHex))).map (·.messageIdHex)
  refine perm.nodup_iff.mpr (pairwise_map.mpr ?_)
  refine (store.events.keyed.filter _).imp_of_mem fun {row other} here there apart same => ?_
  rw [mem_filter, decide_eq_true_eq] at here there
  exact apart (Prod.ext (here.2.trans there.2.symm) same)

theorem appEventsForRebuild_sorted :
    (store.appEventsForRebuild groupIdHex).Pairwise fun a b => (eventOrder a b).isLE := by
  have : TransCmp eventOrder := inferInstanceAs (TransCmp (compareLex _ _))
  exact sortBy_pairwise _

theorem appEventsForRebuild_separated :
    ∀ a ∈ store.appEventsForRebuild groupIdHex, ∀ b ∈ store.appEventsForRebuild groupIdHex,
      eventOrder a b = .eq → a = b := by
  intro a isA b isB same
  rw [eventOrder, compareLex_eq_eq] at same
  have ids : a.messageIdHex = b.messageIdHex := LawfulEqOrd.compare_eq_iff_eq.mp same.2
  rw [mem_appEventsForRebuild] at isA isB
  rw [ids] at isA
  exact Option.some.inj (isA.symm.trans isB)

theorem find?_of_mem {events : List AppEventRow} (unique : (events.map (·.messageIdHex)).Nodup)
    (listed : event ∈ events) :
    events.find? (·.messageIdHex = event.messageIdHex) = some event := by
  obtain ⟨first, found⟩ := Option.isSome_iff_exists.mp
    (find?_isSome.mpr ⟨event, listed, by simp⟩ :
      (events.find? (·.messageIdHex = event.messageIdHex)).isSome)
  have same : first.messageIdHex = event.messageIdHex := by simpa using find?_some found
  rw [found, inj_on_of_nodup_map unique (mem_of_find?_eq_some found) listed same]

theorem find?_appEventsForRebuild :
    (store.appEventsForRebuild groupIdHex).find? (·.messageIdHex = id) =
      store.eventAt groupIdHex id := by
  cases found : store.eventAt groupIdHex id with
  | none =>
    rw [find?_eq_none]
    intro event listed same
    rw [mem_appEventsForRebuild, of_decide_eq_true same, found] at listed
    cases listed
  | some event =>
    have named := (eventAt_messageIdHex found).1
    have listed : event ∈ store.appEventsForRebuild groupIdHex := by
      rw [mem_appEventsForRebuild, named, found]
    rw [← named]
    exact find?_of_mem appEventsForRebuild_unique listed

/-- Events of two stores that pass two tests, when they are the same. -/
theorem filter_appEventsForRebuild {test test' : AppEventRow → Bool}
    (same : ∀ event, (before.eventAt groupIdHex event.messageIdHex = some event ∧ test event) ↔
      (after.eventAt groupIdHex event.messageIdHex = some event ∧ test' event)) :
    (before.appEventsForRebuild groupIdHex).filter test =
      (after.appEventsForRebuild groupIdHex).filter test' := by
  have : TransCmp eventOrder := inferInstanceAs (TransCmp (compareLex _ _))
  refine eq_of_sorted (appEventsForRebuild_sorted.filter _)
    (appEventsForRebuild_sorted.filter _) (appEventsForRebuild_unique.of_map.filter _)
    (appEventsForRebuild_unique.of_map.filter _) ?_ fun event => ?_
  · intro a isA b isB
    exact appEventsForRebuild_separated a (mem_of_mem_filter isA) b
      (mem_of_mem_filter isB)
  · rw [mem_filter, mem_filter, mem_appEventsForRebuild, mem_appEventsForRebuild]
    exact same event

/-! ### References -/

theorem isLive_iff {kind : Nat} :
    event.isLive kind = true ↔ event.kind = kind ∧ event.invalidated = false := by
  rw [AppEventRow.isLive, Bool.and_eq_true, decide_eq_true_eq, Bool.not_eq_true']

/-- **The references are those of the stored reactions and deletions**, each once. -/
structure Referenced (store : TimelineStore) : Prop where
  mem_edges : ∀ groupIdHex edge, edge ∈ store.edges groupIdHex ↔
    ∃ event, store.eventAt groupIdHex edge.modifierMessageIdHex = some event ∧
      event.kind = edge.kind ∧ edge.kind ∈ [reactionKind, deleteKind] ∧
      edge.targetMessageIdHex ∈ tagValues event.tags eventRefTag
  once : ∀ groupIdHex, (store.edges groupIdHex).Nodup

/-- **The stored reactions refer to one event each.** -/
def Pointed (store : TimelineStore) : Prop :=
  ∀ groupIdHex id event, store.eventAt groupIdHex id = some event → event.RefersOnce

theorem mem_join {edges : List ModifierEdge} {edge : ModifierEdge} :
    (edge, event) ∈ store.join groupIdHex edges ↔ edge ∈ edges ∧
      store.eventAt groupIdHex edge.modifierMessageIdHex = some event ∧
      event.invalidated = false := by
  rw [join, mem_filterMap]
  constructor
  · rintro ⟨_, listed, joined⟩
    obtain ⟨_, found, same⟩ := Option.map_eq_some_iff.mp joined
    obtain ⟨rfl, rfl⟩ := Prod.mk.inj same
    rw [Option.filter_eq_some_iff] at found
    exact ⟨listed, found.1, by simpa using found.2⟩
  · rintro ⟨listed, found, live⟩
    refine ⟨edge, listed, Option.map_eq_some_iff.mpr ⟨event, ?_, rfl⟩⟩
    rw [Option.filter_eq_some_iff]
    exact ⟨found, by simpa using live⟩

/-- **The events that refer to a message**, through the references and without them. -/
theorem appEventsTargetingMessage_eq (referenced : store.Referenced) {kind : Nat}
    (modifies : kind ∈ [reactionKind, deleteKind]) (target : String) :
    store.appEventsTargetingMessage groupIdHex kind target =
      (store.appEventsForRebuild groupIdHex).filter fun event =>
        event.isLive kind && target ∈ tagValues event.tags eventRefTag := by
  have : TransCmp eventOrder := inferInstanceAs (TransCmp (compareLex _ _))
  rw [appEventsTargetingMessage]
  have members : ∀ event, event ∈ (store.join groupIdHex ((store.edges groupIdHex).filter
      fun edge => edge.kind = kind ∧ edge.targetMessageIdHex = target)).map (·.2) ↔
      event ∈ (store.appEventsForRebuild groupIdHex).filter fun event =>
        event.isLive kind && target ∈ tagValues event.tags eventRefTag := by
    intro event
    rw [mem_filter, mem_appEventsForRebuild, Bool.and_eq_true, decide_eq_true_eq, isLive_iff]
    constructor
    · intro listed
      obtain ⟨⟨edge, row⟩, joined, rfl⟩ := mem_map.mp listed
      rw [mem_join, mem_filter, decide_eq_true_eq] at joined
      obtain ⟨⟨isEdge, rfl, rfl⟩, found, live⟩ := joined
      obtain ⟨other, there, same, _, refers⟩ := (referenced.mem_edges groupIdHex edge).mp isEdge
      obtain rfl := Option.some.inj (found.symm.trans there)
      rw [(eventAt_messageIdHex found).1]
      exact ⟨found, ⟨same, live⟩, refers⟩
    · rintro ⟨found, ⟨same, live⟩, refers⟩
      refine mem_map.mpr ⟨(⟨event.messageIdHex, target, kind⟩, event), ?_, rfl⟩
      rw [mem_join, mem_filter, decide_eq_true_eq]
      refine ⟨⟨(referenced.mem_edges groupIdHex _).mpr ?_, rfl, rfl⟩, found, live⟩
      exact ⟨event, found, same, modifies, refers⟩
  have once : ((store.join groupIdHex ((store.edges groupIdHex).filter
      fun edge => edge.kind = kind ∧ edge.targetMessageIdHex = target)).map (·.2)).Nodup := by
    have apart : ((store.edges groupIdHex).filter fun edge =>
        edge.kind = kind ∧ edge.targetMessageIdHex = target).Pairwise fun edge other =>
          edge.modifierMessageIdHex ≠ other.modifierMessageIdHex := by
      refine ((referenced.once groupIdHex).filter _).imp_of_mem fun {edge other} here there differ => ?_
      rw [mem_filter, decide_eq_true_eq] at here there
      intro same
      refine differ ?_
      obtain ⟨modifier, _, _⟩ := edge
      obtain ⟨_, _, _⟩ := other
      obtain ⟨_, rfl, rfl⟩ := here
      obtain ⟨_, rfl, rfl⟩ := there
      obtain rfl : modifier = _ := same
      rfl
    refine pairwise_map.mpr (apart.filterMap _ fun edge other differ row isRow row' isRow' => ?_)
    obtain ⟨event, found, rfl⟩ := Option.map_eq_some_iff.mp isRow
    obtain ⟨_, found', rfl⟩ := Option.map_eq_some_iff.mp isRow'
    rw [Option.filter_eq_some_iff] at found found'
    rintro rfl
    exact differ ((eventAt_messageIdHex found.1).1.symm.trans (eventAt_messageIdHex found'.1).1)
  refine eq_of_sorted (sortBy_pairwise _) (appEventsForRebuild_sorted.filter _)
    ((sortBy_perm _).nodup_iff.mpr once) (appEventsForRebuild_unique.of_map.filter _) ?_ ?_
  · intro a isA b isB
    have hereA := (members a).mp (mem_sortBy.mp isA)
    have hereB := (members b).mp (mem_sortBy.mp isB)
    exact appEventsForRebuild_separated a (mem_of_mem_filter hereA) b
      (mem_of_mem_filter hereB)
  · intro event
    rw [mem_sortBy]
    exact members event

/-- A stored reaction is deleted when a deletion by its sender names it. -/
theorem mem_deletedReactionIds {reaction : AppEventRow}
    (stored : store.eventAt groupIdHex reaction.messageIdHex = some reaction)
    (isReaction : reaction.kind = reactionKind) :
    reaction.messageIdHex ∈ deletedReactionIds (store.appEventsForRebuild groupIdHex) ↔
      ∃ delete, store.eventAt groupIdHex delete.messageIdHex = some delete ∧
        delete.isLive deleteKind ∧ reaction.messageIdHex ∈ tagValues delete.tags eventRefTag ∧
        reaction.sender = delete.sender := by
  rw [deletedReactionIds, mem_flatMap]
  refine exists_congr fun delete => ?_
  rw [mem_filter, mem_filter, mem_appEventsForRebuild, find?_appEventsForRebuild, stored,
    Option.any_some, Bool.and_eq_true, decide_eq_true_eq, decide_eq_true_eq, and_iff_right isReaction,
    and_assoc]

/-- The same, through the references, for the reactions to a message. -/
theorem mem_deletedReactionIdsForTarget (referenced : store.Referenced) {target : String}
    {reaction : AppEventRow}
    (listed : reaction ∈ store.appEventsTargetingMessage groupIdHex reactionKind target) :
    reaction.messageIdHex ∈ store.deletedReactionIdsForTarget groupIdHex
        (store.appEventsTargetingMessage groupIdHex reactionKind target) ↔
      reaction.messageIdHex ∈ deletedReactionIds (store.appEventsForRebuild groupIdHex) := by
  have targeting : store.appEventsTargetingMessage groupIdHex reactionKind target = _ :=
    appEventsTargetingMessage_eq referenced (by simp) target
  have stored : store.eventAt groupIdHex reaction.messageIdHex = some reaction ∧
      reaction.kind = reactionKind := by
    rw [targeting, mem_filter, mem_appEventsForRebuild, Bool.and_eq_true, AppEventRow.isLive,
      Bool.and_eq_true, decide_eq_true_eq] at listed
    exact ⟨listed.1, listed.2.1.1⟩
  have first : (store.appEventsTargetingMessage groupIdHex reactionKind target).find?
      (·.messageIdHex = reaction.messageIdHex) = some reaction := by
    refine find?_of_mem ?_ listed
    rw [targeting]
    exact (filter_sublist.map _).nodup appEventsForRebuild_unique
  rw [mem_deletedReactionIds stored.1 stored.2, deletedReactionIdsForTarget, mem_map]
  constructor
  · rintro ⟨⟨_, sender⟩, kept, rfl⟩
    rw [mem_filter, mem_map] at kept
    obtain ⟨⟨⟨edge, delete⟩, joined, same⟩, bySender⟩ := kept
    obtain ⟨names, rfl⟩ := Prod.mk.inj same
    dsimp only at bySender
    rw [first, Option.any_some, decide_eq_true_eq] at bySender
    rw [mem_join, mem_filter, decide_eq_true_eq] at joined
    obtain ⟨⟨isEdge, isDelete, _⟩, found, live⟩ := joined
    obtain ⟨_, there, kind, _, refers⟩ := (referenced.mem_edges groupIdHex edge).mp isEdge
    obtain rfl := Option.some.inj (found.symm.trans there)
    refine ⟨delete, ?_, ?_, names ▸ refers, bySender⟩
    · rw [(eventAt_messageIdHex found).1, found]
    · exact isLive_iff.mpr ⟨kind.trans isDelete, live⟩
  · rintro ⟨delete, found, live, refers, sender⟩
    rw [isLive_iff] at live
    refine ⟨(reaction.messageIdHex, delete.sender), mem_filter.mpr ⟨?_, ?_⟩, rfl⟩
    · refine mem_map.mpr
        ⟨(⟨delete.messageIdHex, reaction.messageIdHex, deleteKind⟩, delete), ?_, rfl⟩
      rw [mem_join, mem_filter, decide_eq_true_eq]
      refine ⟨⟨(referenced.mem_edges groupIdHex _).mpr ?_, rfl, ?_⟩, found, live.2⟩
      · exact ⟨delete, found, live.1, by simp, refers⟩
      · exact mem_map_of_mem listed
    · dsimp only
      rw [first, Option.any_some, decide_eq_true_eq]
      exact sender

/-! ### One message and the rebuild -/

/-- The row that a rebuild of the group has under an id. -/
def rebuiltRow (store : TimelineStore) (groupIdHex id : String) : Option TimelineRow :=
  (projectGroupEvents (store.appEventsForRebuild groupIdHex)).1[id]?

def rebuiltStart (store : TimelineStore) (groupIdHex id : String) : Option StreamStartRow :=
  (projectGroupEvents (store.appEventsForRebuild groupIdHex)).2[id]?

/-- The reactions that a rebuild puts on a row. -/
def reactionsOn (store : TimelineStore) (groupIdHex id : String) : List AppEventRow :=
  (store.appEventsForRebuild groupIdHex).filter fun event =>
    event.isLive reactionKind &&
      reactionOn (deletedReactionIds (store.appEventsForRebuild groupIdHex)) id event

/-- The deletions that a rebuild applies to a row. -/
def deletesOn (store : TimelineStore) (groupIdHex id : String) : List AppEventRow :=
  (store.appEventsForRebuild groupIdHex).filter fun event =>
    event.isLive deleteKind && id ∈ tagValues event.tags eventRefTag

theorem rebuiltRow_eq : store.rebuiltRow groupIdHex id =
    ((store.eventAt groupIdHex id).bind rowFor).map fun row =>
      row.modified (store.reactionsOn groupIdHex id) (store.deletesOn groupIdHex id) := by
  rw [rebuiltRow, projectGroupEvents_timeline appEventsForRebuild_unique, find?_appEventsForRebuild,
    filter_filter, filter_filter, reactionsOn, deletesOn]
  simp only [Bool.and_comm]

theorem rebuiltStart_eq : store.rebuiltStart groupIdHex id =
    (store.eventAt groupIdHex id).bind streamStartFor := by
  rw [rebuiltStart, projectGroupEvents_streamStarts appEventsForRebuild_unique,
    find?_appEventsForRebuild]

theorem tagValue_mem {name value : String} (first : tagValue tags name = some value) :
    value ∈ tagValues tags name := by
  obtain ⟨tag, found, isValue⟩ := Option.bind_eq_some_iff.mp first
  have named := find?_some found
  exact mem_filterMap.mpr
    ⟨tag, mem_filter.mpr ⟨mem_of_find?_eq_some found, named⟩, isValue⟩

/-- The reactions that target a message and are not deleted. -/
def reactionsTargeting (store : TimelineStore) (groupIdHex id : String) : List AppEventRow :=
  let targeting := store.appEventsTargetingMessage groupIdHex reactionKind id
  targeting.filter fun reaction =>
    reaction.messageIdHex ∉ store.deletedReactionIdsForTarget groupIdHex targeting

theorem targeting_eq_reactionsOn (referenced : store.Referenced) (pointed : store.Pointed) :
    store.reactionsTargeting groupIdHex id = store.reactionsOn groupIdHex id := by
  have targeting : store.appEventsTargetingMessage groupIdHex reactionKind id = _ :=
    appEventsTargetingMessage_eq referenced (by simp) id
  have gone : store.reactionsTargeting groupIdHex id =
      (store.appEventsTargetingMessage groupIdHex reactionKind id).filter (fun reaction =>
        reaction.messageIdHex ∉ deletedReactionIds (store.appEventsForRebuild groupIdHex)) := by
    refine filter_congr fun reaction listed => ?_
    exact decide_eq_decide.mpr (not_congr (mem_deletedReactionIdsForTarget referenced listed))
  rw [gone, targeting, filter_filter, reactionsOn]
  refine filter_congr fun event listed => ?_
  rw [reactionOn, Bool.and_left_comm]
  -- The first reference is the only one.
  by_cases live : event.isLive reactionKind
  · have isReaction := (isLive_iff.mp live).1
    have same : id ∈ tagValues event.tags eventRefTag ↔ tagValue event.tags eventRefTag = some id :=
      ⟨pointed groupIdHex event.messageIdHex event (mem_appEventsForRebuild.mp listed) isReaction id,
        tagValue_mem⟩
    simp only [same]
  · simp only [live, Bool.false_and]

theorem projectSingle_row (referenced : store.Referenced) :
    (store.projectSingleMessageTimeline groupIdHex id).map (·.1) =
      ((store.eventAt groupIdHex id).bind rowFor).map fun row =>
        row.modified (store.reactionsTargeting groupIdHex id)
          (store.deletesOn groupIdHex id) := by
  rw [projectSingleMessageTimeline, ← eventAt]
  cases found : store.eventAt groupIdHex id with
  | none => rfl
  | some event =>
    cases projected : rowFor event with
    | none => simp only [Option.bind_some, projected, Option.map_none]
    | some row =>
      have named : row.messageIdHex = id :=
        (rowFor_place projected).2.trans (eventAt_messageIdHex found).1
      simp only [Option.bind_some, projected, Option.map_some]
      rw [applyTargetedModifiers, named,
        @appEventsTargetingMessage_eq _ _ referenced deleteKind (by simp), deletesOn]
      rfl

/-- **The row of one message is its row in the rebuild**, and so is its stream start. -/
theorem projectSingle_eq_rebuild (referenced : store.Referenced) (pointed : store.Pointed) :
    (store.projectSingleMessageTimeline groupIdHex id).map (·.1) = store.rebuiltRow groupIdHex id ∧
      (store.projectSingleMessageTimeline groupIdHex id).bind (·.2) =
        store.rebuiltStart groupIdHex id := by
  rw [projectSingle_row referenced, rebuiltRow_eq, targeting_eq_reactionsOn referenced pointed,
    rebuiltStart_eq, projectSingleMessageTimeline, ← eventAt]
  refine ⟨rfl, ?_⟩
  cases store.eventAt groupIdHex id with
  | none => rfl
  | some event =>
    cases projected : rowFor event with
    | none =>
      simp only [Option.bind_some, projected, Option.map_none, Option.bind_none,
        streamStartFor_eq_none projected]
    | some => simp only [Option.bind_some, projected, Option.map_some]

/-! ### Rows that are not affected -/

/-- **Two stores differ at some ids only, and the events there do not affect the row.** What they
affect is read off the first store. -/
structure Unaffected (base store : TimelineStore) (groupIdHex : String) (touched : List String)
    (id : String) : Prop where
  agree : ∀ other, other ∉ touched → store.eventAt groupIdHex other = base.eventAt groupIdHex other
  spared : ∀ other ∈ touched, ∀ event, store.eventAt groupIdHex other = some event →
    id ∉ base.directlyAffected groupIdHex other event.kind event.tags

variable {base : TimelineStore} {touched : List String}

@[simp] theorem directlyAffected_reaction (tags : List (List String)) :
    base.directlyAffected groupIdHex id reactionKind tags = tagValues tags eventRefTag := rfl

@[simp] theorem directlyAffected_delete (tags : List (List String)) :
    base.directlyAffected groupIdHex id deleteKind tags =
      (tagValues tags eventRefTag).flatMap fun target =>
        target :: (base.reactionTargetMessageId groupIdHex target).toList := rfl

theorem rowFor_eq_none_of_kind
    (own : event.kind ∉ [chatKind, agentStreamStartKind, agentActivityKind, agentOperationKind,
      groupSystemKind]) (edit : event.kind ≠ editKind) : rowFor event = none := by
  simp only [mem_cons, not_mem_nil, or_false, not_or] at own
  obtain ⟨notChat, notStart, notActivity, notOperation, notSystem⟩ := own
  simp [rowFor, notChat, notStart, notActivity, notOperation, notSystem, edit]

theorem rowFor_eq_none (spared : id ∉ base.directlyAffected groupIdHex id event.kind event.tags) :
    rowFor event = none := by
  rw [directlyAffected] at spared
  split_ifs at spared with own edit _ _
  · exact absurd (mem_singleton_self id) spared
  · exact absurd mem_cons_self spared
  all_goals exact rowFor_eq_none_of_kind own edit

theorem Unaffected.eventAt_bind {ρ : Type} {project : AppEventRow → Option ρ}
    (hidden : ∀ event, rowFor event = none → project event = none)
    (here : Unaffected base before groupIdHex touched id)
    (there : Unaffected base after groupIdHex touched id) :
    (before.eventAt groupIdHex id).bind project = (after.eventAt groupIdHex id).bind project := by
  by_cases touches : id ∈ touched
  · have none_of : ∀ store, Unaffected base store groupIdHex touched id →
        (store.eventAt groupIdHex id).bind project = none := by
      intro _ unaffected
      refine Option.bind_eq_none_iff.mpr fun event found => hidden event ?_
      exact rowFor_eq_none (unaffected.spared id touches event found)
    rw [none_of before here, none_of after there]
  · rw [here.agree id touches, there.agree id touches]

/-- A reaction that the one rebuild puts on the row, the other does too. -/
theorem Unaffected.reaction {reaction : AppEventRow}
    (here : Unaffected base before groupIdHex touched id)
    (there : Unaffected base after groupIdHex touched id)
    (stored : before.eventAt groupIdHex reaction.messageIdHex = some reaction ∧
      (reaction.isLive reactionKind &&
        reactionOn (deletedReactionIds (before.appEventsForRebuild groupIdHex)) id reaction)) :
    after.eventAt groupIdHex reaction.messageIdHex = some reaction ∧
      (reaction.isLive reactionKind &&
        reactionOn (deletedReactionIds (after.appEventsForRebuild groupIdHex)) id reaction) := by
  rw [reactionOn, Bool.and_eq_true, Bool.and_eq_true, decide_eq_true_eq, decide_eq_true_eq] at *
  obtain ⟨found, live, kept, refers⟩ := stored
  have isReaction := (isLive_iff.mp live).1
  have untouched : reaction.messageIdHex ∉ touched := by
    intro touches
    refine here.spared _ touches reaction found ?_
    rw [isReaction, directlyAffected_reaction]
    exact tagValue_mem refers
  have inBase : base.eventAt groupIdHex reaction.messageIdHex = some reaction := by
    rw [← here.agree _ untouched, found]
  have foundAfter : after.eventAt groupIdHex reaction.messageIdHex = some reaction := by
    rw [there.agree _ untouched, inBase]
  refine ⟨foundAfter, live, fun deleted => kept ?_, refers⟩
  obtain ⟨delete, isDelete, deletes, named, sender⟩ :=
    (mem_deletedReactionIds foundAfter isReaction).mp deleted
  refine (mem_deletedReactionIds found isReaction).mpr ⟨delete, ?_, deletes, named, sender⟩
  by_cases touches : delete.messageIdHex ∈ touched
  · refine absurd ?_ (there.spared _ touches delete isDelete)
    rw [(isLive_iff.mp deletes).1, directlyAffected_delete, mem_flatMap]
    refine ⟨_, named, mem_cons_of_mem _ ?_⟩
    rw [reactionTargetMessageId, ← eventAt, inBase, Option.bind_some, if_pos isReaction, refers]
    exact mem_singleton_self id
  · rw [here.agree _ touches, ← there.agree _ touches, isDelete]

/-- Two stores differ at some ids only, and no deletion there names the row. -/
theorem deletesOn_congr
    (agree : ∀ other, other ∉ touched →
      before.eventAt groupIdHex other = after.eventAt groupIdHex other)
    (here : ∀ other ∈ touched, ∀ event, before.eventAt groupIdHex other = some event →
      event.kind = deleteKind → id ∉ tagValues event.tags eventRefTag)
    (there : ∀ other ∈ touched, ∀ event, after.eventAt groupIdHex other = some event →
      event.kind = deleteKind → id ∉ tagValues event.tags eventRefTag) :
    before.deletesOn groupIdHex id = after.deletesOn groupIdHex id := by
  refine filter_appEventsForRebuild fun event => and_congr_left fun deletes => ?_
  rw [Bool.and_eq_true, decide_eq_true_eq, isLive_iff] at deletes
  by_cases touches : event.messageIdHex ∈ touched
  · constructor
    · intro found
      exact absurd deletes.2 (here _ touches event found deletes.1.1)
    · intro found
      exact absurd deletes.2 (there _ touches event found deletes.1.1)
  · rw [agree _ touches]

theorem Unaffected.deletes (unaffected : Unaffected base store groupIdHex touched id) :
    ∀ other ∈ touched, ∀ event, store.eventAt groupIdHex other = some event →
      event.kind = deleteKind → id ∉ tagValues event.tags eventRefTag := by
  intro other touches event found isDelete named
  refine unaffected.spared other touches event found ?_
  rw [isDelete, directlyAffected_delete, mem_flatMap]
  exact ⟨id, named, mem_cons_self⟩

/-- **Events that do not affect a row leave its rebuild.** -/
theorem rebuilt_kept (here : Unaffected base before groupIdHex touched id)
    (there : Unaffected base after groupIdHex touched id) :
    before.rebuiltRow groupIdHex id = after.rebuiltRow groupIdHex id ∧
      before.rebuiltStart groupIdHex id = after.rebuiltStart groupIdHex id := by
  have reactions : before.reactionsOn groupIdHex id = after.reactionsOn groupIdHex id :=
    filter_appEventsForRebuild fun event => ⟨here.reaction there, there.reaction here⟩
  have deletes : before.deletesOn groupIdHex id = after.deletesOn groupIdHex id :=
    deletesOn_congr (fun other untouched => by rw [here.agree _ untouched, there.agree _ untouched])
      here.deletes there.deletes
  rw [rebuiltRow_eq, rebuiltRow_eq, rebuiltStart_eq, rebuiltStart_eq, reactions, deletes,
    here.eventAt_bind (fun _ hidden => hidden) there,
    here.eventAt_bind (fun _ => streamStartFor_eq_none) there]
  exact ⟨rfl, rfl⟩

end TimelineStore

end Darkmatter
