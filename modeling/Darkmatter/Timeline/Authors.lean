/-
**Only its author changes a message.**

A row shows the text and the media of its event until a deletion by the sender of the event names it.
What others send puts reactions on the row, and takes their own reactions away. So it is for the row
that the store computes for one message, and for the row of a rebuild. A deleted row shows no
reactions, so that its author takes away those of others too.

* `ProjectionPath`, `TimelineStore.projectedRow` — the two ways to a row;
* `TimelineStore.WithoutOthers` — the events without what others did to the messages of a sender;
* `projectedRow_shows` — **what a row shows, from its event and what is live about it**;
* `only_author_modifies` — **what the events of others leave, and when a reaction is gone**.
-/

import Darkmatter.Timeline.Upkeep

namespace Darkmatter

open Std Lib List

/-- A row is computed for one message, or with its group. -/
inductive ProjectionPath
  | single
  | rebuild

/-- The rows that a reaction goes to. -/
def ProjectionPath.Targets (path : ProjectionPath) (reaction : AppEventRow) (id : String) : Prop :=
  match path with
  | .single => id ∈ tagValues reaction.tags eventRefTag
  | .rebuild => tagValue reaction.tags eventRefTag = some id

/-! ### A row and its deletions -/

structure ShownMessage where
  sender : String
  plaintext : String
  media : Option (List (List String))
  deleted : Bool
  userReactions : List TimelineUserReaction

variable (row : TimelineRow)

def TimelineRow.shows : ShownMessage :=
  ⟨row.sender, row.plaintext, row.media, row.deleted, row.reactions.userReactions⟩

theorem foldl_applyDelete_shows (deletes : List AppEventRow) :
    (deletes.foldl .applyDelete row).shows =
      if deletes.any (·.sender = row.sender) then ⟨row.sender, "", none, true, []⟩
      else row.shows := by
  induction deletes generalizing row with
  | nil => rfl
  | cons first rest ih =>
    rw [foldl_cons, ih, any_cons, TimelineRow.applyDelete]
    by_cases own : row.sender = first.sender
    · -- Nothing is left that the other deletions could change.
      rw [if_neg (not_not.mpr own), decide_eq_true own.symm, Bool.true_or, if_pos rfl]
      exact ite_self _
    · rw [if_pos own, decide_eq_false (Ne.symm own), Bool.false_or]

theorem foldl_pushReaction_eq (reactions : List AppEventRow) :
    reactions.foldl
        (fun row reaction => row.pushReaction (userReaction row.messageIdHex reaction)) row =
      { row with
        reactions :=
          { row.reactions with
            userReactions := row.reactions.userReactions ++
              reactions.map (userReaction row.messageIdHex) } } := by
  induction reactions generalizing row with
  | nil => rw [map_nil, append_nil, foldl_nil]
  | cons first rest ih =>
    rw [foldl_cons, ih]
    simp only [TimelineRow.pushReaction, append_assoc, singleton_append, map_cons]

theorem modified_shows (reactions deletes : List AppEventRow) :
    (row.modified reactions deletes).shows =
      if deletes.any (·.sender = row.sender) then ⟨row.sender, "", none, true, []⟩
      else
        { row.shows with
          userReactions := sortBy reactionOrder (row.reactions.userReactions ++
            reactions.map (userReaction row.messageIdHex)) } := by
  rw [TimelineRow.modified, foldl_applyDelete_shows, foldl_pushReaction_eq]
  rfl

namespace TimelineStore

/-! ### The row of a message -/

/-- **The row of a message**, as either way computes it. -/
def projectedRow (store : TimelineStore) (path : ProjectionPath) (groupIdHex id : String) :
    Option TimelineRow :=
  match path with
  | .single => (store.projectSingleMessageTimeline groupIdHex id).map (·.1)
  | .rebuild => (projectGroupEvents (store.appEventsForRebuild groupIdHex)).1[id]?

/-- A deletion by this sender, which is not withdrawn, names the message. -/
def DeletedBy (store : TimelineStore) (groupIdHex sender id : String) : Prop :=
  ∃ delete ∈ store.appEventsForRebuild groupIdHex, delete.isLive deleteKind ∧
    id ∈ tagValues delete.tags eventRefTag ∧ delete.sender = sender

instance decidableDeletedBy (store : TimelineStore) (groupIdHex sender id : String) :
    Decidable (store.DeletedBy groupIdHex sender id) :=
  inferInstanceAs (Decidable (∃ delete ∈ _, _))

/-- **The events of a group without the edits, deletions and reactions by others.** -/
def WithoutOthers (own store : TimelineStore) (groupIdHex sender : String) : Prop :=
  own.appEventsForRebuild groupIdHex = (store.appEventsForRebuild groupIdHex).filter fun event =>
    event.sender = sender ∨ event.kind ∉ [editKind, deleteKind, reactionKind]

/-- **A row is deleted by its sender**, and a reaction is gone from it when it is withdrawn, when its
own sender deleted it, or with the row. -/
structure ByAuthors (store : TimelineStore) (path : ProjectionPath) (groupIdHex id : String)
    (row : TimelineRow) : Prop where
  deleted : row.deleted ↔ store.DeletedBy groupIdHex row.sender id
  reactions : ∀ reaction, store.eventAt groupIdHex reaction.messageIdHex = some reaction →
    reaction.kind = reactionKind → path.Targets reaction id →
    (userReaction id reaction ∉ row.reactions.userReactions ↔ reaction.invalidated ∨
      row.deleted ∨ store.DeletedBy groupIdHex reaction.sender reaction.messageIdHex)

variable {store own : TimelineStore} {path : ProjectionPath} {groupIdHex id sender : String}

theorem deletesOn_any : (store.deletesOn groupIdHex id).any (·.sender = sender) ↔
    store.DeletedBy groupIdHex sender id := by
  simp only [DeletedBy, deletesOn, any_eq_true, mem_filter, Bool.and_eq_true,
    decide_eq_true_eq, and_assoc]

/-- **A row has the reactions that are live**, without those that their senders deleted. -/
theorem projectedRow_modified (referenced : store.Referenced) :
    ∃ reactions, store.projectedRow path groupIdHex id =
        ((store.eventAt groupIdHex id).bind rowFor).map
          (·.modified reactions (store.deletesOn groupIdHex id)) ∧
      ∀ reaction, reaction ∈ reactions ↔
        store.eventAt groupIdHex reaction.messageIdHex = some reaction ∧
          reaction.isLive reactionKind ∧ path.Targets reaction id ∧
          ¬ store.DeletedBy groupIdHex reaction.sender reaction.messageIdHex := by
  have gone {reaction : AppEventRow}
      (stored : store.eventAt groupIdHex reaction.messageIdHex = some reaction)
      (live : reaction.isLive reactionKind) :
      reaction.messageIdHex ∈ deletedReactionIds (store.appEventsForRebuild groupIdHex) ↔
        store.DeletedBy groupIdHex reaction.sender reaction.messageIdHex := by
    rw [mem_deletedReactionIds stored (isLive_iff.mp live).1]
    simp only [DeletedBy, mem_appEventsForRebuild, eq_comm]
  cases path with
  | single =>
    refine ⟨_, projectSingle_row referenced, fun reaction => ?_⟩
    rw [reactionsTargeting, mem_filter, decide_eq_true_eq,
      and_congr_right fun here => not_congr (mem_deletedReactionIdsForTarget referenced here),
      @appEventsTargetingMessage_eq _ _ referenced reactionKind (by simp), mem_filter,
      mem_appEventsForRebuild, Bool.and_eq_true, decide_eq_true_eq, and_assoc, and_assoc]
    refine and_congr_right fun stored => and_congr_right fun live => ?_
    rw [gone stored live]
    rfl
  | rebuild =>
    refine ⟨_, rebuiltRow_eq, fun reaction => ?_⟩
    rw [reactionsOn, mem_filter, mem_appEventsForRebuild, Bool.and_eq_true, reactionOn,
      Bool.and_eq_true, decide_eq_true_eq, decide_eq_true_eq]
    refine and_congr_right fun stored => and_congr_right fun live => ?_
    rw [gone stored live, and_comm]
    rfl

/-- **What a row shows**, from its event and what is live about it. -/
theorem projectedRow_shows (referenced : store.Referenced) {event : AppEventRow}
    {first : TimelineRow} (found : store.eventAt groupIdHex id = some event)
    (projected : rowFor event = some first) :
    ∃ row, store.projectedRow path groupIdHex id = some row ∧ row.sender = event.sender ∧
      ((row.plaintext, row.media) =
        if store.DeletedBy groupIdHex event.sender id then ("", none)
        else (first.plaintext, first.media)) ∧
      store.ByAuthors path groupIdHex id row := by
  obtain ⟨reactions, shown, members⟩ := @projectedRow_modified store path groupIdHex id referenced
  rw [found, Option.bind_some, projected, Option.map_some] at shown
  have shows := modified_shows first reactions (store.deletesOn groupIdHex id)
  have fresh : first.shows = ⟨event.sender, first.plaintext, first.media, false, []⟩ ∧
      first.messageIdHex = id := by
    rw [← (eventAt_messageIdHex found).1]
    obtain ⟨_, _, _, _, rfl⟩ := rowFor_eq_some projected
    exact ⟨rfl, rfl⟩
  rw [fresh.1, fresh.2, show first.sender = event.sender from congrArg (·.sender) fresh.1,
    show first.reactions.userReactions = [] from congrArg (·.userReactions) fresh.1] at shows
  refine ⟨_, shown, ?_⟩
  by_cases deleted : store.DeletedBy groupIdHex event.sender id
  · rw [if_pos (deletesOn_any.mpr deleted), TimelineRow.shows, ShownMessage.mk.injEq] at shows
    obtain ⟨sender, text, media, isDeleted, none⟩ := shows
    rw [text, media, if_pos deleted]
    refine ⟨sender, rfl, ?_, fun _ _ _ _ => ?_⟩
    · simp [isDeleted, sender, deleted]
    · simp [isDeleted, none]
  · rw [if_neg fun any => deleted (deletesOn_any.mp any), TimelineRow.shows,
      ShownMessage.mk.injEq] at shows
    obtain ⟨sender, text, media, undeleted, shown⟩ := shows
    rw [text, media, if_neg deleted]
    refine ⟨sender, rfl, by simp [undeleted, sender, deleted],
      fun reaction stored isReaction targets => ?_⟩
    have isShown : userReaction id reaction ∈ sortBy reactionOrder ([] ++
        reactions.map (userReaction id)) ↔ reaction ∈ reactions := by
      rw [nil_append, mem_sortBy, mem_map]
      refine ⟨?_, fun listed => ⟨reaction, listed, rfl⟩⟩
      rintro ⟨other, listed, same⟩
      have there := ((members other).mp listed).1
      rw [show other.messageIdHex = reaction.messageIdHex from
        congrArg TimelineUserReaction.reactionMessageIdHex same, stored] at there
      rwa [Option.some.inj there]
    rw [shown, isShown, members, isLive_iff, undeleted]
    cases reaction.invalidated <;> simp [stored, isReaction, targets]

theorem WithoutOthers.deletedBy (without : own.WithoutOthers store groupIdHex sender) :
    own.DeletedBy groupIdHex sender id ↔ store.DeletedBy groupIdHex sender id := by
  rw [WithoutOthers] at without
  rw [DeletedBy, without]
  refine exists_congr fun delete => ?_
  rw [mem_filter, and_assoc]
  refine and_congr_right fun _ => and_iff_right_of_imp ?_
  rintro ⟨_, _, bySender⟩
  exact decide_eq_true (.inl bySender)

/-- **Only its author changes a message**: a row shows the same text and media, and is deleted alike,
without the edits, deletions and reactions by others than its sender. -/
theorem only_author_modifies {row : TimelineRow} (reached : store.Reached)
    (shown : store.projectedRow path groupIdHex id = some row) :
    (∀ own : TimelineStore, own.Reached → own.WithoutOthers store groupIdHex row.sender →
      ∃ alone, own.projectedRow path groupIdHex id = some alone ∧
        alone.plaintext = row.plaintext ∧ alone.media = row.media ∧
        alone.deleted = row.deleted) ∧
    store.ByAuthors path groupIdHex id row := by
  obtain ⟨event, found, first, projected⟩ : ∃ event, store.eventAt groupIdHex id = some event ∧
      ∃ first, rowFor event = some first := by
    obtain ⟨_, modified, _⟩ := @projectedRow_modified store path groupIdHex id reached.referenced
    rw [shown] at modified
    obtain ⟨first, here, _⟩ := Option.map_eq_some_iff.mp modified.symm
    obtain ⟨event, found, projected⟩ := Option.bind_eq_some_iff.mp here
    exact ⟨event, found, first, projected⟩
  obtain ⟨_, isRow, sender, text, byAuthors⟩ :=
    projectedRow_shows reached.referenced found projected
  obtain rfl := Option.some.inj (shown.symm.trans isRow)
  refine ⟨fun own ownReached without => ?_, byAuthors⟩
  have unread : own.eventAt groupIdHex id = some event := by
    have named := (eventAt_messageIdHex found).1
    have filtered := without
    rw [WithoutOthers] at filtered
    rw [← named, ← mem_appEventsForRebuild, filtered, mem_filter, mem_appEventsForRebuild, named]
    exact ⟨found, decide_eq_true (.inl sender.symm)⟩
  obtain ⟨alone, isAlone, same, ownText, ownDeleted, _⟩ :=
    projectedRow_shows ownReached.referenced unread projected
  rw [same, ← sender] at ownDeleted
  simp only [← sender, without.deletedBy] at ownText ownDeleted text
  obtain ⟨sameText, sameMedia⟩ := Prod.mk.inj (ownText.trans text.symm)
  exact ⟨alone, isAlone, sameText, sameMedia,
    Bool.eq_iff_iff.mpr (ownDeleted.trans byAuthors.deleted.symm)⟩

end TimelineStore

namespace AuthorsExample

open UpkeepExample

/-- Someone answers a message with a reaction, and a sender deletes the message. -/
def deleted (sender : String) : List TimelineOperation :=
  [chat "a",
    .record { event "g" "r" reactionKind [["e", "a"]] none with sender := "bob" },
    .record { event "g" "d" deleteKind [["e", "a"]] none with sender := sender }]

def store (sender : String) : TimelineStore :=
  (deleted sender).foldl TimelineStore.apply .empty

/-- The message alone. -/
def untouched : TimelineStore := [chat "a"].foldl TimelineStore.apply .empty

end AuthorsExample

open AuthorsExample in
/-- **The author takes away a reaction** that is neither withdrawn nor deleted by its sender. -/
theorem author_clears_reactions :
    ((store "alice").projectedRow .single "g" "a").map (·.reactions.userReactions) = some [] ∧
      ((store "alice").projectedRow .rebuild "g" "a").map (·.reactions.userReactions) = some [] ∧
      ((store "alice").eventAt "g" "r").map (fun reaction =>
        (reaction.kind, reaction.tags, reaction.sender, reaction.invalidated)) =
          some (reactionKind, [["e", "a"]], "bob", false) ∧
      ¬ (store "alice").DeletedBy "g" "bob" "r" := by
  decide +kernel

open AuthorsExample in
/-- The message stands, with the reaction, when another sender deletes it: it looks as if the other had
done nothing to it. -/
theorem deletion_by_other_ignored :
    ∃ row alone, (store "bob").projectedRow .single "g" "a" = some row ∧
      untouched.projectedRow .single "g" "a" = some alone ∧
      alone.plaintext = row.plaintext ∧ alone.media = row.media ∧ alone.deleted = row.deleted ∧
      (store "bob").ByAuthors .single "g" "a" row := by
  obtain ⟨row, shown, sender⟩ : ∃ row, (store "bob").projectedRow .single "g" "a" = some row ∧
      row.sender = "alice" := by
    have computed : ((store "bob").projectedRow .single "g" "a").map TimelineRow.sender =
        some "alice" := by decide +kernel
    exact Option.map_eq_some_iff.mp computed
  obtain ⟨others, byAuthors⟩ := TimelineStore.only_author_modifies ⟨deleted "bob", rfl⟩ shown
  rw [sender] at others
  have without : untouched.WithoutOthers (store "bob") "g" "alice" := by
    rw [TimelineStore.WithoutOthers]
    decide +kernel
  obtain ⟨alone, isAlone, text, media, deleted⟩ := others untouched ⟨_, rfl⟩ without
  exact ⟨row, alone, shown, isAlone, text, media, deleted, byAuthors⟩

end Darkmatter
