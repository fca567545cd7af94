/-
**The timeline of a group, from its app events.**

A chat message, an edit, an agent event and a group system event have a row in the timeline. Reactions
and deletions are no rows: they change the rows that they refer to. An event that was withdrawn keeps
its row, with the reason, and a withdrawn reaction or deletion changes nothing.

* `tagValue`, `tagValues` — the value of the first tag of a name, and the values of all of them;
* `TimelineRow`, `StreamStartRow`, `rowFor`, `streamStartFor` — the row of an event by itself;
* `projectGroupEvents` — **the rebuild**: one pass over the events of a group;
* `projectGroupEvents_timeline`, `projectGroupEvents_streamStarts` — what it leaves under each id.
-/

import Darkmatter.Lib.View
import Darkmatter.Timeline.AppEvents

namespace Darkmatter

open List hiding getElem?_insert
open Std Lib

/-! ### Kinds and tags -/

def deleteKind : Nat := 5

def reactionKind : Nat := 7

def editKind : Nat := 1009

def agentStreamStartKind : Nat := 1200

def agentActivityKind : Nat := 1201

def agentOperationKind : Nat := 1202

def eventRefTag : String := "e"

def quoteRefTag : String := "q"

def streamTag : String := "stream"

def streamStartTag : String := "stream-start"

def streamHashTag : String := "stream-hash"

def streamChunksTag : String := "stream-chunks"

variable (tags : List (List String))

/-- The value of the first tag of this name. It may have none. -/
def tagValue (name : String) : Option String :=
  (tags.find? fun tag => tag.head? = some name).bind (·[1]?)

def tagValues (name : String) : List String :=
  (tags.filter fun tag => tag.head? = some name).filterMap (·[1]?)

/-! ### Rows -/

inductive AgentStreamStatus
  | started
  | finalized
deriving DecidableEq, Repr

structure AgentTextStream where
  streamIdHex : String
  status : AgentStreamStatus
  startEventId : Option String
  transcriptHash : Option String
  chunkCount : Option String
deriving DecidableEq, Repr

structure TimelineUserReaction where
  reactionMessageIdHex : String
  targetMessageIdHex : String
  sender : String
  emoji : String
  reactedAt : Nat
deriving DecidableEq, Repr

structure TimelineReactionSummary where
  byEmoji : List (String × List String)
  userReactions : List TimelineUserReaction
deriving DecidableEq, Repr

def TimelineReactionSummary.default : TimelineReactionSummary := ⟨[], []⟩

/-- `media` has the media tags of the event. -/
structure TimelineRow where
  messageIdHex : String
  sourceMessageIdHex : Option String
  sourceEpoch : Option Nat
  direction : String
  groupIdHex : String
  sender : String
  plaintext : String
  kind : Nat
  tags : List (List String)
  timelineAt : Nat
  receivedAt : Nat
  replyToMessageIdHex : Option String
  media : Option (List (List String))
  agentTextStream : Option AgentTextStream
  reactions : TimelineReactionSummary
  deleted : Bool
  deletedByMessageIdHex : Option String
  invalidationStatus : Option String
deriving DecidableEq, Repr

structure StreamStartRow where
  groupIdHex : String
  messageIdHex : String
  sourceMessageIdHex : Option String
  sender : String
  streamIdHex : String
  tags : List (List String)
  startedAt : Nat
  receivedAt : Nat
deriving DecidableEq, Repr

def mediaMetadata : Option (List (List String)) :=
  let imeta := tags.filter fun tag => tag.head? = some "imeta"
  if imeta = [] then none else some imeta

def agentStreamStartMetadata (event : AppEventRow) : Option AgentTextStream :=
  (tagValue event.tags streamTag).map fun streamIdHex =>
    { streamIdHex := streamIdHex
      status := .started
      startEventId := some event.messageIdHex
      transcriptHash := none
      chunkCount := none }

def agentStreamFinalMetadata : Option AgentTextStream :=
  (tagValue tags streamTag).map fun streamIdHex =>
    { streamIdHex := streamIdHex
      status := .finalized
      startEventId := tagValue tags streamStartTag
      transcriptHash := tagValue tags streamHashTag
      chunkCount := tagValue tags streamChunksTag }

/-- A row with what all kinds of rows take from the event. -/
def timelineRowFrom (event : AppEventRow) (replyToMessageIdHex : Option String)
    (media : Option (List (List String))) (agentTextStream : Option AgentTextStream) :
    TimelineRow where
  messageIdHex := event.messageIdHex
  sourceMessageIdHex := event.sourceMessageIdHex
  sourceEpoch := event.sourceEpoch
  direction := event.direction
  groupIdHex := event.groupIdHex
  sender := event.sender
  plaintext := event.plaintext
  kind := event.kind
  tags := event.tags
  timelineAt := event.recordedAt
  receivedAt := event.receivedAt
  replyToMessageIdHex := replyToMessageIdHex
  media := media
  agentTextStream := agentTextStream
  reactions := .default
  deleted := false
  deletedByMessageIdHex := none
  invalidationStatus := none

def timelineRowFromChat (event : AppEventRow) : TimelineRow :=
  timelineRowFrom event ((tagValue event.tags quoteRefTag).or (tagValue event.tags eventRefTag))
    (mediaMetadata event.tags) (agentStreamFinalMetadata event.tags)

def timelineRowFromAppEvent (event : AppEventRow) : TimelineRow :=
  timelineRowFrom event (tagValue event.tags eventRefTag) none none

def timelineRowFromStreamStart (event : AppEventRow) : TimelineRow :=
  timelineRowFrom event none none (agentStreamStartMetadata event)

def invalidationStatus (event : AppEventRow) : String :=
  (event.invalidationReason.filter (· ≠ "")).getD "Invalidated"

/-- A withdrawn event is marked in its row. -/
def markInvalidated (event : AppEventRow) (row : TimelineRow) : TimelineRow :=
  if event.invalidated then
    { row with invalidationStatus := some (invalidationStatus event) }
  else
    row

/-- The row of an event by itself. The rebuild and the projection of one message make the same. -/
def rowFor (event : AppEventRow) : Option TimelineRow :=
  if event.kind = chatKind then
    some (markInvalidated event (timelineRowFromChat event))
  else if event.kind ∈ [agentActivityKind, agentOperationKind, groupSystemKind, editKind] then
    some (markInvalidated event (timelineRowFromAppEvent event))
  else if event.kind = agentStreamStartKind ∧ (tagValue event.tags streamTag).isSome then
    some (markInvalidated event (timelineRowFromStreamStart event))
  else
    none

/-- A withdrawn start is no live stream. -/
def streamStartFor (event : AppEventRow) : Option StreamStartRow :=
  if event.kind = agentStreamStartKind ∧ event.invalidated = false then
    (tagValue event.tags streamTag).map fun streamIdHex =>
      { groupIdHex := event.groupIdHex
        messageIdHex := event.messageIdHex
        sourceMessageIdHex := event.sourceMessageIdHex
        sender := event.sender
        streamIdHex := streamIdHex
        tags := event.tags
        startedAt := event.recordedAt
        receivedAt := event.receivedAt }
  else
    none

variable {event : AppEventRow} {events : List AppEventRow} {row : TimelineRow}

theorem streamStartFor_eq_none (hidden : rowFor event = none) : streamStartFor event = none := by
  rw [streamStartFor]
  split_ifs with starts
  · cases stream : tagValue event.tags streamTag with
    | none => rfl
    | some =>
      rw [rowFor, if_pos (⟨starts.1, by simp [stream]⟩ :
        event.kind = agentStreamStartKind ∧ (tagValue event.tags streamTag).isSome)] at hidden
      split_ifs at hidden
  · rfl

/-! ### Reactions and deletions -/

def userReaction (target : String) (reaction : AppEventRow) : TimelineUserReaction where
  reactionMessageIdHex := reaction.messageIdHex
  targetMessageIdHex := target
  sender := reaction.sender
  emoji := reaction.plaintext
  reactedAt := reaction.recordedAt

def TimelineRow.pushReaction (row : TimelineRow) (reaction : TimelineUserReaction) : TimelineRow :=
  { row with
    reactions :=
      { row.reactions with userReactions := row.reactions.userReactions ++ [reaction] } }

def reactionOrder : TimelineUserReaction → TimelineUserReaction → Ordering :=
  compareLex (compareOn (·.reactedAt)) (compareOn (·.reactionMessageIdHex))

/-- The senders of each emoji, in order and without repetition. -/
def reactionsByEmoji (reactions : List TimelineUserReaction) : List (String × List String) :=
  (sortBy compare (reactions.map (·.emoji))).dedup.map fun emoji =>
    (emoji, (sortBy compare ((reactions.filter (·.emoji = emoji)).map (·.sender))).dedup)

/-- The reactions are put in order and summed up. -/
def TimelineRow.summarizeReactions (row : TimelineRow) : TimelineRow :=
  let userReactions := sortBy reactionOrder row.reactions.userReactions
  { row with
    reactions :=
      { byEmoji := reactionsByEmoji userReactions
        userReactions := userReactions } }

/-- A deletion by the sender of the row. -/
def TimelineRow.applyDelete (row : TimelineRow) (delete : AppEventRow) : TimelineRow :=
  if row.sender ≠ delete.sender then
    row
  else
    { row with
      deleted := true
      deletedByMessageIdHex := some delete.messageIdHex
      plaintext := ""
      media := none
      agentTextStream := none
      reactions := .default }

/-- An event of this kind that was not withdrawn. -/
def AppEventRow.isLive (event : AppEventRow) (kind : Nat) : Bool :=
  event.kind = kind && !event.invalidated

/-! ### The rebuild -/

/-- The reactions that a deletion by their sender names. -/
def deletedReactionIds (events : List AppEventRow) : List String :=
  (events.filter (·.isLive deleteKind)).flatMap fun delete =>
    (tagValues delete.tags eventRefTag).filter fun target =>
      (events.find? (·.messageIdHex = target)).any fun event =>
        event.kind = reactionKind && event.sender = delete.sender

/-- An event that has a row is put under its id. -/
def insertProjected {ρ : Type} (project : AppEventRow → Option ρ) (table : Table String ρ)
    (event : AppEventRow) : Table String ρ :=
  match project event with
  | some row => table.insert event.messageIdHex row
  | none => table

variable (deleted : List String)

/-- A reaction goes to the row that its first reference names. -/
def attachReaction (timeline : Table String TimelineRow)
    (reaction : AppEventRow) : Table String TimelineRow :=
  if reaction.messageIdHex ∈ deleted then
    timeline
  else
    match tagValue reaction.tags eventRefTag with
    | none => timeline
    | some target =>
      match timeline[target]? with
      | none => timeline
      | some row => timeline.insert target (row.pushReaction (userReaction target reaction))

def deleteTarget (delete : AppEventRow) (timeline : Table String TimelineRow) (target : String) :
    Table String TimelineRow :=
  match timeline[target]? with
  | none => timeline
  | some row => timeline.insert target (row.applyDelete delete)

/-- A deletion acts on every row that one of its references names. -/
def attachDelete (timeline : Table String TimelineRow) (delete : AppEventRow) :
    Table String TimelineRow :=
  (tagValues delete.tags eventRefTag).foldl (deleteTarget delete) timeline

/-- **The rebuild of a group** from its events, which are in order. -/
def projectGroupEvents (events : List AppEventRow) :
    Table String TimelineRow × Table String StreamStartRow :=
  let timeline := events.foldl (insertProjected rowFor) ∅
  let reacted := (events.filter (·.isLive reactionKind)).foldl
    (attachReaction (deletedReactionIds events)) timeline
  let summarized := reacted.map fun _ row => row.summarizeReactions
  ((events.filter (·.isLive deleteKind)).foldl attachDelete summarized,
    events.foldl (insertProjected streamStartFor) ∅)

/-! ### What the rebuild leaves under an id -/

theorem getElem?_insertProjected {ρ : Type} (project : AppEventRow → Option ρ)
    (table : Table String ρ) (event : AppEventRow) (id : String) :
    (insertProjected project table event)[id]? =
      if event.messageIdHex = id then (project event).or table[id]? else table[id]? := by
  rw [insertProjected]
  split
  · rename_i row projected
    rw [getElem?_insert, projected, Option.some_or]
  · rename_i projected
    rw [projected, Option.none_or, ite_self]

theorem getElem?_foldl_insertProjected {ρ : Type} (project : AppEventRow → Option ρ)
    (unique : (events.map (·.messageIdHex)).Nodup) (table : Table String ρ) (id : String) :
    (events.foldl (insertProjected project) table)[id]? =
      ((events.find? (·.messageIdHex = id)).bind project).or table[id]? := by
  induction events generalizing table with
  | nil => simp
  | cons first rest ih =>
    rw [map_cons, nodup_cons] at unique
    rw [foldl_cons, ih unique.2, getElem?_insertProjected]
    by_cases here : first.messageIdHex = id
    · have gone : rest.find? (·.messageIdHex = id) = none := by
        rw [find?_eq_none]
        intro event listed same
        refine unique.1 (mem_map.mpr ⟨event, listed, ?_⟩)
        exact (of_decide_eq_true same).trans here.symm
      rw [if_pos here, gone, find?_cons_of_pos (by simpa using here)]
      rfl
    · rw [if_neg here, find?_cons_of_neg (by simpa using here)]

/-- A reaction, seen from the row with an id. -/
def reactionOn (id : String) (reaction : AppEventRow) : Bool :=
  reaction.messageIdHex ∉ deleted && tagValue reaction.tags eventRefTag = some id

theorem getElem?_attachReaction (id : String)
    (timeline : Table String TimelineRow) (reaction : AppEventRow) :
    (attachReaction deleted timeline reaction)[id]? =
      if reactionOn deleted id reaction then
        timeline[id]?.map (·.pushReaction (userReaction id reaction))
      else timeline[id]? := by
  rw [attachReaction]
  split_ifs with gone named named
  · simp [reactionOn, gone] at named
  · rfl
  · have target : tagValue reaction.tags eventRefTag = some id := by
      simpa [reactionOn, gone] using named
    rw [target]
    dsimp only
    cases there : timeline[id]? with
    | none => exact there
    | some => exact (getElem?_insert _ _ _ _).trans (if_pos rfl)
  · split
    · rfl
    · rename_i target named'
      have other : target ≠ id := by
        rintro rfl
        exact named (by simp [reactionOn, gone, named'])
      split
      · rfl
      · exact (getElem?_insert _ _ _ _).trans (if_neg other)

theorem TimelineRow.applyDelete_idem (row : TimelineRow) (delete : AppEventRow) :
    (row.applyDelete delete).applyDelete delete = row.applyDelete delete := by
  by_cases same : row.sender = delete.sender
  · simp [applyDelete, same]
  · simp [applyDelete, same]

theorem getElem?_attachDelete (id : String) (timeline : Table String TimelineRow)
    (delete : AppEventRow) :
    (attachDelete timeline delete)[id]? =
      if id ∈ tagValues delete.tags eventRefTag then timeline[id]?.map (·.applyDelete delete)
      else timeline[id]? := by
  have one (timeline : Table String TimelineRow) (target : String) :
      (deleteTarget delete timeline target)[id]? =
        if target = id then timeline[id]?.map (·.applyDelete delete) else timeline[id]? := by
    rw [deleteTarget]
    by_cases here : target = id
    · rw [if_pos here, here]
      cases there : timeline[id]? with
      | none => exact there
      | some => exact (getElem?_insert _ _ _ _).trans (if_pos rfl)
    · rw [if_neg here]
      split
      · rfl
      · exact (getElem?_insert _ _ _ _).trans (if_neg here)
  rw [attachDelete]
  -- A reference that is repeated deletes the row once more, which changes nothing.
  induction tagValues delete.tags eventRefTag generalizing timeline with
  | nil => simp
  | cons target rest ih =>
    rw [foldl_cons, ih, one]
    by_cases here : target = id
    · rw [if_pos here, if_pos (mem_cons.mpr (Or.inl here.symm)), Option.map_map]
      split_ifs
      · refine congrArg (Option.map · _) (funext fun row => ?_)
        exact row.applyDelete_idem delete
      · rfl
    · have same : id ∈ target :: rest ↔ id ∈ rest := by
        rw [mem_cons, or_iff_right fun equal => here equal.symm]
      rw [if_neg here]
      simp only [same]

/-- A row with its reactions and its deletions. -/
def TimelineRow.modified (row : TimelineRow) (reactions deletes : List AppEventRow) : TimelineRow :=
  deletes.foldl .applyDelete
    (reactions.foldl (fun row reaction => row.pushReaction (userReaction row.messageIdHex reaction))
      row).summarizeReactions

theorem foldl_pushReaction {id : String} (named : row.messageIdHex = id)
    {reactions : List AppEventRow} :
    reactions.foldl (fun row reaction => row.pushReaction (userReaction id reaction)) row =
      reactions.foldl
        (fun row reaction => row.pushReaction (userReaction row.messageIdHex reaction)) row := by
  induction reactions generalizing row with
  | nil => rfl
  | cons first rest ih =>
    rw [foldl_cons, foldl_cons, named]
    exact ih named

theorem rowFor_eq_some (projected : rowFor event = some row) :
    ∃ replyTo media stream status, row =
      { timelineRowFrom event replyTo media stream with
        invalidationStatus := status } := by
  have marked (replyTo media stream) : ∃ status,
      markInvalidated event (timelineRowFrom event replyTo media stream) =
        { timelineRowFrom event replyTo media stream with
          invalidationStatus := status } := by
    rw [markInvalidated]
    split_ifs
    · exact ⟨_, rfl⟩
    · exact ⟨none, rfl⟩
  rw [rowFor] at projected
  split_ifs at projected <;> cases projected <;> exact ⟨_, _, _, marked _ _ _⟩

theorem rowFor_place (projected : rowFor event = some row) :
    row.groupIdHex = event.groupIdHex ∧ row.messageIdHex = event.messageIdHex := by
  obtain ⟨_, _, _, _, rfl⟩ := rowFor_eq_some projected
  exact ⟨rfl, rfl⟩

/-- **What the rebuild leaves under an id**: the row of the event, with the reactions whose first
reference is the id, and the deletions that name it. -/
theorem projectGroupEvents_timeline (unique : (events.map (·.messageIdHex)).Nodup) (id : String) :
    (projectGroupEvents events).1[id]? =
      ((events.find? (·.messageIdHex = id)).bind rowFor).map fun row =>
        row.modified
          ((events.filter (·.isLive reactionKind)).filter
            (reactionOn (deletedReactionIds events) id))
          ((events.filter (·.isLive deleteKind)).filter
            fun delete => id ∈ tagValues delete.tags eventRefTag) := by
  rw [projectGroupEvents]
  dsimp only
  rw [getElem?_foldl (fun delete => decide (id ∈ tagValues delete.tags eventRefTag)) .applyDelete
      (by simpa using getElem?_attachDelete id), ExtTreeMap.getElem?_map,
    getElem?_foldl (reactionOn _ id) (fun row reaction => row.pushReaction (userReaction id reaction))
      (getElem?_attachReaction _ id), getElem?_foldl_insertProjected rowFor unique]
  cases found : events.find? (·.messageIdHex = id) with
  | none => rfl
  | some event =>
    cases projected : rowFor event with
    | none => simp [projected]
    | some row =>
      have named : row.messageIdHex = id := by
        rw [(rowFor_place projected).2]
        simpa using find?_some found
      simp only [Option.bind_some, projected, Option.some_or, Option.map_some]
      rw [TimelineRow.modified, ← foldl_pushReaction named]

theorem projectGroupEvents_streamStarts (unique : (events.map (·.messageIdHex)).Nodup) (id : String) :
    (projectGroupEvents events).2[id]? =
      (events.find? (·.messageIdHex = id)).bind streamStartFor := by
  refine (getElem?_foldl_insertProjected streamStartFor unique ∅ id).trans ?_
  simp

end Darkmatter
