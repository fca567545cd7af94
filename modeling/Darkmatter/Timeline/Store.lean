/-
**The materialized timeline.**

The timeline of every group is kept in a table, beside the app events from which it is computed. A
recorded event usually changes a few rows only: the rows that it may affect are found through a table
of references, and computed anew one by one. A withdrawal rebuilds a group as a whole, and a retention
prune deletes events and recomputes the rows that they affected. A recorded and a withdrawn event are
answered with the changes of the timeline.

* `TimelineStore` — the events, the references of reactions and deletions, and the two tables;
* `projectSingleMessageTimeline` — **the row of one message**, through the references;
* `affectedTimelineMessageIds` — the rows that an event may affect;
* `recordAppEvent`, `invalidateAppEventBySource`, `invalidateAppEventByMessageId`,
  `invalidateAppEventsByOriginCommit`, `securePruneAppEventsBefore` — the operations;
* `TimelineProjectionUpdate` — the changes that they return.
-/

import Darkmatter.Timeline.Projection

namespace Darkmatter

open Std Lib Function

/-! ### The tables -/

/-- A reaction or a deletion refers to an event. -/
structure ModifierEdge where
  modifierMessageIdHex : String
  targetMessageIdHex : String
  kind : Nat
deriving DecidableEq, Repr

structure TimelineStore where
  events : AppEvents
  edges : String → List ModifierEdge
  timeline : String → Table String TimelineRow
  streamStarts : String → Table String StreamStartRow

/-- Events are read by time and id. -/
def eventOrder : AppEventRow → AppEventRow → Ordering :=
  compareLex (compareOn (·.recordedAt)) (compareOn (·.messageIdHex))

def timelineOrder : TimelineRow → TimelineRow → Ordering :=
  compareLex (compareOn (·.timelineAt)) (compareOn (·.messageIdHex))

namespace TimelineStore

def empty : TimelineStore where
  events := .empty
  edges := fun _ => []
  timeline := fun _ => ∅
  streamStarts := fun _ => ∅

section Projecting

variable (store : TimelineStore) (groupIdHex messageIdHex : String)

def appEventsForRebuild : List AppEventRow :=
  sortBy eventOrder (store.events.rows.filter (·.groupIdHex = groupIdHex))

def rebuildMessageTimelineForGroup : TimelineStore :=
  let (rows, starts) := projectGroupEvents (store.appEventsForRebuild groupIdHex)
  { store with
    timeline := update store.timeline groupIdHex rows
    streamStarts := update store.streamStarts groupIdHex starts }

/-- The live events at the other end of these references. -/
def join (edges : List ModifierEdge) : List (ModifierEdge × AppEventRow) :=
  edges.filterMap fun edge =>
    ((store.events.row? (groupIdHex, edge.modifierMessageIdHex)).filter (!·.invalidated)).map
      (edge, ·)

def appEventsTargetingMessage (kind : Nat) (targetMessageIdHex : String) : List AppEventRow :=
  sortBy eventOrder
    ((store.join groupIdHex ((store.edges groupIdHex).filter fun edge =>
      edge.kind = kind ∧ edge.targetMessageIdHex = targetMessageIdHex)).map (·.2))

/-- Of these reactions, those that a deletion by their sender names. -/
def deletedReactionIdsForTarget (reactions : List AppEventRow) : List String :=
  let deletePairs := (store.join groupIdHex ((store.edges groupIdHex).filter fun edge =>
    edge.kind = deleteKind ∧ edge.targetMessageIdHex ∈ reactions.map (·.messageIdHex))).map
      fun (edge, delete) => (edge.targetMessageIdHex, delete.sender)
  (deletePairs.filter fun (target, deleteSender) =>
    (reactions.find? (·.messageIdHex = target)).any (·.sender = deleteSender)).map (·.1)

def applyTargetedModifiers (row : TimelineRow) : TimelineRow :=
  let reactions := store.appEventsTargetingMessage groupIdHex reactionKind row.messageIdHex
  let deleted := store.deletedReactionIdsForTarget groupIdHex reactions
  row.modified (reactions.filter (·.messageIdHex ∉ deleted))
    (store.appEventsTargetingMessage groupIdHex deleteKind row.messageIdHex)

/-- **The row of one message**, and its stream start. -/
def projectSingleMessageTimeline : Option (TimelineRow × Option StreamStartRow) :=
  (store.events.row? (groupIdHex, messageIdHex)).bind fun event =>
    (rowFor event).map fun row =>
      (store.applyTargetedModifiers groupIdHex row, streamStartFor event)

def upsertMessageTimelineProjection : TimelineStore :=
  let starts := (store.streamStarts groupIdHex).erase messageIdHex
  let timeline := store.timeline groupIdHex
  match store.projectSingleMessageTimeline groupIdHex messageIdHex with
  | none =>
    { store with
      timeline := update store.timeline groupIdHex (timeline.erase messageIdHex)
      streamStarts := update store.streamStarts groupIdHex starts }
  | some (row, none) =>
    { store with
      timeline := update store.timeline groupIdHex (timeline.insert messageIdHex row)
      streamStarts := update store.streamStarts groupIdHex starts }
  | some (row, some start) =>
    { store with
      timeline := update store.timeline groupIdHex (timeline.insert messageIdHex row)
      streamStarts :=
        update store.streamStarts groupIdHex (starts.insert messageIdHex start) }

end Projecting

/-! ### The rows that an event may affect -/

section Affected

variable (store : TimelineStore) (groupIdHex messageIdHex : String)

def replyMessageIdsForTargets (targets : List String) : List String :=
  ((store.timeline groupIdHex).toList.filter fun (_, row) =>
    row.replyToMessageIdHex.any (· ∈ targets)).map (·.1)

def reactionTargetMessageId : Option String :=
  (store.events.row? (groupIdHex, messageIdHex)).bind fun event =>
    if event.kind = reactionKind then tagValue event.tags eventRefTag else none

/-- The rows themselves. -/
def directlyAffected (kind : Nat) (tags : List (List String)) : List String :=
  if kind ∈ [chatKind, agentStreamStartKind, agentActivityKind, agentOperationKind,
      groupSystemKind] then
    [messageIdHex]
  else if kind = editKind then
    messageIdHex :: tagValues tags eventRefTag
  else if kind = reactionKind then
    tagValues tags eventRefTag
  else if kind = deleteKind then
    (tagValues tags eventRefTag).flatMap fun target =>
      target :: (store.reactionTargetMessageId groupIdHex target).toList
  else
    []

/-- The rows whose replies show another preview. -/
def replyPreviewTargets (kind : Nat) (tags : List (List String)) : List String :=
  if kind ∈ [chatKind, agentStreamStartKind, agentActivityKind, agentOperationKind,
      groupSystemKind] then
    [messageIdHex]
  else if kind = deleteKind then
    tagValues tags eventRefTag
  else
    []

def affectedTimelineMessageIds (kind : Nat) (tags : List (List String)) : List String :=
  store.directlyAffected groupIdHex messageIdHex kind tags ++
    store.replyMessageIdsForTargets groupIdHex (replyPreviewTargets messageIdHex kind tags)

end Affected

end TimelineStore

/-! ### What a reader sees -/

structure TimelineReplyPreview where
  messageIdHex : String
  sender : String
  plaintext : String
  kind : Nat
  sourceEpoch : Option Nat
  media : Option (List (List String))
  agentTextStream : Option AgentTextStream
  deleted : Bool
deriving DecidableEq, Repr

structure TimelineMessageRecord extends TimelineRow where
  replyPreview : Option TimelineReplyPreview
deriving DecidableEq, Repr

inductive TimelineUpdateTrigger
  | newMessage
  | messageEditedOrReprojected
  | reactionAdded
  | reactionRemoved
  | messageDeleted
  | replyPreviewChanged
  | agentStreamStarted
  | agentStreamFinished
  | agentActivity
  | agentOperation
  | groupSystem
deriving DecidableEq, Repr

inductive TimelineRemoveReason
  | invalidated
deriving DecidableEq, Repr

inductive TimelineMessageChange
  | upsert (trigger : TimelineUpdateTrigger) (message : TimelineMessageRecord)
  | remove (messageIdHex : String) (reason : TimelineRemoveReason)
deriving DecidableEq, Repr

structure TimelineProjectionUpdate where
  groupIdHex : String
  messages : List TimelineMessageRecord
  changes : List TimelineMessageChange
deriving DecidableEq, Repr

def replyPreviewFromRow (row : TimelineRow) : TimelineReplyPreview where
  messageIdHex := row.messageIdHex
  sender := row.sender
  plaintext := row.plaintext
  kind := row.kind
  sourceEpoch := row.sourceEpoch
  media := row.media
  agentTextStream := row.agentTextStream
  deleted := row.deleted

namespace TimelineStore

section Reading

variable (store : TimelineStore)

/-- The preview is that of the row in the table. -/
def attachReplyPreview (row : TimelineRow) : TimelineMessageRecord :=
  { row with
    replyPreview := row.replyToMessageIdHex.bind fun target =>
      (store.timeline row.groupIdHex)[target]?.map replyPreviewFromRow }

def timelineRecordsByIds (groupIdHex : String) (messageIds : List String) :
    List TimelineMessageRecord :=
  (sortBy timelineOrder (((store.timeline groupIdHex).toList.filter fun (id, _) =>
    id ∈ messageIds).map (·.2))).map store.attachReplyPreview

end Reading

end TimelineStore

/-! ### The changes that are returned -/

section Changes

variable (eventMessageIdHex : String) (kind : Nat) (tags : List (List String))
  (row : TimelineMessageRecord)

/-- The row shows a preview of the event, or of one that the event names. -/
def isReplyPreviewChange : Bool :=
  row.messageIdHex ≠ eventMessageIdHex &&
    row.replyToMessageIdHex.any (fun target =>
      target = eventMessageIdHex || target ∈ tagValues tags eventRefTag) &&
    kind ∈ [chatKind, agentStreamStartKind, agentActivityKind, agentOperationKind,
      groupSystemKind, deleteKind]

def timelineTriggerForInvalidationRow : TimelineUpdateTrigger :=
  if isReplyPreviewChange eventMessageIdHex kind tags row then
    .replyPreviewChanged
  else if kind = reactionKind then
    .reactionRemoved
  else if kind = deleteKind then
    if row.messageIdHex ∈ tagValues tags eventRefTag then
      .messageEditedOrReprojected
    else
      .reactionAdded
  else
    .messageEditedOrReprojected

def timelineTriggerForEventRow : TimelineUpdateTrigger :=
  if isReplyPreviewChange eventMessageIdHex kind tags row then
    .replyPreviewChanged
  else if kind = chatKind then
    if (tagValue tags streamTag).isSome ∧ (tagValue tags streamStartTag).isSome then
      .agentStreamFinished
    else
      .newMessage
  else if kind = agentStreamStartKind then
    .agentStreamStarted
  else if kind = agentActivityKind then
    .agentActivity
  else if kind = agentOperationKind then
    .agentOperation
  else if kind = groupSystemKind then
    .groupSystem
  else if kind = reactionKind then
    .reactionAdded
  else if kind = deleteKind then
    if row.messageIdHex ∈ tagValues tags eventRefTag then .messageDeleted else .reactionRemoved
  else
    .messageEditedOrReprojected

/-- A row that only the replaced event affected changes as if that event were withdrawn. -/
def timelineTriggerForRecordedEventRow (previousEvent : Option AppEventRow)
    (newAffectedMessageIds : List String) (row : TimelineMessageRecord) : TimelineUpdateTrigger :=
  match previousEvent with
  | some previous =>
    if row.messageIdHex ∉ newAffectedMessageIds then
      timelineTriggerForInvalidationRow eventMessageIdHex previous.kind previous.tags row
    else
      timelineTriggerForEventRow eventMessageIdHex kind tags row
  | none => timelineTriggerForEventRow eventMessageIdHex kind tags row

/-- Every affected row that is there is written. -/
def timelineChangesForEvent (previousEvent : Option AppEventRow)
    (newAffectedMessageIds : List String) (messages : List TimelineMessageRecord) :
    List TimelineMessageChange :=
  messages.map fun message =>
    .upsert (timelineTriggerForRecordedEventRow eventMessageIdHex kind tags previousEvent
      newAffectedMessageIds message) message

/-- The affected rows that changed are written, and those that are gone are removed. -/
def timelineChangesForInvalidation (before messages : List TimelineMessageRecord) :
    List TimelineMessageChange :=
  ((messages.filter fun message =>
      before.find? (·.messageIdHex = message.messageIdHex) ≠ some message).map fun message =>
    .upsert (timelineTriggerForInvalidationRow eventMessageIdHex kind tags message) message) ++
  (before.filter fun message =>
      (messages.find? (·.messageIdHex = message.messageIdHex)).isNone).map fun message =>
    .remove message.messageIdHex .invalidated

end Changes

/-- A change is known by its message and by whether it writes or removes. -/
def TimelineMessageChange.key : TimelineMessageChange → Bool × String
  | .upsert _ message => (true, message.messageIdHex)
  | .remove messageIdHex _ => (false, messageIdHex)

/-- The first change of each kind to a message is kept. -/
def dedupTimelineChanges (changes : List TimelineMessageChange) : List TimelineMessageChange :=
  changes.foldl (fun kept change =>
    if change.key ∈ kept.map TimelineMessageChange.key then kept else kept ++ [change]) []

/-! ### Operations -/

def canProjectRecordAppEventIncrementally (kind : Nat) : Bool :=
  kind ∈ [chatKind, agentStreamStartKind, agentActivityKind, agentOperationKind, groupSystemKind,
    reactionKind, deleteKind, editKind]

/-- The references of a reaction or a deletion, one for each event that it names. -/
def modifierEdges (event : StoredAppEvent) : List ModifierEdge :=
  if event.kind ∈ [reactionKind, deleteKind] then
    (tagValues event.tags eventRefTag).dedup.map fun target =>
      { modifierMessageIdHex := event.messageIdHex
        targetMessageIdHex := target
        kind := event.kind }
  else
    []

namespace TimelineStore

variable (store : TimelineStore) (event : StoredAppEvent)

def upsertMessageModifierEdges : TimelineStore :=
  { store with
    edges := update store.edges event.groupIdHex
      ((store.edges event.groupIdHex).filter (·.modifierMessageIdHex ≠ event.messageIdHex) ++
        modifierEdges event) }

/-- The rows that a recorded event may affect: those of the event, and those of the event that it
replaces. -/
def recordAffected : List String :=
  store.affectedTimelineMessageIds event.groupIdHex event.messageIdHex event.kind event.tags ++
    (store.events.row? event.key).elim [] fun existing =>
      store.affectedTimelineMessageIds event.groupIdHex event.messageIdHex existing.kind existing.tags

def recordWritten (events : AppEvents) : TimelineStore :=
  let written := { store with events := events }.upsertMessageModifierEdges event
  if canProjectRecordAppEventIncrementally event.kind ∧
      (store.events.row? event.key).all
        (fun existing => canProjectRecordAppEventIncrementally existing.kind) then
    (store.recordAffected event).foldl
      (fun store id => store.upsertMessageTimelineProjection event.groupIdHex id) written
  else
    written.rebuildMessageTimelineForGroup event.groupIdHex

/-- **Recording an event.** It is refused when another event has its source. -/
def recordAppEvent : Option (TimelineStore × TimelineProjectionUpdate) :=
  (store.events.recordAppEvent event).map fun events =>
    let after := store.recordWritten event events
    let messages := after.timelineRecordsByIds event.groupIdHex (store.recordAffected event)
    (after,
      { groupIdHex := event.groupIdHex
        messages := messages
        changes := timelineChangesForEvent event.messageIdHex event.kind event.tags
          (store.events.row? event.key)
          (store.affectedTimelineMessageIds event.groupIdHex event.messageIdHex event.kind
            event.tags)
          messages })

/-- The event is withdrawn, and its group is rebuilt. -/
def invalidateAppEvent (row : AppEventRow) (events : AppEvents) :
    TimelineStore × TimelineProjectionUpdate :=
  let affected :=
    store.affectedTimelineMessageIds row.groupIdHex row.messageIdHex row.kind row.tags
  let before := store.timelineRecordsByIds row.groupIdHex affected
  let after := { store with events := events }.rebuildMessageTimelineForGroup row.groupIdHex
  let messages := after.timelineRecordsByIds row.groupIdHex affected
  (after,
    { groupIdHex := row.groupIdHex
      messages := messages
      changes := timelineChangesForInvalidation row.messageIdHex row.kind row.tags before messages })

def invalidateAppEventBySource (sourceMessageIdHex reason : String) :
    Option (TimelineStore × TimelineProjectionUpdate) :=
  (store.events.rows.find? (·.sourceMessageIdHex = some sourceMessageIdHex)).map fun row =>
    store.invalidateAppEvent row (store.events.invalidateBySource sourceMessageIdHex reason)

def invalidateAppEventByMessageId (groupIdHex messageIdHex reason : String) :
    Option (TimelineStore × TimelineProjectionUpdate) :=
  (store.events.row? (groupIdHex, messageIdHex)).map fun row =>
    store.invalidateAppEvent row
      (store.events.invalidateByMessageId groupIdHex messageIdHex reason)

/-- The events of a commit are withdrawn, and the group of the first of them is rebuilt. -/
def invalidateAppEventsByOriginCommit (originCommitId reason : String) :
    Option (TimelineStore × TimelineProjectionUpdate) :=
  let rows := store.events.rows.filter (·.originCommitId = some originCommitId)
  rows.head?.map fun first =>
    let affected := rows.flatMap fun row =>
      store.affectedTimelineMessageIds row.groupIdHex row.messageIdHex row.kind row.tags
    let before := store.timelineRecordsByIds first.groupIdHex affected
    let events := store.events.invalidateByOriginCommit originCommitId reason
    let after := { store with events := events }.rebuildMessageTimelineForGroup first.groupIdHex
    let messages := after.timelineRecordsByIds first.groupIdHex affected
    (after,
      { groupIdHex := first.groupIdHex
        messages := messages
        changes := dedupTimelineChanges (rows.flatMap fun row =>
          timelineChangesForInvalidation row.messageIdHex row.kind row.tags before messages) })

/-- The events of a group before a time are deleted with their references and rows, and the other
rows that they affected are computed anew. -/
def securePruneAppEventsBefore (groupIdHex : String) (cutoffRecordedAt : Nat) : TimelineStore :=
  let isPruned (event : AppEventRow) : Bool :=
    event.groupIdHex = groupIdHex && event.recordedAt < cutoffRecordedAt
  let pruned := store.events.rows.filter isPruned
  let prunedIds := pruned.map (·.messageIdHex)
  let affected := pruned.flatMap fun event =>
    store.directlyAffected groupIdHex event.messageIdHex event.kind event.tags
  let erased : TimelineStore :=
    { events := store.events.deleteRows isPruned
      edges := update store.edges groupIdHex
        ((store.edges groupIdHex).filter (·.modifierMessageIdHex ∉ prunedIds))
      timeline := update store.timeline groupIdHex
        (prunedIds.foldl .erase (store.timeline groupIdHex))
      streamStarts := update store.streamStarts groupIdHex
        (prunedIds.foldl .erase (store.streamStarts groupIdHex)) }
  (affected.filter (· ∉ prunedIds)).foldl
    (fun store id => store.upsertMessageTimelineProjection groupIdHex id) erased

end TimelineStore

inductive TimelineOperation
  | record (event : StoredAppEvent)
  | invalidateBySource (sourceMessageIdHex reason : String)
  | invalidateByMessageId (groupIdHex messageIdHex reason : String)
  | invalidateByOriginCommit (originCommitId reason : String)
  | prune (groupIdHex : String) (cutoffRecordedAt : Nat)
deriving DecidableEq, Repr

/-- **One operation.** An operation that is refused, or that finds no event, changes nothing. -/
def TimelineStore.apply (store : TimelineStore) : TimelineOperation → TimelineStore
  | .record event => ((store.recordAppEvent event).map (·.1)).getD store
  | .invalidateBySource sourceMessageIdHex reason =>
    ((store.invalidateAppEventBySource sourceMessageIdHex reason).map (·.1)).getD store
  | .invalidateByMessageId groupIdHex messageIdHex reason =>
    ((store.invalidateAppEventByMessageId groupIdHex messageIdHex reason).map (·.1)).getD store
  | .invalidateByOriginCommit originCommitId reason =>
    ((store.invalidateAppEventsByOriginCommit originCommitId reason).map (·.1)).getD store
  | .prune groupIdHex cutoffRecordedAt => store.securePruneAppEventsBefore groupIdHex cutoffRecordedAt

end Darkmatter
