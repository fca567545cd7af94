/-
**The chat list of a subscriber.**

A subscription to the chat list begins with a snapshot, and then sends the rows that change. It keeps
no rows, but the fingerprint of each row that the subscriber has, and compares with that.

* `sendChatListRowUpdate`, `sendChatListRemoveUpdate`, `reconcileChatListSnapshot` — what is sent;
* `Exact` — **the subscriber has what it should have**, the fingerprints are those of its rows, and
  it needed all that was sent;
* `chat_list_exact` — **every run is exact**.
-/

import Darkmatter.Lib.Machine
import Darkmatter.Lib.View

namespace Darkmatter

open Std Lib List

/-- A row of the chat list, with all that it shows as its content. -/
structure ChatListRow (Content : Type) where
  groupIdHex : String
  archived : Bool
  content : Content
  updatedAt : Int
deriving DecidableEq

/-- A row without the time at which it was written. -/
def ChatListRow.stable {Content : Type} (row : ChatListRow Content) : ChatListRow Content :=
  { row with updatedAt := 0 }

/-- The row of a group, or none when it is removed. -/
abbrev ChatListUpdate (Content : Type) := String × Option (ChatListRow Content)

def ChatListRow.update {Content : Type} (row : ChatListRow Content) : ChatListUpdate Content :=
  (row.groupIdHex, some row)

/-- **A subscription**: whether archived chats are shown, the serialization of rows, and the order in
which the keys of a hash map come. -/
structure ChatListSubscription (Content : Type) where
  includeArchived : Bool
  serialize : ChatListRow Content → String
  injective : Function.Injective serialize
  keys : Table String String → List String
  mem_keys : ∀ fingerprints groupIdHex, groupIdHex ∈ keys fingerprints ↔ groupIdHex ∈ fingerprints

/-- The fingerprints, and what was sent so far. -/
structure ChatListFeed (Content : Type) where
  rowFingerprints : Table String String
  sent : List (ChatListUpdate Content)

/-- Rows that are read anew after the loop fell behind, and one row that was read or is gone. -/
inductive ChatListStep (Content : Type)
  | reconcile (rows : List (ChatListRow Content))
  | changed (groupIdHex : String) (row : Option (ChatListRow Content))

namespace ChatListSubscription

variable {Content : Type} (subscription : ChatListSubscription Content)
  (feed : ChatListFeed Content)

/-! ### What is sent -/

variable (row : ChatListRow Content)

def chatListRowFingerprint : String := subscription.serialize row.stable

def sendChatListRowUpdate : ChatListFeed Content :=
  if feed.rowFingerprints[row.groupIdHex]? = some (subscription.chatListRowFingerprint row) then
    feed
  else
    { rowFingerprints :=
        feed.rowFingerprints.insert row.groupIdHex (subscription.chatListRowFingerprint row)
      sent := feed.sent ++ [row.update] }

def sendChatListRemoveUpdate (groupIdHex : String) : ChatListFeed Content :=
  if groupIdHex ∈ feed.rowFingerprints then
    { rowFingerprints := feed.rowFingerprints.erase groupIdHex
      sent := feed.sent ++ [(groupIdHex, none)] }
  else
    feed

def removedGroupIds (rows : List (ChatListRow Content)) : List String :=
  (subscription.keys feed.rowFingerprints).filter (· ∉ rows.map (·.groupIdHex))

def reconcileChatListSnapshot (rows : List (ChatListRow Content)) : ChatListFeed Content :=
  rows.foldl subscription.sendChatListRowUpdate
    ((subscription.removedGroupIds feed rows).foldl sendChatListRemoveUpdate feed)

/-- An archived row is not shown unless it is asked for. -/
def hides : Bool := !subscription.includeArchived && row.archived

def perform : ChatListStep Content → ChatListFeed Content
  | .reconcile rows => subscription.reconcileChatListSnapshot feed rows
  | .changed groupIdHex none => sendChatListRemoveUpdate feed groupIdHex
  | .changed _ (some row) =>
    if subscription.hides row then sendChatListRemoveUpdate feed row.groupIdHex
    else subscription.sendChatListRowUpdate feed row

/-- The rows of a snapshot. -/
def snapshotRows (rows : List (ChatListRow Content)) : Table String (ChatListRow Content) :=
  follow ∅ (rows.map ChatListRow.update)

def subscribed (snapshot : List (ChatListRow Content)) : ChatListFeed Content where
  rowFingerprints := (snapshotRows snapshot).map fun _ row => subscription.chatListRowFingerprint row
  sent := []

variable (rows : Table String (ChatListRow Content))

/-- **What a subscriber should have**: the rows of the last snapshot, as changed since. -/
def expect : ChatListStep Content → Table String (ChatListRow Content)
  | .reconcile rows => snapshotRows rows
  | .changed groupIdHex none => rows.erase groupIdHex
  | .changed _ (some row) =>
    if subscription.hides row then rows.erase row.groupIdHex else rows.insert row.groupIdHex row

/-! ### Exact feeds -/

/-- What is shown under a key, whatever the time. -/
def shown (groupIdHex : String) : Option (ChatListRow Content) :=
  rows[groupIdHex]?.map ChatListRow.stable

/-- An update that shows something new. -/
def Needed (update : ChatListUpdate Content) : Prop :=
  shown rows update.1 ≠ update.2.map ChatListRow.stable

/-- **The subscriber has what it should have**, the fingerprints are those of its rows, and it needed
all that was sent. -/
structure Exact (start expected : Table String (ChatListRow Content)) : Prop where
  shows : ∀ groupIdHex : String, shown (follow start feed.sent) groupIdHex = shown expected groupIdHex
  mirrors : ∀ groupIdHex : String, feed.rowFingerprints[groupIdHex]? =
    (follow start feed.sent)[groupIdHex]?.map subscription.chatListRowFingerprint
  needed : Along takeOver Needed start feed.sent

variable {subscription feed} {start expected other : Table String (ChatListRow Content)}
  {update : ChatListUpdate Content}

theorem along_concat {sent : List (ChatListUpdate Content)}
    (needed : Along takeOver Needed start sent) (last : Needed (follow start sent) update) :
    Along takeOver Needed start (sent ++ [update]) := by
  induction sent generalizing start with
  | nil => exact ⟨last, trivial⟩
  | cons first rest ih => exact ⟨needed.1, ih needed.2 last⟩

theorem shown_takeOver (update : ChatListUpdate Content) (groupIdHex : String) :
    shown (takeOver start update) groupIdHex =
      if update.1 = groupIdHex then update.2.map ChatListRow.stable else shown start groupIdHex := by
  rw [shown, getElem?_takeOver]
  split_ifs <;> rfl

variable (held : subscription.Exact feed start expected)

include held

/-- **An update that is sent when it is needed.** -/
theorem Exact.send {next : ChatListFeed Content}
    (sends : next = feed ∧ ¬ Needed (follow start feed.sent) update ∨
      Needed (follow start feed.sent) update ∧ next.sent = feed.sent ++ [update] ∧
        ∀ groupIdHex : String, next.rowFingerprints[groupIdHex]? = if update.1 = groupIdHex then
          update.2.map subscription.chatListRowFingerprint else feed.rowFingerprints[groupIdHex]?) :
    subscription.Exact next start (takeOver expected update) := by
  obtain ⟨rfl, known⟩ | ⟨needed, sent, fingerprints⟩ := sends
  · refine ⟨fun groupIdHex => ?_, held.mirrors, held.needed⟩
    rw [shown_takeOver]
    split_ifs with here
    · rw [← here]
      exact not_not.mp known
    · exact held.shows groupIdHex
  · have after : follow start next.sent = takeOver (follow start feed.sent) update := by
      rw [sent, follow, foldl_concat]
      rfl
    refine ⟨fun groupIdHex => ?_, fun groupIdHex => ?_, sent ▸ along_concat held.needed needed⟩
    · rw [after, shown_takeOver, shown_takeOver, held.shows]
    · rw [after, fingerprints, getElem?_takeOver, held.mirrors]
      split_ifs <;> rfl

theorem Exact.sendRow (row : ChatListRow Content) :
    subscription.Exact (subscription.sendChatListRowUpdate feed row) start
      (takeOver expected row.update) := by
  have same : feed.rowFingerprints[row.groupIdHex]? =
      some (subscription.chatListRowFingerprint row) ↔
        ¬ Needed (follow start feed.sent) row.update := by
    rw [held.mirrors, Needed, shown, ChatListRow.update, not_not]
    cases (follow start feed.sent)[row.groupIdHex]? with
    | none => simp
    | some => simp [chatListRowFingerprint, subscription.injective.eq_iff]
  refine held.send ?_
  rw [sendChatListRowUpdate]
  split_ifs with known
  · exact .inl ⟨rfl, same.mp known⟩
  · exact .inr ⟨not_not.mp (mt same.mpr known), rfl, fun groupIdHex => getElem?_insert ..⟩

theorem Exact.sendRemove (groupIdHex : String) :
    subscription.Exact (sendChatListRemoveUpdate feed groupIdHex) start
      (takeOver expected (groupIdHex, none)) := by
  have same : groupIdHex ∈ feed.rowFingerprints ↔
      Needed (follow start feed.sent) (groupIdHex, none) := by
    rw [ExtTreeMap.mem_iff_isSome_getElem?, held.mirrors, Needed, shown]
    cases (follow start feed.sent)[groupIdHex]? <;> simp
  refine held.send ?_
  rw [sendChatListRemoveUpdate]
  split_ifs with known
  · exact .inr ⟨same.mp known, rfl, fun key => getElem?_erase ..⟩
  · exact .inl ⟨rfl, mt same.mpr known⟩

omit held

/-- What is shown after some updates rests on what was shown before, if at all. -/
theorem shown_follow {updates : List (ChatListUpdate Content)} {groupIdHex : String}
    (same : shown start groupIdHex = shown other groupIdHex ∨ groupIdHex ∈ updates.map (·.1)) :
    shown (follow start updates) groupIdHex = shown (follow other updates) groupIdHex := by
  induction updates generalizing start other with
  | nil => exact same.resolve_right not_mem_nil
  | cons update rest ih =>
    refine ih ?_
    rw [shown_takeOver, shown_takeOver]
    rw [map_cons, mem_cons] at same
    split_ifs with here
    · exact .inl rfl
    · exact same.imp_right fun listed => listed.resolve_left fun same => here same.symm

/-- Updates that are sent one after another. -/
theorem Exact.foldl {α : Type} {send : ChatListFeed Content → α → ChatListFeed Content}
    {update : α → ChatListUpdate Content}
    (sends : ∀ {feed expected}, subscription.Exact feed start expected → ∀ action,
      subscription.Exact (send feed action) start (takeOver expected (update action)))
    (held : subscription.Exact feed start expected) (actions : List α) :
    subscription.Exact (actions.foldl send feed) start (follow expected (actions.map update)) := by
  induction actions generalizing feed expected with
  | nil => exact held
  | cons action rest ih => exact ih (sends held action)

/-- **Nothing is left of the rows before a snapshot.** -/
theorem Exact.reconcile (held : subscription.Exact feed start expected)
    (rows : List (ChatListRow Content)) :
    subscription.Exact (subscription.reconcileChatListSnapshot feed rows) start
      (snapshotRows rows) := by
  have cleared := Exact.foldl Exact.sendRemove held (subscription.removedGroupIds feed rows)
  have sent := Exact.foldl Exact.sendRow cleared rows
  refine ⟨fun groupIdHex => (sent.shows groupIdHex).trans (shown_follow ?_), sent.mirrors,
    sent.needed⟩
  by_cases visible : groupIdHex ∈ rows.map (·.groupIdHex)
  · rw [map_map]
    exact .inr visible
  left
  rw [shown, @getElem?_follow _ _ _ _ _ _ (fun _ => none)]
  · split_ifs with removed
    · rfl
    · have unknown : groupIdHex ∉ feed.rowFingerprints := fun known => removed (by
        rw [map_map]
        exact mem_map.mpr ⟨groupIdHex, mem_filter.mpr
          ⟨(subscription.mem_keys _ _).mpr known, decide_eq_true visible⟩, rfl⟩)
      have absent := held.mirrors groupIdHex
      rw [ExtTreeMap.getElem?_eq_none unknown, eq_comm, Option.map_eq_none_iff] at absent
      have shows := held.shows groupIdHex
      rw [shown, absent] at shows
      exact shows.symm
  · intro _ listed
    obtain ⟨_, _, rfl⟩ := mem_map.mp listed
    rfl

theorem Exact.perform (held : subscription.Exact feed start expected) (step : ChatListStep Content) :
    subscription.Exact (subscription.perform feed step) start (subscription.expect expected step) := by
  cases step with
  | reconcile rows => exact held.reconcile rows
  | changed groupIdHex row =>
    cases row with
    | none => exact held.sendRemove groupIdHex
    | some row =>
      rw [ChatListSubscription.perform, expect]
      split_ifs
      · exact held.sendRemove row.groupIdHex
      · exact held.sendRow row

/-- **Chat list updates keep the subscriber exact.** After every run the subscriber has the rows of
the last snapshot as changed since, up to the times at which they were written, the fingerprints are
those of its rows, and it needed every update when it was sent. -/
theorem chat_list_exact (subscription : ChatListSubscription Content)
    (snapshot : List (ChatListRow Content)) (steps : List (ChatListStep Content)) :
    subscription.Exact (steps.foldl subscription.perform (subscription.subscribed snapshot))
      (snapshotRows snapshot) (steps.foldl subscription.expect (snapshotRows snapshot)) := by
  have start : subscription.Exact (subscription.subscribed snapshot) (snapshotRows snapshot)
      (snapshotRows snapshot) := ⟨fun _ => rfl, fun _ => ExtTreeMap.getElem?_map .., trivial⟩
  -- The rows at the start stay; the feed and what is expected go on together.
  suffices run : ∀ feed expected, subscription.Exact feed (snapshotRows snapshot) expected →
      subscription.Exact (steps.foldl subscription.perform feed) (snapshotRows snapshot)
        (steps.foldl subscription.expect expected) from run _ _ start
  induction steps with
  | nil => exact fun _ _ held => held
  | cons step rest ih => exact fun _ _ held => ih _ _ (held.perform step)

end ChatListSubscription

/-! ### A subscription -/

/-- A number in strokes, before a text. -/
def strokes (count : Nat) (rest : List Char) : List Char := replicate count '|' ++ '.' :: rest

theorem strokes_injective {count other : Nat} {rest others : List Char}
    (same : strokes count rest = strokes other others) : count = other ∧ rest = others := by
  induction count generalizing other with
  | zero =>
    cases other with
    | zero => exact ⟨rfl, (cons.inj same).2⟩
    | succ => cases (cons.inj same).1
  | succ count ih =>
    cases other with
    | zero => cases (cons.inj same).1
    | succ other =>
      obtain ⟨counts, texts⟩ := ih (cons.inj same).2
      exact ⟨congrArg (· + 1) counts, texts⟩

/-- Rows that show a number; archived ones are hidden. -/
def numberSubscription : ChatListSubscription Nat where
  includeArchived := false
  serialize := fun row => String.ofList (strokes row.archived.toNat (strokes row.content
    (strokes row.updatedAt.toNat (strokes (-row.updatedAt).toNat row.groupIdHex.toList))))
  injective := by
    rintro ⟨_, archived, _, _⟩ ⟨_, archived', _, _⟩ same
    obtain ⟨archives, same⟩ := strokes_injective (String.ofList_injective same)
    obtain ⟨rfl, same⟩ := strokes_injective same
    obtain ⟨since, same⟩ := strokes_injective same
    obtain ⟨before, same⟩ := strokes_injective same
    obtain rfl := String.toList_injective same
    obtain rfl : archived = archived' := by cases archived <;> cases archived' <;> trivial
    dsimp only at since before
    congr 1
    omega
  keys := ExtTreeMap.keys
  mem_keys := fun _ _ => ExtTreeMap.mem_keys

/-- Two chats are shown. One changes, one is archived, a third one comes, and at last all are read
anew, when the first is gone: each of these is sent, and nothing else. -/
theorem number_updates_exact :
    let snapshot := [⟨"a", false, 1, 0⟩, ⟨"b", false, 2, 0⟩]
    let steps := [.changed "a" (some ⟨"a", false, 5, 7⟩), .changed "b" (some ⟨"b", true, 2, 8⟩),
      .changed "c" none, .reconcile [⟨"c", false, 3, 9⟩], .changed "c" (some ⟨"c", false, 3, 10⟩)]
    numberSubscription.Exact (steps.foldl numberSubscription.perform
        (numberSubscription.subscribed snapshot)) (ChatListSubscription.snapshotRows snapshot)
      (steps.foldl numberSubscription.expect (ChatListSubscription.snapshotRows snapshot)) ∧
    (steps.foldl numberSubscription.perform (numberSubscription.subscribed snapshot)).sent =
      [("a", some ⟨"a", false, 5, 7⟩), ("b", none), ("a", none), ("c", some ⟨"c", false, 3, 9⟩)] :=
  ⟨numberSubscription.chat_list_exact _ _, by decide +kernel⟩

end Darkmatter
