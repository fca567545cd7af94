/-
**Confirming a publication on a storage that fails.**

Confirming a publication writes the storage in three places: the anchor before the merge, one
transaction around the merge, and the anchor after it. Only then the reference to the publication is
taken out of memory, old recovery snapshots are released, the events are told, and what was put aside
is taken in again. Every one of these storage calls may fail, and the caller tries again.

* `ConfirmFaults` — the storage calls of an attempt that fail;
* `Confirming.attempt` — an attempt, `Confirming.retry` — attempts until one succeeds;
* `attempt_eq_task` — an attempt in which nothing fails is the confirmation of a session;
* `attempt_stopped` — **an attempt that fails before the reference is taken loses nothing**;
* `retry_safe_iff` — attempts are safe exactly when the one that takes the reference takes in what was
  put aside without a failure.
-/

import Darkmatter.Engine.Runs
import Darkmatter.Engine.StateChanges

namespace Darkmatter

open Std Lib GroupStorage Move Option

/-! ### Attempts -/

/-- **A group that waits for a confirmation.** The staged commit is in the MLS store until it is
merged, and the changes it makes are told once it is confirmed. -/
structure Confirming (Group : Type) extends Engine Group where
  attached : Bool
  pendingStateChanges : List (Option Bytes × GroupStateChange)
  stateChangeEvents : List (Nat × Option Bytes × GroupStateChange × String)

/-- A failure while an anchor is retained: before the snapshot is taken, or after it, when some of the
anchors that are too old were released. -/
inductive RetainFault
  | early
  | late (released : Nat → Bool)

/-- **The storage calls of an attempt that fail.** Of the replay it is the one with a given number. -/
structure ConfirmFaults where
  load : Bool
  retainBefore : Option RetainFault
  transaction : Bool
  retainAfter : Option RetainFault
  pruneReads : Bool
  release : SnapshotName → Bool
  replay : Option Nat

def ConfirmFaults.none : ConfirmFaults where
  load := false
  retainBefore := .none
  transaction := false
  retainAfter := .none
  pruneReads := false
  release _ := false
  replay := .none

variable {Group : Type}

/-- The snapshot of the epoch is taken, and only some of the older ones are released. -/
def GroupStorage.retainUpTo (storage : GroupStorage Group) (maxRewind : Nat)
    (released : Nat → Bool) : GroupStorage Group :=
  let taken := storage.createGroupSnapshot (.retainedAnchor storage.live.epoch)
  { taken with
    snapshots := fun name =>
      match name with
      | .retainedAnchor epoch =>
        if epoch < storage.live.epoch - maxRewind ∧ released epoch then none
        else taken.snapshots name
      | .forkRecovery .. => taken.snapshots name }

/-- Recovery snapshots of epochs below the rewind horizon are released; one that cannot be released
stays with its incumbent. -/
def Engine.pruneForkRecoveryUpTo (engine : Engine Group) (fails : SnapshotName → Bool) :
    Engine Group :=
  let oldestRetainedEpoch :=
    engine.storage.live.epoch - engine.policy.convergence.maxRewindCommits
  { engine with
    storage :=
      (engine.incumbents.filter fun record =>
        record.sourceEpoch < oldestRetainedEpoch ∧ !fails record.snapshotName).foldl
          (fun storage record => storage.releaseGroupSnapshot record.snapshotName) engine.storage
    incumbents := engine.incumbents.filter fun record =>
      oldestRetainedEpoch ≤ record.sourceEpoch ∨ fails record.snapshotName
    committedFrom := engine.committedFrom.filter fun epoch => oldestRetainedEpoch ≤ epoch }

namespace Confirming

variable (net : Ingress Group) (nowMs : Nat) (state : Confirming Group)

def withStorage (storage : GroupStorage Group) : Confirming Group :=
  { state with storage }

def maxRewind : Nat := state.policy.convergence.maxRewindCommits

/-- The anchor of the current epoch is retained. -/
def retained : Confirming Group :=
  state.withStorage (state.storage.retainCurrentGroupEpochSnapshot state.maxRewind)

def retainCurrentEpochSnapshot (fault : Option RetainFault) :
    Except (EngineError String) Unit × Confirming Group :=
  match fault with
  | none => (.ok (), state.retained)
  | some .early => (.error (.backend "retain anchor"), state)
  | some (.late released) =>
    (.error (.backend "retain anchor"),
      state.withStorage (state.storage.retainUpTo state.maxRewind released))

/-- The anchor before the merge, while there is something to merge. -/
def prepare (fault : Option RetainFault) : Except (EngineError String) Unit × Confirming Group :=
  if state.attached then state.retainCurrentEpochSnapshot fault else (.ok (), state)

variable (pending : PendingCommit)

/-- **The transaction**: the staged commit is merged if it is still there, the record follows, and the
row of the commit is processed. -/
def merge : Option (Confirming Group) :=
  let live := state.storage.live
  match if state.attached then net.mergePendingCommit live.mls pending.bytes else some live.mls,
      updateMessageState live.messages pending.record.storageId .processed with
  | some merged, some messages =>
    some { state.withStorage { state.storage with
        live := { live with mls := merged, epoch := net.epoch merged, messages } } with
      attached := false }
  | _, _ => none

/-- The reference is taken: the group is stable, and the commit counts as merged from its epoch. -/
def promote (epoch : Nat) : Confirming Group :=
  let stable : Engine Group :=
    { state.toEngine with epochState := .stable epoch, pendingCommit := none }
  { state with toEngine := stable.recordApplied pending.record }

variable (faults : ConfirmFaults)

def prune : Confirming Group :=
  if faults.pruneReads then state
  else { state with toEngine := state.toEngine.pruneForkRecoveryUpTo faults.release }

def announce (epoch : Nat) : Confirming Group :=
  { state with
    events := state.events ++ [.epochChanged (epoch - 1) epoch]
    pendingStateChanges := []
    stateChangeEvents := state.stateChangeEvents ++
      state.pendingStateChanges.map fun (actor, change) =>
        (epoch, actor, change, pending.record.storageId) }

/-- What was put aside is taken in, until a call fails. -/
def replay (fault : Option Nat) : Except (EngineError String) Unit × Confirming Group :=
  let task := (replayBufferedMessages net nowMs).program
  match fault with
  | none =>
    let (result, engine) := task.run (perform net) state.toEngine
    (result, { state with toEngine := engine })
  | some calls =>
    let (result, engine) := task.interrupt (perform net) calls state.toEngine
    (result.getD (.error .storage), { state with toEngine := engine })

/-- The steps after the storage was written. -/
def finish (pending : PendingCommit) : Except (EngineError String) GroupEvent × Confirming Group :=
  match state.epochState with
  | .pendingPublish epoch =>
    match (((state.promote pending epoch).prune faults).announce pending epoch).replay net nowMs
        faults.replay with
    | (.error e, after) => (.error e, after)
    | (.ok (), after) => (.ok (.epochChanged (epoch - 1) epoch), after)
  | other =>
    (.error (.invalidTransition
      ⟨other.name, "Merging", "confirm_publish requires PendingPublish"⟩), state)

/-- **An attempt to confirm the publication.** -/
def attempt : Except (EngineError String) GroupEvent × Confirming Group :=
  match state.pendingCommit with
  | none => (.error .unknownPending, state)
  | some pending =>
    if faults.load then
      (.error (.backend "load"), state)
    else
      match state.prepare faults.retainBefore with
      | (.error e, failed) => (.error e, failed)
      | (.ok (), before) =>
        if faults.transaction then
          (.error .storage, before)
        else
          match before.merge net pending with
          | none => (.error (.backend "merge_pending"), before)
          | some merged =>
            match merged.retainCurrentEpochSnapshot faults.retainAfter with
            | (.error e, failed) => (.error e, failed)
            | (.ok (), anchored) => anchored.finish net nowMs faults pending

/-- **Attempts until one succeeds.** After the last of the failures that are to come, nothing fails. -/
def retry : List ConfirmFaults → Confirming Group →
    Except (EngineError String) GroupEvent × Confirming Group
  | [], state => state.attempt net nowMs .none
  | faults :: rest, state =>
    match state.attempt net nowMs faults with
    | (.ok event, after) => (.ok event, after)
    | (.error _, after) => retry rest after

/-- **Attempts are safe**: wherever the failures end, the next attempts leave what one attempt without
failures leaves. -/
def RetrySafe (schedule : List ConfirmFaults) : Prop :=
  ∀ done, done <+: schedule → retry net nowMs done state = state.attempt net nowMs .none

end Confirming

/-! ### Conditions on the failures -/

namespace ConfirmFaults

variable (faults : ConfirmFaults)

/-- The attempt fails before the reference is taken. -/
def stops (attached : Bool) : Bool :=
  faults.load || (attached && faults.retainBefore.isSome) || faults.transaction ||
    faults.retainAfter.isSome

/-- Whether the staged commit is still there after an attempt that fails early. -/
def leaves (attached : Bool) : Bool :=
  attached && (faults.load || faults.retainBefore.isSome || faults.transaction)

/-- No call of the clean-up after the confirmation fails. -/
def Prunes : Prop :=
  faults.pruneReads = false ∧ ∀ name, faults.release name = false

/-- **The attempt that takes the reference is not cut off** while it takes in what was put aside, in
so many storage calls. -/
def Spared (calls : Nat) : Bool → List ConfirmFaults → Prop
  | _, [] => True
  | attached, faults :: rest =>
    if faults.stops attached then Spared calls (faults.leaves attached) rest
    else ∀ failing ∈ faults.replay, calls ≤ failing

end ConfirmFaults

/-! ### Writing the storage again -/

theorem retainUpTo_all (storage : GroupStorage Group) (maxRewind : Nat) :
    storage.retainUpTo maxRewind (fun _ => true) =
      storage.retainCurrentGroupEpochSnapshot maxRewind := by
  refine congrArg (mk storage.live) (funext fun name => ?_)
  cases name with
  | retainedAnchor =>
    exact if_congr (and_iff_left rfl) rfl rfl
  | forkRecovery => rfl

/-- **Retaining an anchor can be tried again.** -/
theorem retain_retainUpTo (storage : GroupStorage Group) (maxRewind : Nat) (released : Nat → Bool) :
    (storage.retainUpTo maxRewind released).retainCurrentGroupEpochSnapshot maxRewind =
      storage.retainCurrentGroupEpochSnapshot maxRewind := by
  refine congrArg (mk storage.live) (funext fun name => ?_)
  cases name with
  | forkRecovery => simp [retainUpTo, createGroupSnapshot]
  | retainedAnchor epoch =>
    simp only [retainUpTo, createGroupSnapshot]
    by_cases old : epoch < storage.live.epoch - maxRewind
    · simp [old]
    · simp only [old, false_and, if_false]
      split_ifs <;> rfl

theorem updateMessageState_again {records messages : List MessageRecord} {id : String}
    {state : MessageState} (updated : updateMessageState records id state = some messages) :
    updateMessageState messages id state = some messages := by
  induction records generalizing messages with
  | nil => cases updated
  | cons record rest ih =>
    rw [updateMessageState] at updated
    split_ifs at updated with same
    · cases updated
      rw [updateMessageState, if_pos same]
    · obtain ⟨_, isLater, rfl⟩ := map_eq_some_iff.mp updated
      rw [updateMessageState, if_neg same, ih isLater, map_some]

theorem pruneForkRecoveryUpTo_all (engine : Engine Group) :
    engine.pruneForkRecoveryUpTo (fun _ => false) = engine.pruneForkRecovery := by
  unfold Engine.pruneForkRecoveryUpTo Engine.pruneForkRecovery
  simp

/-! ### What an attempt leaves -/

open ConfirmFaults (leaves stops Spared Prunes)

section Leaves

variable {net : Ingress Group} {nowMs : Nat}

namespace Confirming

variable {state : Confirming Group} {pending : PendingCommit} {faults : ConfirmFaults}

/-- The group when the merge begins. -/
def prepared (state : Confirming Group) : Confirming Group :=
  if state.attached then state.retained else state

/-- What is written before the reference is taken, when nothing fails. -/
def anchored (net : Ingress Group) (state : Confirming Group) (pending : PendingCommit) :
    Option (Confirming Group) :=
  (state.prepared.merge net pending).map retained

theorem retain_failed (state : Confirming Group) (fault : RetainFault) :
    ∃ e storage, state.retainCurrentEpochSnapshot (some fault) =
        (.error e, state.withStorage storage) ∧
      storage.live = state.storage.live ∧ (state.withStorage storage).retained = state.retained := by
  cases fault with
  | early => exact ⟨_, state.storage, rfl, rfl, rfl⟩
  | late released =>
    exact ⟨_, _, rfl, rfl,
      congrArg state.withStorage (retain_retainUpTo state.storage state.maxRewind released)⟩

variable {storage : GroupStorage Group} {merged anchor : Confirming Group} {event : GroupEvent}
  {epoch : Nat} {after : Engine Group} {transport : String → Prop}

theorem prepared_withStorage {state : Confirming Group} (attached : state.attached = true)
    (same : (state.withStorage storage).retained = state.retained) :
    (state.withStorage storage).prepared = state.prepared := by
  unfold prepared
  rw [if_pos attached, if_pos (show (state.withStorage storage).attached = true from attached),
    same]

theorem prepared_of_detached (state : Confirming Group) (detached : state.attached = false) :
    state.prepared = state :=
  if_neg (by simp [detached])

@[simp] theorem prepared_attached (state : Confirming Group) :
    state.prepared.attached = state.attached := by
  unfold prepared
  split <;> rfl

@[simp] theorem prepared_pendingCommit (state : Confirming Group) :
    state.prepared.pendingCommit = state.pendingCommit := by
  unfold prepared
  split <;> rfl

theorem prepared_prepared (state : Confirming Group) : state.prepared.prepared = state.prepared := by
  unfold prepared
  split
  · next attached =>
    rw [if_pos (show state.retained.attached = true from attached)]
    have again := retain_retainUpTo state.storage state.maxRewind fun _ => true
    rw [retainUpTo_all] at again
    exact congrArg state.withStorage again
  · next detached => rfl

theorem prepare_ok {fault : Option RetainFault}
    (passes : (state.attached && fault.isSome) = false) :
    state.prepare fault = (.ok (), state.prepared) := by
  unfold prepare prepared
  split
  · next attached =>
    rw [attached, Bool.true_and, isSome_eq_false_iff, isNone_iff_eq_none] at passes
    rw [passes]
    rfl
  · rfl

variable (isMerged : state.merge net pending = some merged)

include isMerged

theorem merge_cases : ∃ group messages,
      (if state.attached then net.mergePendingCommit state.storage.live.mls pending.bytes
        else some state.storage.live.mls) = some group ∧
      updateMessageState state.storage.live.messages pending.record.storageId .processed =
        some messages ∧
      merged = { state.withStorage { state.storage with
          live := { state.storage.live with mls := group, epoch := net.epoch group, messages } } with
        attached := false } := by
  unfold merge at isMerged
  dsimp only at isMerged
  split at isMerged
  · next group messages isGroup updated =>
    cases isMerged
    exact ⟨group, messages, isGroup, updated, rfl⟩
  · cases isMerged

theorem merge_frame : merged.pendingCommit = state.pendingCommit ∧ merged.attached = false := by
  obtain ⟨_, _, -, -, rfl⟩ := merge_cases isMerged
  exact ⟨rfl, rfl⟩

/-- A transaction that was made already changes nothing. -/
theorem merge_again (live : storage.live = merged.storage.live) :
    (merged.withStorage storage).merge net pending = some (merged.withStorage storage) := by
  obtain ⟨_, _, -, updated, rfl⟩ := merge_cases isMerged
  obtain ⟨_, _⟩ := storage
  subst live
  simp only [merge, withStorage, Bool.false_eq_true, if_false, updateMessageState_again updated]

omit isMerged

/-- **An attempt that fails early loses nothing**: the reference is still there, and the next attempt
writes what this one would have written. -/
theorem attempt_stopped (nowMs : Nat) (waits : state.pendingCommit = some pending)
    (isAnchored : state.anchored net pending = some anchor)
    (stops : faults.stops state.attached = true) :
    ∃ e after, state.attempt net nowMs faults = (.error e, after) ∧
      after.pendingCommit = some pending ∧ after.anchored net pending = some anchor ∧
      after.attached = faults.leaves state.attached := by
  obtain ⟨merged, isMerged, rfl⟩ := map_eq_some_iff.mp isAnchored
  unfold attempt
  simp only [waits]
  by_cases load : faults.load = true
  · rw [if_pos load]
    exact ⟨_, _, rfl, waits, isAnchored, by simp [leaves, load]⟩
  rw [if_neg load]
  cases before : state.attached && faults.retainBefore.isSome with
  | true =>
    obtain ⟨attached, fails⟩ := Bool.and_eq_true_iff.mp before
    obtain ⟨fault, isFault⟩ := isSome_iff_exists.mp fails
    obtain ⟨e, storage, failed, -, same⟩ := state.retain_failed fault
    rw [prepare, if_pos attached, isFault, failed]
    refine ⟨e, _, rfl, waits, ?_, ?_⟩
    · rw [anchored, prepared_withStorage attached same]
      exact isAnchored
    · rw [leaves, fails, attached, Bool.or_true, Bool.true_or]
      exact attached
  | false =>
    rw [prepare_ok before]
    dsimp only
    by_cases transaction : faults.transaction = true
    · rw [if_pos transaction]
      refine ⟨_, _, rfl, by simp [waits], ?_, ?_⟩
      · rw [anchored, prepared_prepared]
        exact isAnchored
      · simp [leaves, transaction]
    · rw [if_neg transaction, isMerged]
      dsimp only
      have after : faults.retainAfter.isSome = true := by
        simpa [ConfirmFaults.stops, load, before, transaction] using stops
      obtain ⟨fault, isFault⟩ := isSome_iff_exists.mp after
      obtain ⟨e, storage, failed, live, same⟩ := merged.retain_failed fault
      obtain ⟨kept, detached⟩ := merge_frame isMerged
      rw [isFault, failed]
      refine ⟨e, _, rfl, kept.trans (by simp [waits]), ?_, ?_⟩
      · rw [anchored, prepared_of_detached (merged.withStorage storage) detached,
          merge_again isMerged live, map_some, same]
      · refine (show (merged.withStorage storage).attached = false from detached).trans ?_
        cases attached : state.attached <;>
          simp_all [leaves]

/-- **An attempt that does not fail early** writes the storage and takes the reference. -/
theorem attempt_through (nowMs : Nat) (waits : state.pendingCommit = some pending)
    (isAnchored : state.anchored net pending = some anchor)
    (passes : faults.stops state.attached = false) :
    state.attempt net nowMs faults = anchor.finish net nowMs faults pending := by
  obtain ⟨_, isMerged, rfl⟩ := map_eq_some_iff.mp isAnchored
  simp only [stops, Bool.or_eq_false_iff] at passes
  obtain ⟨⟨⟨load, before⟩, transaction⟩, after⟩ := passes
  rw [isSome_eq_false_iff, isNone_iff_eq_none] at after
  unfold attempt
  simp only [waits, load, transaction, prepare_ok before, isMerged, after, Bool.false_eq_true,
    if_false, retainCurrentEpochSnapshot]

/-! ### The reference is taken -/

/-- The group before what was put aside is taken in, when nothing fails. -/
def confirmed (state : Confirming Group) (pending : PendingCommit) (epoch : Nat) :
    Confirming Group :=
  ((state.promote pending epoch).prune .none).announce pending epoch

theorem prune_of_prunes (state : Confirming Group) (prunes : faults.Prunes) :
    state.prune faults = state.prune .none := by
  obtain ⟨reads, release⟩ := prunes
  have none : faults.release = ConfirmFaults.none.release := funext release
  rw [prune, prune, reads, none]
  rfl

/-- The storage calls that taking in what was put aside makes. -/
def replayCalls (net : Ingress Group) (nowMs : Nat) (engine : Engine Group) : Nat :=
  (replayBufferedMessages net nowMs).program.calls (perform net) engine

theorem finish_spared (prunes : faults.Prunes)
    (publishes : state.epochState = .pendingPublish epoch) (spared : ∀ failing ∈ faults.replay,
      replayCalls net nowMs (state.confirmed pending epoch).toEngine ≤ failing) :
    state.finish net nowMs faults pending = state.finish net nowMs .none pending := by
  have same : (state.confirmed pending epoch).replay net nowMs faults.replay =
      (state.confirmed pending epoch).replay net nowMs none := by
    cases given : faults.replay with
    | none => rfl
    | some failing =>
      simp only [replay]
      rw [Program.interrupt_of_calls_le (spared failing given)]
      rfl
  simp only [finish, publishes]
  rw [prune_of_prunes _ prunes, ← confirmed, same]
  rfl

theorem finish_cut {failing : Nat} (prunes : faults.Prunes)
    (publishes : state.epochState = .pendingPublish epoch) (fails : faults.replay = some failing)
    (cut : failing < replayCalls net nowMs (state.confirmed pending epoch).toEngine) :
    ∃ after, state.finish net nowMs faults pending = (.error .storage, after) ∧
      after.toEngine = ((replayBufferedMessages net nowMs).program.interrupt
        (perform net) failing (state.confirmed pending epoch).toEngine).2 := by
  have none := Program.interrupt_of_lt_calls cut
  refine ⟨{ state.confirmed pending epoch with toEngine := _ }, ?_, rfl⟩
  unfold finish
  simp only [publishes, prune_of_prunes _ prunes, fails, replay]
  rw [confirmed] at none ⊢
  rw [none]
  rfl

/-- **An attempt in which nothing fails** writes what the session writes for a confirmation. -/
theorem anchored_of_confirmed (attached : state.attached = true)
    (isConfirmed : Darkmatter.confirmPublished net state.toEngine = some after) :
    ∃ pending epoch anchor, state.pendingCommit = some pending ∧
      state.anchored net pending = some anchor ∧ anchor.epochState = .pendingPublish epoch ∧
      (anchor.confirmed pending epoch).toEngine = after := by
  rw [Darkmatter.confirmPublished] at isConfirmed
  split at isConfirmed
  · next pending epoch waits publishes =>
    dsimp only at isConfirmed
    split at isConfirmed
    · next group messages isGroup updated =>
      have merged : state.prepared.merge net pending = some
          { state.prepared.withStorage { state.prepared.storage with
              live := { state.storage.live with mls := group, epoch := net.epoch group, messages } }
            with attached := false } := by
        rw [prepared, if_pos attached, merge]
        dsimp only
        rw [if_pos (show state.retained.attached = true from attached)]
        simp only [retained, withStorage, maxRewind, isGroup, updated]
        rfl
      refine ⟨pending, epoch, _, waits, by rw [anchored, merged, map_some], ?_, ?_⟩
      · rw [prepared, if_pos attached]
        exact publishes
      · rw [← some.inj isConfirmed, ← pruneForkRecoveryUpTo_all, prepared, if_pos attached]
        rfl
    · cases isConfirmed
  · cases isConfirmed

/-- **A confirmation without a failure is the one of a session**: its storage calls, made one by one,
come to the same as the atomic move, and what was put aside is taken in after it. -/
theorem attempt_eq_task (attached : state.attached = true)
    (isConfirmed : Darkmatter.confirmPublished net state.toEngine = some after) :
    ((state.attempt net nowMs .none).1.map fun _ => (),
        (state.attempt net nowMs .none).2.toEngine) =
      (doConfirmPublished net nowMs).program.run (perform net) state.toEngine := by
  obtain ⟨pending, epoch, anchor, waits, isAnchored, publishes, rfl⟩ :=
    anchored_of_confirmed attached isConfirmed
  have passes : ConfirmFaults.none.stops state.attached = false := by
    simp [stops, ConfirmFaults.none]
  rw [attempt_through nowMs waits isAnchored passes, doConfirmPublished, Task.run_look_bind]
  simp only [waits, isConfirmed]
  rw [Task.run_act_bind, perform, isConfirmed, getD_some]
  rw [finish, publishes]
  dsimp only
  rw [← confirmed, show ConfirmFaults.none.replay = none from rfl, replay]
  rcases (replayBufferedMessages net nowMs).program.run (perform net.toOpenMls)
    (anchor.confirmed pending epoch).toEngine with ⟨_ | _, engine⟩ <;> rfl

/-! ### Attempts until one succeeds -/

theorem attempt_none_through (nowMs : Nat) (waits : state.pendingCommit = some pending)
    (isAnchored : state.anchored net pending = some anchor) :
    state.attempt net nowMs .none = anchor.finish net nowMs .none pending :=
  attempt_through nowMs waits isAnchored (by simp [stops, ConfirmFaults.none])

/-- While what was put aside is taken in, no publication is begun. -/
theorem cut_unpending {engine : Engine Group} (laws : net.Laws)
    (sound : engine.SoundSession net transport) (unpending : engine.pendingCommit = none)
    (calls : Nat) :
    ((replayBufferedMessages net nowMs).program.interrupt (perform net) calls
      engine).2.pendingCommit = none := by
  have meets : Allows net transport (fun _ => False) engine (replayBufferedMessages net nowMs)
      fun _ _ => True := replayBufferedMessages_meets sound nowMs
  have invariant := Program.Meets.interrupted
    (fun after => after.SoundSession net transport ∧ after.pendingCommit = none) meets
    ⟨sound, unpending⟩ (fun after move inv allowed =>
      ⟨inv.1.perform laws allowed, inv.1.stays_unpending laws inv.2 allowed⟩) calls
  exact invariant.2

theorem retrySafe_cons {rest : List ConfirmFaults} :
    state.RetrySafe net nowMs (faults :: rest) ↔
      ∀ done, done <+: rest →
        retry net nowMs (faults :: done) state = state.attempt net nowMs .none := by
  constructor
  · intro safe done within
    exact safe (faults :: done) (List.cons_prefix_cons.mpr ⟨rfl, within⟩)
  · intro safe _ within
    rcases List.prefix_cons_iff.mp within with rfl | ⟨later, rfl, inner⟩
    · rfl
    · exact safe later inner

/-- **Attempts from any state that is yet to be confirmed.** -/
theorem retrySafe_iff_spared (laws : net.Laws)
    (publishes : anchor.epochState = .pendingPublish epoch)
    (sound : (anchor.confirmed pending epoch).toEngine.SoundSession net transport)
    (confirms : (anchor.finish net nowMs .none pending).1 = .ok event)
    {schedule : List ConfirmFaults} (prunes : ∀ faults ∈ schedule, faults.Prunes)
    (waits : state.pendingCommit = some pending)
    (isAnchored : state.anchored net pending = some anchor) :
    state.RetrySafe net nowMs schedule ↔
      Spared (replayCalls net nowMs (anchor.confirmed pending epoch).toEngine)
        state.attached schedule := by
  induction schedule generalizing state with
  | nil =>
    refine iff_of_true (fun done within => ?_) trivial
    rw [List.prefix_nil.mp within]
    rfl
  | cons faults rest ih =>
    have prunesRest : ∀ faults ∈ rest, faults.Prunes :=
      fun other member => prunes other (List.mem_cons_of_mem _ member)
    have pruned : faults.Prunes := prunes faults List.mem_cons_self
    have whole := attempt_none_through nowMs waits isAnchored
    rw [retrySafe_cons, Spared]
    cases stops : faults.stops state.attached with
    | true =>
      obtain ⟨e, after, failed, waits', isAnchored', attached⟩ :=
        attempt_stopped nowMs waits isAnchored stops
      rw [if_pos rfl, ← attached, ← ih prunesRest waits' isAnchored']
      refine forall₂_congr fun done _ => ?_
      rw [retry, failed, whole, attempt_none_through nowMs waits' isAnchored']
    | false =>
      rw [if_neg (by simp)]
      have through := attempt_through nowMs waits isAnchored stops
      constructor
      · intro safe failing fails
        by_contra fewer
        obtain ⟨after, cut, engine⟩ :=
          finish_cut pruned publishes fails (Nat.lt_of_not_le fewer)
        -- The reference is gone, so that the next attempt is refused.
        have unpending : after.pendingCommit = none := by
          rw [engine]
          exact cut_unpending laws sound rfl failing
        have refused := safe [] List.nil_prefix
        rw [retry, through, cut, whole] at refused
        dsimp only at refused
        rw [retry, attempt, unpending] at refused
        rw [← refused] at confirms
        cases confirms
      · intro spared _ _
        rw [retry, through, whole, finish_spared pruned publishes spared]
        rcases outcome : anchor.finish net nowMs .none pending with ⟨_ | _, _⟩
        · rw [outcome] at confirms
          cases confirms
        · rfl

end Confirming

end Leaves

section Results

variable {net : Ingress Group} {nowMs : Nat} {transport : String → Prop} {state : Confirming Group}
  {after : Engine Group} {event : GroupEvent} {schedule : List ConfirmFaults}

/-- **When attempts are safe.** The attempt that takes the reference must take in what was put aside
without a failure: its failure is reported when the reference is gone. -/
theorem retry_safe_iff (laws : net.Laws) (sound : state.toEngine.SoundSession net transport)
    (attached : state.attached = true)
    (isConfirmed : confirmPublished net state.toEngine = some after)
    (confirms : (state.attempt net nowMs .none).1 = .ok event)
    (prunes : ∀ faults ∈ schedule, faults.Prunes) :
    state.RetrySafe net nowMs schedule ↔
      Spared (Confirming.replayCalls net nowMs after) true schedule := by
  obtain ⟨pending, epoch, anchor, waits, isAnchored, publishes, rfl⟩ :=
    Confirming.anchored_of_confirmed attached isConfirmed
  rw [Confirming.attempt_none_through nowMs waits isAnchored] at confirms
  rw [← attached]
  exact Confirming.retrySafe_iff_spared laws publishes (sound.confirmed laws isConfirmed) confirms
    prunes waits isAnchored

end Results

/-! ### A confirmation that is lost -/

/-- A commit of the client is staged and sent. -/
def stagedSymbolic : Confirming SymbolicGroup :=
  { (symbolicEngine [9]).session (symbolicIngress [9]) [stageSymbolicCommit "own" 9 []] with
    attached := true
    pendingStateChanges := [(none, .groupAvatarChanged)]
    stateChangeEvents := [] }

theorem staged_attempt_eq_task :
    (stagedSymbolic.attempt (symbolicIngress [9]) 0 .none).2.toEngine =
      ((doConfirmPublished (symbolicIngress [9]) 0).program.run (perform (symbolicMls [9]))
        stagedSymbolic.toEngine).2 := by
  have merges : (confirmPublished (symbolicMls [9]) stagedSymbolic.toEngine).isSome := by
    decide +kernel
  obtain ⟨_, isConfirmed⟩ := isSome_iff_exists.mp merges
  exact congrArg Prod.snd (@Confirming.attempt_eq_task _ (symbolicIngress [9]) 0 stagedSymbolic _
    rfl isConfirmed)

/-- The list of the messages that were put aside cannot be read. -/
def unreadable : ConfirmFaults :=
  { ConfirmFaults.none with replay := some 0 }

/-- The confirmation fails after the group has moved, and the reference is not known any more when it
is tried again. -/
theorem confirmation_lost :
    (stagedSymbolic.attempt (symbolicIngress [9]) 0 .none).1 = .ok (.epochChanged 0 1) ∧
      (stagedSymbolic.attempt (symbolicIngress [9]) 0 unreadable).1 = .error .storage ∧
      ((stagedSymbolic.attempt (symbolicIngress [9]) 0 unreadable).2.attempt (symbolicIngress [9]) 0
        .none).1 = .error .unknownPending :=
  ⟨by decide +kernel, by decide +kernel, by decide +kernel⟩

/-- Attempts that fail at every call before the reference is taken. -/
def earlyFailures : List ConfirmFaults :=
  [{ ConfirmFaults.none with load := true },
    { ConfirmFaults.none with retainBefore := some (.late fun _ => true) },
    { ConfirmFaults.none with transaction := true },
    { ConfirmFaults.none with retainAfter := some .early }]

theorem early_failures_safe :
    (stagedSymbolic.attempt (symbolicIngress [9]) 0 .none).1 = .ok (.epochChanged 0 1) ∧
      stagedSymbolic.RetrySafe (symbolicIngress [9]) 0 earlyFailures := by
  have confirms : (stagedSymbolic.attempt (symbolicIngress [9]) 0 .none).1 =
      .ok (.epochChanged 0 1) := by decide +kernel
  have merges : (confirmPublished (symbolicMls [9]) stagedSymbolic.toEngine).isSome := by
    decide +kernel
  obtain ⟨after, isConfirmed⟩ := isSome_iff_exists.mp merges
  have sound : stagedSymbolic.toEngine.SoundSession (symbolicIngress [9]) fun _ => True :=
    (session_sound (symbolicEngine_soundSession [9] fun _ => True) (symbolicIngress_laws [9])
      fun step _ => step.names_any).2
  refine ⟨confirms, (retry_safe_iff (symbolicIngress_laws [9]) sound rfl isConfirmed confirms
    ?_).mpr trivial⟩
  simp [earlyFailures, Prunes, ConfirmFaults.none]

end Darkmatter
