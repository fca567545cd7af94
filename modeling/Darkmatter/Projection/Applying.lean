/-
**Applying a decision, call by call.**

`applyOpenmlsCanonicalizationResult` reads its input, guards the live group with a snapshot,
prepares it (retains the current epoch, or rolls back to an anchor), replays and writes the
dispositions in one transaction, and then releases the guard and retains the new epoch. Any storage
call may fail, once.

* `ApplyCall` — the storage calls by their place in the code;
* `Applier.applyOpenmlsCanonicalizationResult` — the code, on a storage one of whose calls fails;
* `ApplyCall.isLate` — the calls after the transaction, and the rollback of the guard itself;
* `apply_atomic_iff` — **applying is atomic exactly when the call that fails is none of these**: the
  calls after the transaction report a failure of what was done (`late_failure_reported`).
-/

import Darkmatter.Lib.Checks
import Darkmatter.Projection.Probing

namespace Darkmatter

open Std Lib List Function Prod Option

/-! ### Calls that fail -/

/-- The calls of `retain_current_group_epoch_snapshot`. -/
inductive RetainCall
  | getGroup
  | createAnchor
  | listSnapshots
  | releaseAnchor (epoch : Nat)
deriving DecidableEq, Repr

/-- **The storage calls of an apply**, by their place in the code. A call inside the transaction
fails the transaction. -/
inductive ApplyCall
  | getMessage (id : String)
  | getGroup
  | listMessages
  | listQueuedOutboundIntents
  | getFirstCommit
  | createGuard
  | prepare (call : RetainCall)
  | rollbackToAnchor
  | putMessage (id : String)
  | putQueuedOutboundIntent (id : String)
  | transaction
  | releaseGuard
  | retain (call : RetainCall)
  | rollbackGuard
  | releaseRolledBack
deriving DecidableEq, Repr

/-- A storage with the call that is going to fail. -/
structure FaultyStorage (Group : Type) where
  storage : GuardedStorage Group
  fault : Option ApplyCall

namespace FaultyStorage

variable {Group α : Type}

/-- A storage call: it fails once, without effect, if it is the one that is going to fail. -/
def call (site : ApplyCall) (x : StateM (GuardedStorage Group) (Except GuardError α)) :
    StateM (FaultyStorage Group) (Except GuardError α) := fun state =>
  if state.fault = some site then
    (.error .backend, { state with fault := none })
  else
    ((x state.storage).1, { state with storage := (x state.storage).2 })

end FaultyStorage

variable {Group : Type} (epoch : Nat)

namespace GuardedStorage

def getMessage (id : String) :
    StateM (GuardedStorage Group) (Except GuardError MessageRecord) := fun storage =>
  match Darkmatter.getMessage storage.live.messages id with
  | none => (.error .notFound, storage)
  | some record => (.ok record, storage)

def read {α : Type} (part : GroupSnapshot Group → α) :
    StateM (GuardedStorage Group) (Except GuardError α) := fun storage =>
  (.ok (part storage.live), storage)

def write (change : GroupSnapshot Group → GroupSnapshot Group) :
    StateM (GuardedStorage Group) (Except GuardError Unit) := fun storage =>
  (.ok (), { storage with live := change storage.live })

/-- The retained anchors below an epoch, in the order of their names. -/
def listAnchorsBelow :
    StateM (GuardedStorage Group) (Except GuardError (List Nat)) := fun storage =>
  (.ok (sortBy (compareOn toString) ((range epoch).filter fun anchor =>
    (storage.snapshots (.stored (.retainedAnchor anchor))).isSome)), storage)

end GuardedStorage

/-! ### The apply -/

/-- What an apply rests on: OpenMLS, and the hash its guard is named after. -/
structure Applier (Group : Type) where
  mls : OpenMls Group
  applyHash : CanonicalizationResult → Bytes

/-- What an apply reads before it changes anything. -/
structure ApplyInput where
  replayMessages : List TransportMessage
  currentEpoch : Nat
  liveMessageRecords : List MessageRecord
  liveQueuedOutbound : List QueuedOutboundIntent
  applyStartEpoch : Nat
deriving DecidableEq, Repr

namespace Applier

open FaultyStorage GuardedStorage

/-- The accepted messages to replay, each once. -/
def replayMessagesForCanonicalizationResult (seen : List String) : List String →
    StateM (FaultyStorage Group) (Except OpenMlsProjectionError (List TransportMessage))
  | [] => return .ok []
  | id :: rest =>
    if id ∈ seen then
      replayMessagesForCanonicalizationResult seen rest
    else do
      match ← call (.getMessage id) (GuardedStorage.getMessage id) with
      | .error _ => return .error .storage
      | .ok record =>
        match record.payload with
        | .rawTransport _ => return .error .decode
        | .openmlsWire message =>
          match ← replayMessagesForCanonicalizationResult (id :: seen) rest with
          | .error e => return .error e
          | .ok messages => return .ok (message :: messages)

variable (result : CanonicalizationResult)

/-- The epoch of the first accepted commit. -/
def applyStartEpochForCanonicalizationResult :
    StateM (FaultyStorage Group) (Except OpenMlsProjectionError (Option Nat)) :=
  match result.acceptedCommits with
  | [] => return .ok none
  | first :: _ => do
    match ← call .getFirstCommit (GuardedStorage.getMessage first) with
    | .error _ => return .error .storage
    | .ok record => return .ok (some record.epoch)

/-- The reads at the beginning of an apply. -/
def readInput :
    StateM (FaultyStorage Group) (Except OpenMlsProjectionError ApplyInput) := do
  match ← replayMessagesForCanonicalizationResult [] result.replayIds with
  | .error e => return .error e
  | .ok replayMessages =>
    match ← call .getGroup (read GroupSnapshot.epoch) with
    | .error _ => return .error .storage
    | .ok currentEpoch =>
      match ← call .listMessages (read GroupSnapshot.messages) with
      | .error _ => return .error .storage
      | .ok liveMessageRecords =>
        match ← call .listQueuedOutboundIntents (read GroupSnapshot.queue) with
        | .error _ => return .error .storage
        | .ok liveQueuedOutbound =>
          match ← applyStartEpochForCanonicalizationResult result with
          | .error e => return .error e
          | .ok applyStartEpoch =>
            return .ok
              { replayMessages
                currentEpoch
                liveMessageRecords
                liveQueuedOutbound
                applyStartEpoch := applyStartEpoch.getD currentEpoch }

/-- Old anchors released; one that is gone already is fine. -/
def releaseAnchors (site : RetainCall → ApplyCall) : List Nat →
    StateM (FaultyStorage Group) (Except OpenMlsProjectionError Unit)
  | [] => return .ok ()
  | epoch :: rest => do
    match ← call (site (.releaseAnchor epoch))
        (releaseGroupSnapshot (.stored (.retainedAnchor epoch))) with
    | .ok () | .error .snapshotMissing => releaseAnchors site rest
    | .error _ => return .error .snapshot

def retainCurrentGroupEpochSnapshot (site : RetainCall → ApplyCall)
    (maxRetainedAnchorRewind : Nat) :
    StateM (FaultyStorage Group) (Except OpenMlsProjectionError Unit) := do
  match ← call (site .getGroup) (read GroupSnapshot.epoch) with
  | .error _ => return .error .storage
  | .ok epoch =>
    match ← call (site .createAnchor) (createGroupSnapshot (.stored (.retainedAnchor epoch))) with
    | .error _ => return .error .snapshot
    | .ok () =>
      match ← call (site .listSnapshots) (listAnchorsBelow (epoch - maxRetainedAnchorRewind)) with
      | .error _ => return .error .storage
      | .ok old => releaseAnchors site old

def restoreMessages : List MessageRecord →
    StateM (FaultyStorage Group) (Except OpenMlsProjectionError Unit)
  | [] => return .ok ()
  | record :: rest => do
    match ← call (.putMessage record.id) (write fun live =>
        { live with messages := putMessage live.messages record }) with
    | .error _ => return .error .storage
    | .ok () => restoreMessages rest

def restoreQueued : List QueuedOutboundIntent →
    StateM (FaultyStorage Group) (Except OpenMlsProjectionError Unit)
  | [] => return .ok ()
  | queued :: rest => do
    match ← call (.putQueuedOutboundIntent queued.id) (write fun live =>
        { live with queue := putQueuedOutboundIntent live.queue queued }) with
    | .error _ => return .error .storage
    | .ok () => restoreQueued rest

def restoreLiveMessageAndQueueRecords (input : ApplyInput) :
    StateM (FaultyStorage Group) (Except OpenMlsProjectionError Unit) := do
  match ← restoreMessages input.liveMessageRecords with
  | .error e => return .error e
  | .ok () => restoreQueued input.liveQueuedOutbound

/-- The group prepared for the replay. -/
def prepare (input : ApplyInput) (maxRetainedAnchorRewind : Nat) :
    StateM (FaultyStorage Group) (Except OpenMlsProjectionError Unit) :=
  if result.acceptedCommits ≠ [] ∧ input.applyStartEpoch = input.currentEpoch then
    retainCurrentGroupEpochSnapshot .prepare maxRetainedAnchorRewind
  else if input.applyStartEpoch < input.currentEpoch then do
    match ← call .rollbackToAnchor
        (rollbackGroupToSnapshot (.stored (.retainedAnchor input.applyStartEpoch))) with
    | .error _ => return .error .snapshot
    | .ok () => restoreLiveMessageAndQueueRecords input
  else
    return .ok ()

def rollbackAndReleaseGroupSnapshot (guard : GuardName) :
    StateM (FaultyStorage Group) (Except OpenMlsProjectionError Unit) := do
  match ← call .rollbackGuard (rollbackGroupToSnapshot guard) with
  | .error _ => return .error .snapshot
  | .ok () =>
    match ← call .releaseRolledBack (releaseGroupSnapshot guard) with
    | .error _ => return .error .snapshot
    | .ok () => return .ok ()

variable (applier : Applier Group) (result : CanonicalizationResult)

/-- The replay and the dispositions, in one transaction. -/
def applyOpenmlsCanonicalizationResultInner (replayMessages : List TransportMessage) :
    StateM (FaultyStorage Group)
      (Except OpenMlsProjectionError (List OpenMlsReplayObservation)) := fun state =>
  if state.fault = some .transaction then
    (.error .storage, { state with fault := none })
  else
    match applier.mls.applyOpenmlsCanonicalizationResultInner state.storage.live result
        replayMessages with
    | .error e => (.error e, state)
    | .ok (observations, live) =>
      (.ok observations, { state with storage := { state.storage with live } })

variable (maxRetainedAnchorRewind : Nat)

/-- What follows the transaction. -/
def finish (guard : GuardName) (observations : List OpenMlsReplayObservation) :
    StateM (FaultyStorage Group)
      (Except OpenMlsProjectionError (List OpenMlsReplayObservation)) := do
  match ← call .releaseGuard (releaseGroupSnapshot guard) with
  | .error _ => return .error .snapshot
  | .ok () =>
    if result.selectedTip.isSome then
      match ← retainCurrentGroupEpochSnapshot .retain maxRetainedAnchorRewind with
      | .error e => return .error e
      | .ok () => return .ok observations
    else
      return .ok observations

/-- A failure under the guard: the group is rolled back, and the failure is reported. -/
def giveUp (guard : GuardName) (error : OpenMlsProjectionError) :
    StateM (FaultyStorage Group)
      (Except OpenMlsProjectionError (List OpenMlsReplayObservation)) := do
  match ← rollbackAndReleaseGroupSnapshot guard with
  | .error e => return .error e
  | .ok () => return .error error

/-- The apply under its guard. -/
def applyUnderGuard (guard : GuardName) (input : ApplyInput) :
    StateM (FaultyStorage Group)
      (Except OpenMlsProjectionError (List OpenMlsReplayObservation)) := do
  match ← prepare result input maxRetainedAnchorRewind with
  | .error e => giveUp guard e
  | .ok () =>
    match ← applier.applyOpenmlsCanonicalizationResultInner result input.replayMessages with
    | .ok observations => finish result maxRetainedAnchorRewind guard observations
    | .error e => giveUp guard e

/-- **A decision applied, call by call.** -/
def applyOpenmlsCanonicalizationResult :
    StateM (FaultyStorage Group)
      (Except OpenMlsProjectionError (List OpenMlsReplayObservation)) := do
  match ← readInput result with
  | .error e => return .error e
  | .ok input =>
    let guard := GuardName.apply (applier.applyHash result)
    match ← call .createGuard (createGroupSnapshot guard) with
    | .error _ => return .error .snapshot
    | .ok () => applier.applyUnderGuard result maxRetainedAnchorRewind guard input

end Applier

/-! ### What the stages change -/

variable {input : ApplyInput}

section Stages

open FaultyStorage GuardedStorage Applier

variable {Group α : Type}

/-- A part of the storage is as it was, and the fault is still to come or over. -/
def FaultyStorage.Keeping {β : Type} (part : GuardedStorage Group → β)
    (state after : FaultyStorage Group) : Prop :=
  part after.storage = part state.storage ∧ (after.fault = state.fault ∨ after.fault = none)

variable {β : Type} {part : GuardedStorage Group → β}
  {x : StateM (GuardedStorage Group) (Except GuardError α)} {site : ApplyCall}
  {state : FaultyStorage Group} {result : CanonicalizationResult} {id : String}
  {records updated : List MessageRecord}

theorem keeps_part (part : GuardedStorage Group → β) : Keeps (fun _ => True) (Keeping part) where
  refl := fun _ => ⟨rfl, Or.inl rfl⟩
  trans := by
    rintro a b c ⟨first, fault⟩ ⟨second, fault'⟩
    refine ⟨second.trans first, ?_⟩
    rcases fault' with same | gone
    · rw [same]
      exact fault
    · exact Or.inr gone
  ready := fun _ _ => trivial

theorem moves_call (site : ApplyCall) (each : ∀ storage, part (x storage).2 = part storage) :
    Moves (Keeping part) (call site x) := by
  intro state
  rw [call]
  split
  · exact ⟨rfl, Or.inr rfl⟩
  · exact ⟨each state.storage, Or.inl rfl⟩

theorem call_eq (works : state.fault ≠ some site) :
    call site x state = ((x state.storage).1, { state with storage := (x state.storage).2 }) :=
  if_neg works

theorem call_ok {value : α} (returns : (call site x state).1 = .ok value) :
    (x state.storage).1 = .ok value ∧
      (call site x state).2 = { state with storage := (x state.storage).2 } := by
  by_cases fails : state.fault = some site
  · rw [call, if_pos fails] at returns
    cases returns
  · rw [call_eq fails] at returns ⊢
    exact ⟨returns, rfl⟩

/-! #### Reading -/

def GuardedStorage.whole (storage : GuardedStorage Group) : GuardedStorage Group := storage

theorem getMessage_unchanged (id : String) (storage : GuardedStorage Group) :
    (GuardedStorage.getMessage id storage).2 = storage := by
  rw [GuardedStorage.getMessage]
  split <;> rfl

theorem moves_replayMessages (seen ids : List String) :
    Moves (Keeping (@whole Group)) (Applier.replayMessagesForCanonicalizationResult seen ids) := by
  have keeps := keeps_part (@whole Group)
  induction ids generalizing seen with
  | nil => exact .pure keeps _
  | cons id rest ih =>
    rw [Applier.replayMessagesForCanonicalizationResult]
    split
    · exact ih seen
    · refine .bind keeps (moves_call _ (getMessage_unchanged id)) ?_
      rintro (_ | record)
      · exact .pure keeps _
      · dsimp only
        cases record.payload with
        | rawTransport => exact .pure keeps _
        | openmlsWire =>
          refine .bind keeps (ih (id :: seen)) ?_
          rintro (_ | _) <;> exact .pure keeps _

theorem moves_startEpoch (result : CanonicalizationResult) :
    Moves (Keeping (@whole Group)) (Applier.applyStartEpochForCanonicalizationResult result) := by
  have keeps := keeps_part (@whole Group)
  rw [Applier.applyStartEpochForCanonicalizationResult]
  split
  · exact .pure keeps _
  · refine .bind keeps (moves_call _ (getMessage_unchanged _)) ?_
    rintro (_ | _) <;> exact .pure keeps _

/-- **Reading the input changes nothing.** -/
theorem moves_readInput (result : CanonicalizationResult) :
    Moves (Keeping (@whole Group)) (readInput result) := by
  have keeps := keeps_part (@whole Group)
  refine .bind keeps (moves_replayMessages _ _) ?_
  rintro (_ | _)
  · exact .pure keeps _
  refine .bind keeps (moves_call _ fun _ => rfl) ?_
  rintro (_ | _)
  · exact .pure keeps _
  refine .bind keeps (moves_call _ fun _ => rfl) ?_
  rintro (_ | _)
  · exact .pure keeps _
  refine .bind keeps (moves_call _ fun _ => rfl) ?_
  rintro (_ | _)
  · exact .pure keeps _
  refine .bind keeps (moves_startEpoch result) ?_
  rintro (_ | _) <;> exact .pure keeps _

/-! #### Anchors -/

def GuardedStorage.guards (storage : GuardedStorage Group) (hash : Bytes) :
    Option (GroupSnapshot Group) :=
  storage.snapshots (.apply hash)

theorem guards_update (storage : GuardedStorage Group) (name : SnapshotName)
    (value : Option (GroupSnapshot Group)) :
    GuardedStorage.guards ⟨storage.live, update storage.snapshots (.stored name) value⟩ =
      storage.guards := by
  funext hash
  simp [guards]

def GuardedStorage.liveAndGuards (storage : GuardedStorage Group) :
    GroupSnapshot Group × (Bytes → Option (GroupSnapshot Group)) :=
  (storage.live, storage.guards)

theorem releaseAnchor_keeps (name : SnapshotName) (storage : GuardedStorage Group) :
    (releaseGroupSnapshot (.stored name) storage).2.liveAndGuards = storage.liveAndGuards := by
  rw [releaseGroupSnapshot]
  split
  · rfl
  · exact congrArg (Prod.mk storage.live) (guards_update storage name none)

theorem moves_releaseAnchors (site : RetainCall → ApplyCall) (epochs : List Nat) :
    Moves (Keeping (@liveAndGuards Group)) (releaseAnchors site epochs) := by
  have keeps := keeps_part (@liveAndGuards Group)
  induction epochs with
  | nil => exact .pure keeps _
  | cons epoch rest ih =>
    refine .bind keeps (moves_call _ (releaseAnchor_keeps _)) ?_
    rintro ((_ | _ | _) | _)
    · exact .pure keeps _
    · exact ih
    · exact .pure keeps _
    · exact ih

/-- **Retaining an epoch leaves the live group and the guard.** -/
theorem moves_retain (site : RetainCall → ApplyCall) (rewind : Nat) :
    Moves (Keeping (@liveAndGuards Group)) (retainCurrentGroupEpochSnapshot site rewind) := by
  have keeps := keeps_part (@liveAndGuards Group)
  refine .bind keeps (moves_call _ fun _ => rfl) ?_
  rintro (_ | _)
  · exact .pure keeps _
  refine .bind keeps (moves_call _ fun storage =>
    congrArg (Prod.mk storage.live) (guards_update storage _ _)) ?_
  rintro (_ | _)
  · exact .pure keeps _
  refine .bind keeps (moves_call _ fun _ => rfl) ?_
  rintro (_ | _)
  · exact .pure keeps _
  · exact moves_releaseAnchors site _

/-! #### Preparing -/

def GuardedStorage.mlsAndGuards (storage : GuardedStorage Group) :
    Group × (Bytes → Option (GroupSnapshot Group)) :=
  (storage.live.mls, storage.guards)

theorem moves_restoreMessages (records : List MessageRecord) :
    Moves (Keeping (@mlsAndGuards Group)) (restoreMessages records) := by
  have keeps := keeps_part (@mlsAndGuards Group)
  induction records with
  | nil => exact .pure keeps _
  | cons record rest ih =>
    refine .bind keeps (moves_call _ fun _ => rfl) ?_
    rintro (_ | _)
    · exact .pure keeps _
    · exact ih

theorem moves_restoreQueued (queue : List QueuedOutboundIntent) :
    Moves (Keeping (@mlsAndGuards Group)) (restoreQueued queue) := by
  have keeps := keeps_part (@mlsAndGuards Group)
  induction queue with
  | nil => exact .pure keeps _
  | cons queued rest ih =>
    refine .bind keeps (moves_call _ fun _ => rfl) ?_
    rintro (_ | _)
    · exact .pure keeps _
    · exact ih

theorem moves_restore (input : ApplyInput) :
    Moves (Keeping (@mlsAndGuards Group)) (restoreLiveMessageAndQueueRecords input) := by
  have keeps := keeps_part (@mlsAndGuards Group)
  refine .bind keeps (moves_restoreMessages _) ?_
  rintro (_ | _)
  · exact .pure keeps _
  · exact moves_restoreQueued _

theorem moves_prepare (result : CanonicalizationResult) (input : ApplyInput) (rewind : Nat) :
    Moves (Keeping (@guards Group)) (prepare result input rewind) := by
  have keeps := keeps_part (@guards Group)
  rw [prepare]
  split
  · intro state
    obtain ⟨same, fault⟩ := @moves_retain Group .prepare rewind state
    exact ⟨congrArg snd same, fault⟩
  · split
    · refine .bind keeps (moves_call _ fun storage => ?_) ?_
      · rw [rollbackGroupToSnapshot]
        split <;> rfl
      · rintro (_ | _)
        · exact .pure keeps _
        · intro state
          obtain ⟨same, fault⟩ := @moves_restore Group input state
          exact ⟨congrArg snd same, fault⟩
    · exact .pure keeps _

/-- The MLS state a decision is replayed on. -/
def GuardedStorage.startGroup (storage : GuardedStorage Group) (startEpoch : Nat) : Option Group :=
  if startEpoch < storage.live.epoch then
    (storage.snapshots (.stored (.retainedAnchor startEpoch))).map GroupSnapshot.mls
  else
    some storage.live.mls

/-- **A prepared group** is in the state the decision is replayed on. -/
theorem prepare_ok {rewind : Nat} (current : input.currentEpoch = state.storage.live.epoch)
    (prepared : (prepare result input rewind state).1 = .ok ()) :
    state.storage.startGroup input.applyStartEpoch =
      some (prepare result input rewind state).2.storage.live.mls := by
  rw [startGroup, ← current]
  rw [prepare] at prepared ⊢
  split at prepared
  · rename_i here
    rw [if_neg (by omega), if_pos here]
    have same := (@moves_retain Group .prepare rewind state).1
    exact congrArg (fun pair => some pair.1.mls) same.symm
  · rename_i elsewhere
    rw [if_neg elsewhere]
    split at prepared
    · rename_i past
      rw [if_pos past, if_pos past]
      simp only [bind, StateT.bind] at prepared ⊢
      rcases called : call .rollbackToAnchor (rollbackGroupToSnapshot
        (.stored (.retainedAnchor input.applyStartEpoch))) state with ⟨_ | _, after⟩
      · rw [called] at prepared
        cases prepared
      · obtain ⟨returns, moved⟩ := call_ok (congrArg fst called)
        rw [called] at moved
        have same := (@moves_restore Group input after).1
        refine Eq.trans ?_ (congrArg (some ∘ fst) same.symm)
        dsimp only at moved
        rw [moved]
        rw [rollbackGroupToSnapshot] at returns ⊢
        split at returns
        · cases returns
        · rename_i anchor found
          rw [found]
          rfl
    · rename_i present
      rw [if_neg present, if_neg present]
      rfl

/-! #### The input -/

theorem getMessage_ok {storage : GuardedStorage Group} {record : MessageRecord}
    (returns : (GuardedStorage.getMessage id storage).1 = .ok record) :
    getMessage storage.live.messages id = some record := by
  rw [GuardedStorage.getMessage] at returns
  split at returns
  · cases returns
  · rename_i stored found
    cases returns
    exact found

theorem replayMessages_ok {seen ids : List String} {messages : List TransportMessage}
    (returns : (Applier.replayMessagesForCanonicalizationResult seen ids state).1 = .ok messages) :
    Darkmatter.replayMessagesForCanonicalizationResult state.storage.live.messages seen ids =
      .ok messages := by
  induction ids generalizing seen state messages with
  | nil =>
    cases returns
    rfl
  | cons id rest ih =>
    rw [Applier.replayMessagesForCanonicalizationResult] at returns
    rw [Darkmatter.replayMessagesForCanonicalizationResult]
    by_cases again : id ∈ seen
    · rw [if_pos again] at returns ⊢
      exact ih returns
    · rw [if_neg again] at returns ⊢
      obtain ⟨record, called, returns⟩ := returned_of_bind (fun _ _ => ⟨_, rfl⟩) returns
      obtain ⟨found, moved⟩ := call_ok called
      have same : (call (.getMessage id) (GuardedStorage.getMessage id) state).2.storage =
          state.storage := by
        rw [moved]
        exact getMessage_unchanged id state.storage
      rw [getMessage_ok found]
      dsimp only at returns ⊢
      cases payload : record.payload with
      | rawTransport =>
        rw [payload] at returns
        cases returns
      | openmlsWire =>
        rw [payload] at returns
        obtain ⟨_, later, returns⟩ := returned_of_bind (fun _ _ => ⟨_, rfl⟩) returns
        cases returns
        have rows := ih later
        rw [same] at rows
        simp only [rows]

theorem startEpoch_ok {start : Option Nat}
    (returns : (Applier.applyStartEpochForCanonicalizationResult result state).1 = .ok start) :
    Darkmatter.applyStartEpochForCanonicalizationResult state.storage.live.messages result =
      .ok start := by
  rw [Applier.applyStartEpochForCanonicalizationResult] at returns
  rw [Darkmatter.applyStartEpochForCanonicalizationResult]
  cases commits : result.acceptedCommits with
  | nil =>
    rw [commits] at returns
    cases returns
    rfl
  | cons =>
    rw [commits] at returns
    obtain ⟨_, called, returns⟩ := returned_of_bind (fun _ _ => ⟨_, rfl⟩) returns
    cases returns
    simp only [getMessage_ok (call_ok called).1]

/-- **What an apply reads.** -/
theorem readInput_ok (returns : (readInput result state).1 = .ok input) :
    Darkmatter.replayMessagesForCanonicalizationResult state.storage.live.messages []
        result.replayIds = .ok input.replayMessages ∧
      input.currentEpoch = state.storage.live.epoch ∧
      ∃ start, Darkmatter.applyStartEpochForCanonicalizationResult state.storage.live.messages
          result = .ok start ∧ input.applyStartEpoch = start.getD state.storage.live.epoch := by
  have same := (@moves_replayMessages Group [] result.replayIds state).1
  rw [whole, whole] at same
  obtain ⟨_, first, returns⟩ := returned_of_bind (fun _ _ => ⟨_, rfl⟩) returns
  obtain ⟨_, second, returns⟩ := returned_of_bind (fun _ _ => ⟨_, rfl⟩) returns
  obtain ⟨isEpoch, moved⟩ := call_ok second
  rw [moved] at returns
  obtain ⟨_, third, returns⟩ := returned_of_bind (fun _ _ => ⟨_, rfl⟩) returns
  rw [(call_ok third).2] at returns
  obtain ⟨_, fourth, returns⟩ := returned_of_bind (fun _ _ => ⟨_, rfl⟩) returns
  rw [(call_ok fourth).2] at returns
  obtain ⟨start, fifth, returns⟩ := returned_of_bind (fun _ _ => ⟨_, rfl⟩) returns
  cases isEpoch
  cases returns
  refine ⟨replayMessages_ok first, by rw [same], start, ?_, by rw [same]⟩
  simpa only [GuardedStorage.read, same] using startEpoch_ok fifth

/-! #### After the replay -/

theorem call_release_live (site : ApplyCall) (name : GuardName) (state : FaultyStorage Group) :
    (call site (releaseGroupSnapshot name) state).2.storage.live = state.storage.live := by
  by_cases fails : state.fault = some site
  · rw [call, if_pos fails]
  · rw [call_eq fails, releaseGroupSnapshot]
    cases state.storage.snapshots name <;> rfl

/-- **Giving up brings the live group back**, unless the rollback itself fails. -/
theorem giveUp_live {guard : GuardName} {live : GroupSnapshot Group}
    (error : OpenMlsProjectionError) (guarded : state.storage.snapshots guard = some live)
    (works : state.fault ≠ some .rollbackGuard) :
    (∃ e, (giveUp guard error state).1 = .error e) ∧
      (giveUp guard error state).2.storage.live = live := by
  have rolled : rollbackGroupToSnapshot guard state.storage =
      (.ok (), { state.storage with live }) := by
    rw [rollbackGroupToSnapshot, guarded]
  have kept := call_release_live .releaseRolledBack guard
    { state with storage := { state.storage with live } }
  simp only [giveUp, rollbackAndReleaseGroupSnapshot, bind, StateT.bind, call_eq works, rolled]
  rcases called : call .releaseRolledBack (releaseGroupSnapshot guard)
    { state with storage := { state.storage with live } } with ⟨_ | _, after⟩ <;>
  · rw [called] at kept
    exact ⟨⟨_, rfl⟩, kept⟩

variable {site : RetainCall → ApplyCall}

theorem releaseAnchors_ok (epochs : List Nat) (works : ∀ call, state.fault ≠ some (site call)) :
    (releaseAnchors site epochs state).1 = .ok () := by
  induction epochs generalizing state with
  | nil => rfl
  | cons epoch rest ih =>
    simp only [releaseAnchors, bind, StateT.bind, call_eq (works _)]
    rw [releaseGroupSnapshot]
    cases state.storage.snapshots (.stored (.retainedAnchor epoch)) with
    | none => exact ih works
    | some => exact @ih { state with storage := _ } works

theorem retain_ok (rewind : Nat) {state : FaultyStorage Group}
    (works : ∀ call, state.fault ≠ some (site call)) :
    (retainCurrentGroupEpochSnapshot site rewind state).1 = .ok () := by
  obtain ⟨storage, fault⟩ := state
  have each : ∀ {β : Type} (name : RetainCall)
      (x : StateM (GuardedStorage Group) (Except GuardError β)) (storage : GuardedStorage Group),
      call (site name) x ⟨storage, fault⟩ = ((x storage).1, ⟨(x storage).2, fault⟩) :=
    fun name _ _ => call_eq (works name)
  simp only [retainCurrentGroupEpochSnapshot, bind, StateT.bind, each, GuardedStorage.read,
    createGroupSnapshot, listAnchorsBelow]
  exact releaseAnchors_ok _ works

theorem finish_live {result : CanonicalizationResult} {rewind : Nat} {guard : GuardName}
    (observations : List OpenMlsReplayObservation) (state : FaultyStorage Group) :
    (finish result rewind guard observations state).2.storage.live = state.storage.live := by
  have released := call_release_live .releaseGuard guard state
  rw [finish, run_bind]
  generalize call .releaseGuard (releaseGroupSnapshot guard) state = called at released ⊢
  obtain ⟨_ | _, after⟩ := called
  · exact released
  · dsimp only
    split
    · have kept := congrArg fst (@moves_retain Group .retain rewind after).1
      rw [run_bind]
      cases (retainCurrentGroupEpochSnapshot ApplyCall.retain rewind after).1 <;>
        exact kept.trans released
    · exact released

/-- **After the transaction nothing goes wrong** unless one of the calls that follow it fails. -/
theorem finish_ok {result : CanonicalizationResult} {rewind : Nat} {guard : GuardName}
    {live : GroupSnapshot Group} {state : FaultyStorage Group}
    (observations : List OpenMlsReplayObservation)
    (guarded : state.storage.snapshots guard = some live)
    (released : state.fault ≠ some .releaseGuard)
    (retained : ∀ call, state.fault ≠ some (.retain call)) :
    (finish result rewind guard observations state).1 = .ok observations := by
  have release : (releaseGroupSnapshot guard state.storage).1 = .ok () := by
    rw [releaseGroupSnapshot, guarded]
  rw [finish, run_bind, call_eq released]
  dsimp only
  rw [release]
  dsimp only
  split
  · rw [run_bind, retain_ok rewind (by exact retained)]
    rfl
  · rfl

/-! #### Dispositions -/

theorem getMessage_update {state : MessageState}
    (written : updateMessageState records id state = some updated) (other : String) :
    (getMessage updated other).map MessageRecord.state =
      if other = id then some state else (getMessage records other).map MessageRecord.state := by
  induction records generalizing updated with
  | nil => cases written
  | cons record rest ih =>
    rw [updateMessageState] at written
    split_ifs at written with here
    · cases written
      by_cases same : other = id
      · simp [getMessage, same, here]
      · have differs : ¬ record.id = other := fun equal => same (equal.symm.trans here)
        simp [getMessage, same, differs]
    · obtain ⟨_, later, rfl⟩ := map_eq_some_iff.mp written
      by_cases mine : record.id = other
      · have differs : other ≠ id := fun equal => here (mine.trans equal)
        simp [getMessage, mine, differs]
      · have below := ih later
        simpa [getMessage, mine] using below

theorem getMessage_written {step : List MessageRecord → String × MessageState →
      Except OpenMlsProjectionError (List MessageRecord)}
    (writes : ∀ records entry updated, step records entry = .ok updated →
      updateMessageState records entry.1 entry.2 = some updated)
    {entries : List (String × MessageState)} (written : entries.foldlM step records = .ok updated)
    {final : MessageState} (named : ∀ entry ∈ entries, id = entry.1 → entry.2 = final)
    (last : (getMessage records id).map MessageRecord.state = some final ∨
      ∃ entry ∈ entries, id = entry.1) :
    (getMessage updated id).map MessageRecord.state = some final := by
  induction entries generalizing records with
  | nil =>
    cases written
    rcases last with same | ⟨_, member, _⟩
    · exact same
    · exact absurd member not_mem_nil
  | cons entry rest ih =>
    rw [foldlM_cons] at written
    obtain ⟨_, first, later⟩ := bind_eq_ok.mp written
    have row := getMessage_update (writes _ _ _ first) id
    refine ih later (fun other member => named other (mem_cons_of_mem _ member)) ?_
    by_cases here : id = entry.1
    · rw [if_pos here, named entry mem_cons_self here] at row
      exact Or.inl row
    · rw [if_neg here] at row
      rw [row]
      refine last.imp_right ?_
      rintro ⟨other, member, same⟩
      rcases mem_cons.mp member with rfl | older
      · exact absurd same here
      · exact ⟨other, older, same⟩

/-- **Every disposition is written.** -/
theorem persisted
    (written : persistOpenmlsCanonicalizationDispositions records result = .ok updated)
    {state : MessageState} (given : result.stateByMessageId[id]? = some state) :
    (getMessage updated id).map MessageRecord.state = some state := by
  refine getMessage_written (fun records entry updated wrote => ?_) written
    (fun entry member same => ?_)
    (Or.inr ⟨(id, state), ExtTreeMap.mem_toList_iff_getElem?_eq_some.mpr given, rfl⟩)
  · split at wrote
    · rename_i written
      cases wrote
      exact written
    · cases wrote
  · have listed := ExtTreeMap.mem_toList_iff_getElem?_eq_some.mp member
    rw [← same, given] at listed
    exact (some.inj listed).symm

end Stages

/-! ### Atomicity -/

section Atomicity

open FaultyStorage GuardedStorage Applier

variable (applier : Applier Group)

/-- A decision whose accepted messages lead to its selected tip, if they replay. -/
def Applier.LeadsToTip (storage : GuardedStorage Group) (result : CanonicalizationResult) : Prop :=
  ∀ messages start group output tip,
    Darkmatter.replayMessagesForCanonicalizationResult storage.live.messages []
      result.replayIds = .ok messages →
    Darkmatter.applyStartEpochForCanonicalizationResult storage.live.messages result = .ok start →
    storage.startGroup (start.getD storage.live.epoch) = some group →
    applier.mls.processOpenmlsMessagesInner group messages = .ok output →
    result.selectedTip = some tip → applier.mls.epoch output.group = tip

/-- The group is at the selected tip, and every disposition is written. -/
structure Applier.Settled (result : CanonicalizationResult) (live : GroupSnapshot Group) :
    Prop where
  tip : ∀ tip, result.selectedTip = some tip → live.epoch = tip ∧ applier.mls.epoch live.mls = tip
  dispositions : ∀ id state, result.stateByMessageId[id]? = some state →
    (getMessage live.messages id).map MessageRecord.state = some state

/-- An outcome that is all or nothing: a failure leaves the group record, the messages, the queue
and the MLS state as they were, and a success leaves the decision. -/
def Applier.AllOrNothing (storage : GuardedStorage Group) (result : CanonicalizationResult)
    (outcome : Except OpenMlsProjectionError (List OpenMlsReplayObservation) ×
      FaultyStorage Group) : Prop :=
  (∀ e, outcome.1 = .error e → outcome.2.storage.live = storage.live) ∧
    ∀ observations, outcome.1 = .ok observations → applier.Settled result outcome.2.storage.live

/-- **Applying is atomic** when a given call fails. -/
def Applier.Atomic (fault : Option ApplyCall) (storage : GuardedStorage Group)
    (result : CanonicalizationResult) (rewind : Nat) : Prop :=
  applier.AllOrNothing storage result
    (applier.applyOpenmlsCanonicalizationResult result rewind ⟨storage, fault⟩)

/-- The calls after the transaction, and the rollback of the guard. -/
def ApplyCall.isLate : ApplyCall → Bool
  | .releaseGuard | .retain _ | .rollbackGuard => true
  | _ => false

variable {applier}

/-- The transaction leaves the decision, or nothing. -/
theorem inner_cases {result : CanonicalizationResult} {messages : List TransportMessage}
    {state : FaultyStorage Group} :
    (∃ e, (applier.applyOpenmlsCanonicalizationResultInner result messages state).1 = .error e ∧
      (applier.applyOpenmlsCanonicalizationResultInner result messages state).2.storage =
        state.storage ∧
      ((applier.applyOpenmlsCanonicalizationResultInner result messages state).2.fault =
        state.fault ∨
      (applier.applyOpenmlsCanonicalizationResultInner result messages state).2.fault = none)) ∨
    ∃ observations output rows,
      applier.mls.processOpenmlsMessagesInner state.storage.live.mls messages = .ok output ∧
      persistOpenmlsCanonicalizationDispositions state.storage.live.messages result = .ok rows ∧
      applier.applyOpenmlsCanonicalizationResultInner result messages state =
        (.ok observations, { state with storage := { state.storage with live :=
          { state.storage.live with
            mls := output.group
            epoch := applier.mls.epoch output.group
            messages := rows } } }) := by
  rw [Applier.applyOpenmlsCanonicalizationResultInner]
  by_cases fails : state.fault = some .transaction
  · rw [if_pos fails]
    exact Or.inl ⟨_, rfl, rfl, Or.inr rfl⟩
  · rw [if_neg fails, OpenMls.applyOpenmlsCanonicalizationResultInner]
    cases replayed : applier.mls.processOpenmlsMessagesInner state.storage.live.mls messages with
    | error => exact Or.inl ⟨_, rfl, rfl, Or.inl rfl⟩
    | ok =>
      dsimp only
      cases written : persistOpenmlsCanonicalizationDispositions state.storage.live.messages
          result with
      | error e => exact Or.inl ⟨_, rfl, rfl, Or.inl rfl⟩
      | ok rows => exact Or.inr ⟨_, _, _, rfl, rfl, rfl⟩

theorem createGuard_cases (guard : GuardName) (state : FaultyStorage Group) :
    (call .createGuard (createGroupSnapshot guard) state).1 ≠ .ok () ∧
        (call .createGuard (createGroupSnapshot guard) state).2.storage = state.storage ∨
      call .createGuard (createGroupSnapshot guard) state =
        (.ok (), { state with storage := { state.storage with
          snapshots := update state.storage.snapshots guard
            (some state.storage.live) } }) := by
  by_cases fails : state.fault = some .createGuard
  · rw [call, if_pos fails]
    exact Or.inl ⟨by simp, rfl⟩
  · rw [call_eq fails]
    exact Or.inr rfl

theorem startGroup_guard (guard : GuardName) (storage : GuardedStorage Group)
    (isGuard : guard.isGuard = true) (epoch : Nat) :
    (GuardedStorage.mk storage.live
      (update storage.snapshots guard (some storage.live))).startGroup epoch =
        storage.startGroup epoch := by
  have other : GuardName.stored (.retainedAnchor epoch) ≠ guard := by
    rintro rfl
    cases isGuard
  rw [startGroup, startGroup]
  simp only [update_of_ne other]

variable {storage : GuardedStorage Group} {result : CanonicalizationResult} {rewind : Nat}

theorem nothing {outcome : Except OpenMlsProjectionError (List OpenMlsReplayObservation) ×
      FaultyStorage Group} (failed : ∃ e, outcome.1 = .error e)
    (live : outcome.2.storage.live = storage.live) :
    applier.AllOrNothing storage result outcome := by
  obtain ⟨e, failed⟩ := failed
  refine ⟨fun _ _ => live, fun observations returned => ?_⟩
  rw [failed] at returned
  cases returned

/-- **Under its guard, an apply is all or nothing** when the call that fails is not a late one. -/
theorem underGuard_atomic {hash : Bytes} {state : FaultyStorage Group}
    (early : ∀ call, call.isLate = true → state.fault ≠ some call)
    (guarded : state.storage.snapshots (.apply hash) = some storage.live)
    (current : input.currentEpoch = state.storage.live.epoch) (leads : ∀ group output tip,
      state.storage.startGroup input.applyStartEpoch = some group →
      applier.mls.processOpenmlsMessagesInner group input.replayMessages = .ok output →
      result.selectedTip = some tip → applier.mls.epoch output.group = tip) :
    applier.AllOrNothing storage result
      (applier.applyUnderGuard result rewind (.apply hash) input state) := by
  have still : ∀ {after : FaultyStorage Group},
      after.fault = state.fault ∨ after.fault = none →
      ∀ call, call.isLate = true → after.fault ≠ some call := by
    rintro _ (same | gone) call late
    · rw [same]
      exact early call late
    · rw [gone]
      simp
  obtain ⟨guards, fault⟩ := @moves_prepare Group result input rewind state
  rw [Applier.applyUnderGuard, run_bind]
  cases prepared : (prepare result input rewind state).1 with
  | error e =>
    obtain ⟨failed, live⟩ := giveUp_live e ((congrFun guards hash).trans guarded)
      (still fault .rollbackGuard rfl)
    exact nothing failed live
  | ok =>
    have starts := prepare_ok current prepared
    generalize (prepare result input rewind state).2 = ready at guards fault starts
    have present := (congrFun guards hash).trans guarded
    dsimp only
    rw [run_bind]
    rcases @inner_cases Group applier result input.replayMessages ready with
      ⟨e, failed, same, later⟩ | ⟨observations, output, rows, replayed, written, ran⟩
    · rw [failed]
      obtain ⟨gaveUp, live⟩ := giveUp_live e (same ▸ present)
        (still (later.elim (fun same => same ▸ fault) Or.inr) .rollbackGuard rfl)
      exact nothing gaveUp live
    · rw [ran]
      have returns := @finish_ok Group result rewind (.apply hash) storage.live
        { ready with storage := { ready.storage with live :=
          { ready.storage.live with
            mls := output.group
            epoch := applier.mls.epoch output.group
            messages := rows } } } observations present
        (still fault .releaseGuard rfl) fun call => still fault (.retain call) rfl
      refine ⟨fun e failed => ?_, fun _ _ => ?_⟩
      · dsimp only at failed
        rw [returns] at failed
        cases failed
      · dsimp only
        rw [finish_live]
        exact ⟨fun tip selected => ⟨leads _ _ tip starts replayed selected,
          leads _ _ tip starts replayed selected⟩, fun id given => persisted written⟩

/-- **Applying is atomic when the call that fails is not a late one.** -/
theorem atomic_of_early {fault : Option ApplyCall}
    (early : ∀ call, fault = some call → call.isLate = false)
    (leads : applier.LeadsToTip storage result) : applier.Atomic fault storage result rewind := by
  rw [Applier.Atomic, Applier.applyOpenmlsCanonicalizationResult, run_bind]
  obtain ⟨unchanged, faded⟩ := @moves_readInput Group result ⟨storage, fault⟩
  cases read : (readInput result ⟨storage, fault⟩).1 with
  | error => exact nothing ⟨_, rfl⟩ (congrArg GuardedStorage.live unchanged)
  | ok =>
    obtain ⟨messages, current, _, isStart, startEpoch⟩ := readInput_ok read
    dsimp only at messages current isStart startEpoch faded unchanged ⊢
    generalize (readInput result ⟨storage, fault⟩).2 = state at unchanged faded ⊢
    rw [whole, whole] at unchanged
    rw [run_bind]
    rcases createGuard_cases (.apply (applier.applyHash result)) state with ⟨fails, same⟩ | created
    · cases outcome : (call .createGuard
          (createGroupSnapshot (.apply (applier.applyHash result))) state).1 with
      | error e => exact nothing ⟨_, rfl⟩ (by rw [← unchanged]; exact congrArg _ same)
      | ok value => exact absurd outcome fails
    · rw [created]
      refine underGuard_atomic (fun call late is => ?_) ?_ ?_ fun group output tip starts => ?_
      · -- The fault is the one it was, or is over.
        rcases faded with same | gone
        · rw [early call (same.symm.trans is)] at late
          cases late
        · exact absurd (gone.symm.trans is) (by simp)
      · rw [← unchanged]
        exact update_self _ _ _
      · rw [unchanged]
        exact current
      · refine leads _ _ group output tip messages isStart ?_
        rw [startGroup_guard _ _ rfl, unchanged, startEpoch] at starts
        exact starts

end Atomicity

/-! ### Late failures -/

def GuardedStorage.retained {Group : Type} (storage : GuardedStorage Group) :
    GuardedStorage Group :=
  { storage with
    snapshots := update storage.snapshots (.stored (.retainedAnchor storage.live.epoch))
      (some storage.live) }

namespace LateFailure

open FaultyStorage GuardedStorage Applier

/-- A client that cannot read its own commit named 9 from the wire. -/
def applier : Applier SymbolicGroup where
  mls := symbolicMls [9]
  applyHash := fun _ => []

/-- A decision to accept one commit. -/
def accept (tip : Nat) : CanonicalizationResult where
  previousTip := tip - 1
  selectedTip := some tip
  selectedForkEpoch := none
  selectedBranchId := none
  candidateCount := 1
  eligibleCount := 1
  convergenceStatus := .settled
  acceptedCommits := ["commit"]
  acceptedProposals := []
  acceptedAppMessages := []
  invalidatedAppMessages := []
  droppedMessages := []
  alreadySeen := []
  queuedOutboundIntents := []
  publishableOutboundMessages := []
  errors := []
  selectionTrace := none

def row (payload : Bytes) (state : MessageState) : MessageRecord :=
  ⟨"commit", "group", epoch, state, .openmlsWire (symbolicMessage "commit" payload)⟩

/-- A group at an epoch, with a commit that applies there. -/
def waiting : GroupSnapshot SymbolicGroup where
  mls := replicate epoch 7
  epoch
  messages := [row epoch (0 :: 7 :: replicate epoch 7) .created]
  queue := []

def advanced : GroupSnapshot SymbolicGroup where
  mls := replicate (epoch + 1) 7
  epoch := epoch + 1
  messages := [row epoch (0 :: 7 :: replicate epoch 7) .processed]
  queue := []

def stored : GuardedStorage SymbolicGroup where
  live := waiting epoch
  snapshots := fun _ => none

def guarded : GuardedStorage SymbolicGroup where
  live := waiting epoch
  snapshots := update (fun _ => none) (.apply []) (some (waiting epoch))

def committed : GuardedStorage SymbolicGroup :=
  { (guarded epoch).retained with live := advanced epoch }

theorem leads_stored : applier.LeadsToTip (stored 0) (accept 1) := by
  intro messages start group _ tip read begun begins replayed selected
  obtain rfl : [symbolicMessage "commit" [0, 7]] = messages := Except.ok.inj read
  obtain rfl : some 0 = start := Except.ok.inj begun
  obtain rfl : [] = group := some.inj begins
  obtain rfl : 1 = tip := some.inj selected
  cases replayed
  rfl

/-- A decision without messages. -/
def settle (tip : Nat) : CanonicalizationResult :=
  { accept tip with acceptedCommits := [] }

/-- A group whose record is behind its MLS state, with an old anchor. -/
def behind : GuardedStorage SymbolicGroup where
  live :=
    { mls := replicate (epoch + 1) 7
      epoch := 0
      messages := []
      queue := [] }
  snapshots := update (fun _ => none) (.stored (.retainedAnchor epoch))
    (some (waiting epoch))

def caughtUp : GuardedStorage SymbolicGroup where
  live := { (behind epoch).live with epoch := epoch + 1 }
  snapshots := update (behind epoch).snapshots (.apply []) (some (behind epoch).live)

theorem behind_tip : applier.mls.epoch (behind epoch).live.mls = epoch + 1 :=
  length_replicate

theorem leads_behind : applier.LeadsToTip (behind epoch) (settle (epoch + 1)) := by
  intro messages start group _ tip read begun begins replayed selected
  obtain rfl : [] = messages := Except.ok.inj read
  obtain rfl : none = start := Except.ok.inj begun
  obtain rfl : epoch + 1 = tip := some.inj selected
  obtain rfl : (behind epoch).live.mls = group := some.inj begins
  cases replayed
  exact behind_tip epoch

variable {late : ApplyCall}

theorem apply_eq (isLate : late.isLate = true) :
    applier.applyOpenmlsCanonicalizationResult (settle (epoch + 1)) 0 ⟨behind epoch, some late⟩ =
      finish (settle (epoch + 1)) 0 (.apply []) [] ⟨caughtUp epoch, some late⟩ := by
  have works : ∀ site : ApplyCall, site.isLate = false → some late ≠ some site := by
    rintro _ early ⟨⟩
    rw [isLate] at early
    cases early
  have reads : readInput (settle (epoch + 1)) ⟨behind epoch, some late⟩ =
      (.ok ⟨[], 0, [], [], 0⟩, ⟨behind epoch, some late⟩) := by
    cases late <;> first | rfl | cases isLate
  have name : GuardName.apply (applier.applyHash (settle (epoch + 1))) = .apply [] := rfl
  have prepared : ∀ state : FaultyStorage SymbolicGroup,
      prepare (settle (epoch + 1)) ⟨[], 0, [], [], 0⟩ 0 state = (.ok (), state) := fun _ => rfl
  have inner : applier.mls.applyOpenmlsCanonicalizationResultInner (behind epoch).live
      (settle (epoch + 1)) [] = .ok ([], (caughtUp epoch).live) := by
    rw [caughtUp, ← behind_tip]
    rfl
  rw [Applier.applyOpenmlsCanonicalizationResult, run_bind, reads]
  dsimp only
  rw [run_bind, name, call_eq (works _ rfl)]
  dsimp only [createGroupSnapshot]
  rw [applyUnderGuard, run_bind, prepared]
  dsimp only
  rw [run_bind, Applier.applyOpenmlsCanonicalizationResultInner, if_neg (works _ rfl), inner]
  rfl

theorem listAnchorsBelow_last {storage : GuardedStorage SymbolicGroup} {epoch : Nat}
    (older : ∀ anchor < epoch, storage.snapshots (.stored (.retainedAnchor anchor)) = none)
    (last : (storage.snapshots (.stored (.retainedAnchor epoch))).isSome = true) :
    listAnchorsBelow (epoch + 1) storage = (.ok [epoch], storage) := by
  have none : ((range epoch).filter fun anchor =>
      (storage.snapshots (.stored (.retainedAnchor anchor))).isSome) = [] := by
    rw [filter_eq_nil_iff]
    intro anchor below
    simp [older anchor (mem_range.mp below)]
  rw [listAnchorsBelow, range_succ, filter_append, none, filter_singleton, last]
  rfl

theorem finish_fails :
    (finish (settle (epoch + 1)) 0 (.apply []) []
      ⟨caughtUp epoch, some (.retain (.releaseAnchor epoch))⟩).1 = .error .snapshot := by
  obtain ⟨released, isReleased⟩ : ∃ released : GuardedStorage SymbolicGroup, released =
    ⟨(caughtUp epoch).live, update (caughtUp epoch).snapshots (.apply []) none⟩ := ⟨_, rfl⟩
  have guard : releaseGroupSnapshot (.apply []) (caughtUp epoch) = (.ok (), released) := by
    rw [isReleased]
    rfl
  have listed : listAnchorsBelow (released.live.epoch - 0) released.retained =
      (.ok [epoch], released.retained) := by
    rw [isReleased]
    refine listAnchorsBelow_last (fun anchor below => ?_) ?_
    · simp [retained, caughtUp, behind, Nat.ne_of_lt below, Nat.ne_of_lt (Nat.lt_succ_of_lt below)]
    · simp [retained, caughtUp, behind]
  have selected : (settle (epoch + 1)).selectedTip.isSome = true := rfl
  rw [finish, run_bind, call_eq (by simp)]
  dsimp only
  rw [guard]
  dsimp only
  rw [if_pos selected, run_bind, retainCurrentGroupEpochSnapshot, run_bind, call_eq (by simp)]
  dsimp only [GuardedStorage.read]
  rw [run_bind, call_eq (by simp)]
  dsimp only [createGroupSnapshot]
  rw [run_bind, call_eq (by simp)]
  dsimp only
  rw [retained] at listed
  rw [listed]
  dsimp only
  rw [releaseAnchors, run_bind, call, if_pos rfl]
  rfl

/-- **A call after the transaction fails**: the failure is reported, and the record is written. -/
theorem not_atomic_after {epoch : Nat}
    (after : late = .releaseGuard ∨ ∃ call, late = .retain call ∧
      ∀ other, call = .releaseAnchor other → other = epoch) :
    ¬ applier.Atomic (some late) (behind epoch) (settle (epoch + 1)) 0 := by
  have isLate : late.isLate = true := by
    rcases after with rfl | ⟨call, rfl, -⟩ <;> rfl
  have fails : ∃ e, (finish (settle (epoch + 1)) 0 (.apply []) []
      ⟨caughtUp epoch, some late⟩).1 = .error e := by
    rcases after with rfl | ⟨call, rfl, only⟩
    · exact ⟨_, rfl⟩
    cases call with
    | getGroup | createAnchor | listSnapshots => exact ⟨_, rfl⟩
    | releaseAnchor other =>
      obtain rfl := (only other rfl).symm
      exact ⟨_, finish_fails _⟩
  rintro ⟨nothing, -⟩
  rw [apply_eq epoch isLate] at nothing
  obtain ⟨e, failed⟩ := fails
  have same := congrArg GroupSnapshot.epoch ((finish_live _ _).symm.trans (nothing e failed))
  exact absurd same (Nat.succ_ne_zero epoch)

/-- A group that has left epoch 0 by another commit than the client's own one. -/
def diverged : GuardedStorage SymbolicGroup where
  live :=
    { mls := [7]
      epoch := 1
      messages := [row 0 [0, 9] .created]
      queue := [] }
  snapshots := update (fun _ => none) (.stored (.retainedAnchor 0)) (some
    { mls := []
      epoch := 0
      messages := [row 0 [0, 9] .created]
      queue := [] })

theorem leads_diverged : applier.LeadsToTip diverged (accept 1) := by
  intro messages start group _ _ read begun begins replayed _
  obtain rfl : [symbolicMessage "commit" [0, 9]] = messages := Except.ok.inj read
  obtain rfl : some 0 = start := Except.ok.inj begun
  obtain rfl : [] = group := some.inj begins
  cases replayed

/-- **The rollback of the guard fails**: the group is left at the anchor. -/
theorem not_atomic_rollback : ¬ applier.Atomic (some .rollbackGuard) diverged (accept 1) 0 := by
  have outcome : (applier.applyOpenmlsCanonicalizationResult (accept 1) 0
      ⟨diverged, some .rollbackGuard⟩).1 = .error .snapshot ∧
      (applier.applyOpenmlsCanonicalizationResult (accept 1) 0
        ⟨diverged, some .rollbackGuard⟩).2.storage.live.epoch = 0 := by
    decide +kernel
  rintro ⟨nothing, -⟩
  have same := congrArg GroupSnapshot.epoch (nothing .snapshot outcome.1)
  rw [outcome.2] at same
  cases same

end LateFailure

/-- **A failure reported after the fact.** The group is guarded, the commit is applied, and the
release of the guard fails: the apply fails, with the group at the new epoch and the commit
processed. -/
theorem late_failure_reported :
    LateFailure.applier.LeadsToTip (LateFailure.stored 0) (LateFailure.accept 1) ∧
      LateFailure.applier.applyOpenmlsCanonicalizationResult (LateFailure.accept 1) 0
          ⟨LateFailure.stored 0, some .releaseGuard⟩ =
        (.error .snapshot, ⟨LateFailure.committed 0, none⟩) ∧
      (LateFailure.stored 0).live.epoch = 0 ∧ (LateFailure.committed 0).live.epoch = 1 :=
  ⟨LateFailure.leads_stored, rfl, rfl, rfl⟩

/-- **Applying is atomic exactly when the call that fails is not a late one.** Over every group,
every storage and every decision whose accepted messages lead to its tip: a failed apply leaves the
group record, the messages, the queue and the MLS state as they were, and an apply that returns
leaves the group at the selected tip with every disposition written. -/
theorem apply_atomic_iff (fault : Option ApplyCall) :
    (∀ (Group : Type) (applier : Applier Group) (storage : GuardedStorage Group)
      (result : CanonicalizationResult) (rewind : Nat),
        applier.LeadsToTip storage result → applier.Atomic fault storage result rewind) ↔
      ∀ call, fault = some call → call.isLate = false := by
  constructor
  · rintro atomic call rfl
    have after := fun epoch => atomic _ LateFailure.applier _ _ 0 (LateFailure.leads_behind epoch)
    cases call with
    | releaseGuard => exact absurd (after 0) (LateFailure.not_atomic_after (Or.inl rfl))
    | retain call =>
      cases call with
      | releaseAnchor epoch =>
        refine absurd (after epoch) (LateFailure.not_atomic_after (Or.inr ⟨_, rfl, ?_⟩))
        rintro other ⟨⟩
        rfl
      | getGroup | createAnchor | listSnapshots =>
        exact absurd (after 0) (LateFailure.not_atomic_after (Or.inr ⟨_, rfl, by simp⟩))
    | rollbackGuard =>
      exact absurd (atomic _ _ _ _ 0 LateFailure.leads_diverged) LateFailure.not_atomic_rollback
    | _ => rfl
  · intro early Group applier storage result rewind leads
    exact atomic_of_early early leads

end Darkmatter
