/-
**The groups that await a convergence pass.**

The worker of an account keeps a set of groups for which its timer will start a convergence pass.
The client tells it which groups to add, from the outcomes and effects of the calls to the engine.
Which groups have inputs that await convergence is stored by the engine, and survives a restart; the
set of the worker and what the client remembers do not.

* `ScheduledConvergence` — the set, the attempts and the timer;
* `EngineCall`, `ConvergenceClient` — what a call to the engine stores and reports, and what the
  client remembers of it;
* `AccountWorker`, `WorkerStep`, `AccountWorker.step` — the arms of the loop, a start and a stop;
* `WorkerStep.Careful` — a call that makes a group pending succeeds and reports the group;
* `pending_scheduled` — **along careful steps every pending group is scheduled**.
-/

import Darkmatter.Convergence
import Darkmatter.Lib.Machine

namespace Darkmatter

open Lib List

/-! ### The scheduled groups -/

def minConvergenceSettlementDelay : Nat := 10

def idleConvergenceTimerDelay : Nat := 365 * 24 * 60 * 60 * 1000

def convergenceRetryBaseDelay : Nat := 1000

def convergenceRetryMaxDelay : Nat := 60 * 1000

def convergenceUnsettledMaxRearms : Nat := 10

def retryDelayForAttempt (attempt : Nat) : Nat :=
  min (convergenceRetryBaseDelay * 2 ^ min (attempt - 1) 6) convergenceRetryMaxDelay

/-- One more attempt, in 32 bits. -/
def nextAttempt (attempts : Nat) : Nat :=
  min (attempts + 1) (2 ^ 32 - 1)

/-- Times are in milliseconds. A group that is not in a map of attempts has none, and `timer` is the
time for which the timer was set last. -/
structure ScheduledConvergence where
  delay : Nat
  groups : Finset Bytes
  retryAttempts : Bytes → Nat
  unsettledRearmAttempts : Bytes → Nat
  timer : Nat

namespace ScheduledConvergence

def new (delay : Nat) : ScheduledConvergence where
  delay := delay
  groups := ∅
  retryAttempts := fun _ => 0
  unsettledRearmAttempts := fun _ => 0
  timer := idleConvergenceTimerDelay

def normalDelay (scheduled : ScheduledConvergence) : Nat :=
  max scheduled.delay minConvergenceSettlementDelay

def noteSuccess (scheduled : ScheduledConvergence) (groupId : Bytes) : ScheduledConvergence :=
  { scheduled with
    retryAttempts := Function.update scheduled.retryAttempts groupId 0
    unsettledRearmAttempts := Function.update scheduled.unsettledRearmAttempts groupId 0 }

def scheduleGroups (scheduled : ScheduledConvergence) (groups : List Bytes) :
    ScheduledConvergence :=
  let added := groups.foldl (fun scheduled groupId =>
    { scheduled.noteSuccess groupId with groups := insert groupId scheduled.groups }) scheduled
  if groups = [] then added else { added with timer := added.normalDelay }

/-- One group of `schedule_retry_groups`, with the greatest delay so far. -/
def retryGroup (progress : ScheduledConvergence × Option Nat) (groupId : Bytes) :
    ScheduledConvergence × Option Nat :=
  let (scheduled, delay) := progress
  let attempts := nextAttempt (scheduled.retryAttempts groupId)
  let groupDelay := retryDelayForAttempt attempts
  ({ scheduled with
      retryAttempts := Function.update scheduled.retryAttempts groupId attempts
      groups := insert groupId scheduled.groups },
    some (max (delay.getD groupDelay) groupDelay))

def scheduleRetryGroups (scheduled : ScheduledConvergence) (groups : List Bytes) :
    ScheduledConvergence :=
  match groups.foldl retryGroup (scheduled, none) with
  | (added, some delay) => { added with timer := delay }
  | (added, none) => added

/-- A group whose pass left inputs. After some attempts it waits like after an error. -/
def scheduleUnsettledGroup (scheduled : ScheduledConvergence) (groupId : Bytes) :
    ScheduledConvergence :=
  let attempts := nextAttempt (scheduled.unsettledRearmAttempts groupId)
  let added :=
    { scheduled with
      unsettledRearmAttempts := Function.update scheduled.unsettledRearmAttempts groupId attempts
      groups := insert groupId scheduled.groups }
  if convergenceUnsettledMaxRearms < attempts then
    let retryAttempts := nextAttempt (added.retryAttempts groupId)
    { added with
      retryAttempts := Function.update added.retryAttempts groupId retryAttempts
      timer := retryDelayForAttempt retryAttempts }
  else
    { added with timer := added.normalDelay }

def scheduleAfterPass (scheduled : ScheduledConvergence) (groupId : Bytes)
    (hasPendingInputs : Bool) : ScheduledConvergence :=
  if hasPendingInputs then
    scheduled.scheduleUnsettledGroup groupId
  else
    scheduled.noteSuccess groupId

/-- The groups are drained by the caller. -/
def takeReady (scheduled : ScheduledConvergence) : ScheduledConvergence :=
  { scheduled with
    groups := ∅
    timer := idleConvergenceTimerDelay }

variable {scheduled : ScheduledConvergence} {groups : List Bytes} {groupId : Bytes}

@[simp]
theorem mem_scheduleGroups :
    groupId ∈ (scheduled.scheduleGroups groups).groups ↔
      groupId ∈ groups ∨ groupId ∈ scheduled.groups := by
  have added (scheduled : ScheduledConvergence) :
      groupId ∈ (groups.foldl (fun scheduled groupId =>
        { scheduled.noteSuccess groupId with groups := insert groupId scheduled.groups })
        scheduled).groups ↔ groupId ∈ groups ∨ groupId ∈ scheduled.groups := by
    induction groups generalizing scheduled with
    | nil => simp
    | cons first rest ih =>
      rw [foldl_cons, ih, Finset.mem_insert, mem_cons, or_assoc, or_left_comm]
  rw [scheduleGroups]
  split_ifs <;> exact added scheduled

@[simp]
theorem mem_scheduleRetryGroups :
    groupId ∈ (scheduled.scheduleRetryGroups groups).groups ↔
      groupId ∈ groups ∨ groupId ∈ scheduled.groups := by
  have added (progress : ScheduledConvergence × Option Nat) :
      groupId ∈ (groups.foldl retryGroup progress).1.groups ↔
        groupId ∈ groups ∨ groupId ∈ progress.1.groups := by
    induction groups generalizing progress with
    | nil => simp
    | cons first rest ih =>
      rw [foldl_cons, ih, retryGroup, Finset.mem_insert, mem_cons, or_assoc, or_left_comm]
  rw [← added (scheduled, none), scheduleRetryGroups]
  split <;> simp_all

@[simp]
theorem mem_scheduleUnsettledGroup {other : Bytes} :
    other ∈ (scheduled.scheduleUnsettledGroup groupId).groups ↔
      other = groupId ∨ other ∈ scheduled.groups := by
  rw [scheduleUnsettledGroup]
  split_ifs <;> exact Finset.mem_insert

theorem mem_scheduleAfterPass {other : Bytes} {hasPendingInputs : Bool}
    (known : other ∈ scheduled.groups ∨ other = groupId ∧ hasPendingInputs = true) :
    other ∈ (scheduled.scheduleAfterPass groupId hasPendingInputs).groups := by
  rw [scheduleAfterPass]
  split_ifs with pending
  · rw [mem_scheduleUnsettledGroup]
    exact known.symm.imp_left And.left
  · rcases known with there | ⟨_, isPending⟩
    · exact there
    · exact absurd isPending pending

end ScheduledConvergence

/-! ### What the client remembers -/

/-- How a call of the client to the engine ends: the engine fails, a publication failed, something
later fails, or nothing does. -/
inductive CallOutcome
  | failed
  | publishFailed
  | laterFailed
  | done
deriving DecidableEq, Repr

/-- **A call to the engine**: the groups that have inputs awaiting convergence after it, how it
ends, and the groups that its effects report. -/
structure EngineCall where
  stored : Finset Bytes
  outcome : CallOutcome
  pendingConvergence : List Bytes
deriving DecidableEq

/-- The ingestion of a delivery also has an outcome, which may be that the message was buffered, and
leaves something in the summary or not. -/
structure IngestCall extends EngineCall where
  buffered : Option Bytes
  summarized : Bool
deriving DecidableEq

structure SyncCall where
  /-- The transport was activated, and its groups synced. -/
  prepared : Bool
  deliveries : List IngestCall
  drained : EngineCall
deriving DecidableEq

inductive ClientCall
  /-- A send, or a convergence pass that was asked for. -/
  | engine (call : EngineCall)
  | sync (call : SyncCall)
  | drain (call : EngineCall)
deriving DecidableEq

structure ConvergenceClient where
  pendingConvergenceGroups : List Bytes
  stored : Finset Bytes
deriving DecidableEq

namespace ConvergenceClient

variable (client : ConvergenceClient)

/-- The groups are remembered when the engine and its publications succeeded. -/
def remember (call : EngineCall) (groups : List Bytes) : ConvergenceClient :=
  match call.outcome with
  | .failed | .publishFailed => { client with stored := call.stored }
  | .laterFailed | .done =>
    { pendingConvergenceGroups := client.pendingConvergenceGroups ∪ groups
      stored := call.stored }

def callEngine (call : EngineCall) : ConvergenceClient :=
  client.remember call call.pendingConvergence

def ingestDelivery (call : IngestCall) : ConvergenceClient :=
  client.remember call.toEngineCall (call.buffered.toList ++ call.pendingConvergence)

/-- What the effects of a drain report is not remembered. -/
def drainPendingSessionEvents (call : EngineCall) : ConvergenceClient :=
  { client with stored := call.stored }

/-- Deliveries are ingested until one fails. -/
def syncSdkRelay (client : ConvergenceClient) : List IngestCall → ConvergenceClient × Bool
  | [] => (client, true)
  | call :: rest =>
    if call.outcome = .done then
      (client.ingestDelivery call).syncSdkRelay rest
    else
      (client.ingestDelivery call, false)

def sync (call : SyncCall) : ConvergenceClient × Bool :=
  if call.prepared then
    let (received, complete) := client.syncSdkRelay call.deliveries
    if complete then
      (received.drainPendingSessionEvents call.drained, call.drained.outcome = .done)
    else
      (received, false)
  else
    (client, false)

def perform : ClientCall → ConvergenceClient
  | .engine call => client.callEngine call
  | .sync call => (client.sync call).1
  | .drain call => client.drainPendingSessionEvents call

/-- How a receive ends: with a summary, with an error, or not yet. -/
inductive Receipt
  | summary
  | failed
  | waiting
deriving DecidableEq, Repr

/-- Deliveries are ingested until there is something to report. -/
def nextEvent (client : ConvergenceClient) : List IngestCall → ConvergenceClient × Receipt
  | [] => (client, .waiting)
  | call :: rest =>
    let ingested := client.ingestDelivery call
    if call.outcome = .done then
      if call.summarized = false ∧ ingested.pendingConvergenceGroups = [] then
        ingested.nextEvent rest
      else
        (ingested, .summary)
    else
      (ingested, .failed)

end ConvergenceClient

/-! ### The worker -/

structure AccountWorker where
  running : Bool
  scheduled : ScheduledConvergence
  client : ConvergenceClient

/-- A scheduled pass of a group, and whether its inputs can be read afterwards. -/
structure ScheduledPass where
  groupId : Bytes
  call : EngineCall
  readable : Bool
deriving DecidableEq

inductive WorkerStep
  | start (settlementDelay : Nat) (initial : SyncCall) (deferred : List ClientCall)
  /-- The timer fires. The passes are those of the scheduled groups, in any order. -/
  | timer (synced : Bool) (passes : List ScheduledPass)
  | command (calls : List ClientCall)
  /-- Deliveries are received. After an error the client is opened anew, unless that fails too. -/
  | receive (calls : List IngestCall) (reopened : Bool)
  /-- Another arm of the loop is taken while the receive waits within an ingestion, before or after
  the groups are remembered. -/
  | dropReceive (call : IngestCall) (remembered : Bool)
  /-- The process ends, perhaps within a call. -/
  | stop (stored : Finset Bytes)

namespace AccountWorker

variable (worker : AccountWorker)

/-- `take_pending_convergence_groups`, and the groups are scheduled. -/
def schedulePending : AccountWorker :=
  { worker with
    scheduled := worker.scheduled.scheduleGroups worker.client.pendingConvergenceGroups
    client := { worker.client with pendingConvergenceGroups := [] } }

/-- A worker whose client was opened and synced. -/
def opened (settlementDelay : Nat) (initial : SyncCall) : AccountWorker :=
  let (synced, complete) :=
    ConvergenceClient.sync { worker.client with pendingConvergenceGroups := [] } initial
  let ready : AccountWorker :=
    { running := true
      scheduled := .new settlementDelay
      client := synced }
  if complete then ready.schedulePending else ready

/-- The commands that came meanwhile follow. -/
def start (settlementDelay : Nat) (initial : SyncCall)
    (deferred : List ClientCall) : AccountWorker :=
  let ready := worker.opened settlementDelay initial
  { ready with client := deferred.foldl .perform ready.client }.schedulePending

/-- One pass of the timer's arm. -/
def pass (pass : ScheduledPass) : AccountWorker :=
  let advanced := { worker with client := worker.client.callEngine pass.call }
  if pass.call.outcome = .done then
    let settled := advanced.schedulePending
    { settled with
      scheduled := settled.scheduled.scheduleAfterPass pass.groupId
        (pass.readable && pass.groupId ∈ settled.client.stored) }
  else
    { advanced with
      scheduled := advanced.scheduled.scheduleRetryGroups
        (advanced.client.pendingConvergenceGroups ++ [pass.groupId])
      client := { advanced.client with pendingConvergenceGroups := [] } }

def fireTimer (synced : Bool) (passes : List ScheduledPass) : AccountWorker :=
  let groups := passes.map (·.groupId)
  let ready := { worker with scheduled := worker.scheduled.takeReady }
  if synced then
    passes.foldl pass ready
  else
    { ready with scheduled := ready.scheduled.scheduleRetryGroups groups }

def receive (calls : List IngestCall) (reopened : Bool) : AccountWorker :=
  let (client, receipt) := worker.client.nextEvent calls
  match receipt with
  | .summary => { worker with client := client }.schedulePending
  | .waiting => { worker with client := client }
  | .failed =>
    if reopened then
      { worker with client := { client with pendingConvergenceGroups := [] } }
    else
      { worker with client := client }

/-- **One turn of the loop**, a start or a stop. A worker that is not running does nothing, and the
timer's passes are those of the scheduled groups. -/
def step : WorkerStep → AccountWorker
  | .start settlementDelay initial deferred => worker.start settlementDelay initial deferred
  | .timer synced passes =>
    if worker.running ∧ (passes.map (·.groupId)).Nodup ∧
        (passes.map (·.groupId)).toFinset = worker.scheduled.groups then
      worker.fireTimer synced passes
    else
      worker
  | .command calls =>
    if worker.running then
      { worker with client := calls.foldl .perform worker.client }.schedulePending
    else
      worker
  | .receive calls reopened => if worker.running then worker.receive calls reopened else worker
  | .dropReceive call remembered =>
    if worker.running then
      { worker with
        client :=
          if remembered then worker.client.ingestDelivery call
          else { worker.client with stored := call.stored } }
    else
      worker
  | .stop stored =>
    { worker with
      running := false
      client := { worker.client with stored := stored } }

def initial : AccountWorker where
  running := false
  scheduled := .new 0
  client := ⟨[], ∅⟩

def run (steps : List WorkerStep) : AccountWorker :=
  steps.foldl step initial

end AccountWorker

/-! ### Calls that report what they store -/

variable (before : Finset Bytes)

/-- A group that a call makes pending is among these, and the call succeeds. -/
def EngineCall.Reported (call : EngineCall) (groups : List Bytes) : Prop :=
  ∀ groupId ∈ call.stored, groupId ∈ before ∨ call.outcome = .done ∧ groupId ∈ groups

def IngestCall.Reported (call : IngestCall) : Prop :=
  call.toEngineCall.Reported before (call.buffered.toList ++ call.pendingConvergence)

/-- The deliveries report what they store, and the drain makes no group pending. -/
def SyncCall.Reported (client : ConvergenceClient) (call : SyncCall) : Prop :=
  Along .ingestDelivery (fun client delivery => delivery.Reported client.stored) client
      call.deliveries ∧
    call.drained.stored ⊆ (call.deliveries.foldl .ingestDelivery client).stored

def ClientCall.Reported (client : ConvergenceClient) : ClientCall → Prop
  | .engine call => call.Reported client.stored call.pendingConvergence
  | .sync call => call.Reported client
  | .drain call => call.stored ⊆ client.stored

/-- The inputs of the group itself can be read when there are any, and another group that the pass
makes pending is reported. -/
def ScheduledPass.Reported (pass : ScheduledPass) : Prop :=
  pass.call.Reported (insert pass.groupId before) pass.call.pendingConvergence ∧
    (pass.groupId ∈ pass.call.stored → pass.readable)

instance EngineCall.decidableReported (before : Finset Bytes) (call : EngineCall)
    (groups : List Bytes) :
    Decidable (call.Reported before groups) :=
  inferInstanceAs (Decidable (∀ groupId ∈ call.stored, _))

instance IngestCall.decidableReported (before : Finset Bytes) (call : IngestCall) :
    Decidable (call.Reported before) :=
  inferInstanceAs (Decidable (EngineCall.Reported _ _ _))

instance SyncCall.decidableReported (client : ConvergenceClient) (call : SyncCall) :
    Decidable (call.Reported client) :=
  inferInstanceAs (Decidable (_ ∧ _))

instance ClientCall.decidableReported (client : ConvergenceClient) :
    ∀ call : ClientCall, Decidable (call.Reported client)
  | .engine _ => inferInstanceAs (Decidable (EngineCall.Reported _ _ _))
  | .sync _ => inferInstanceAs (Decidable (SyncCall.Reported _ _))
  | .drain _ => inferInstanceAs (Decidable ((_ : Finset Bytes) ⊆ _))

instance ScheduledPass.decidableReported (before : Finset Bytes) (pass : ScheduledPass) :
    Decidable (pass.Reported before) :=
  inferInstanceAs (Decidable (_ ∧ _))

/-- **Careful steps.** A worker starts when no group is pending. A call that makes a group pending
succeeds and reports it, and none is made pending by a drain, or by a receive that is dropped. -/
def WorkerStep.Careful (worker : AccountWorker) : WorkerStep → Prop
  | .start settlementDelay initial deferred =>
    worker.client.stored = ∅ ∧ initial.Reported ⟨[], ∅⟩ ∧
      Along .perform (fun client call => call.Reported client)
        (worker.opened settlementDelay initial).client deferred
  | .timer synced passes =>
    synced = true → Along AccountWorker.pass (fun worker pass => pass.Reported worker.client.stored)
      { worker with scheduled := worker.scheduled.takeReady } passes
  | .command calls => Along .perform (fun client call => call.Reported client) worker.client calls
  | .receive calls _ =>
    Along .ingestDelivery (fun client call => call.Reported client.stored) worker.client calls
  | .dropReceive call _ => call.stored ⊆ worker.client.stored
  | .stop _ => True

instance WorkerStep.decidableCareful (worker : AccountWorker) :
    ∀ step : WorkerStep, Decidable (step.Careful worker)
  | .start _ _ _ => inferInstanceAs (Decidable (_ ∧ _))
  | .timer _ _ => inferInstanceAs (Decidable (_ → _))
  | .command _ => inferInstanceAs (Decidable (Along _ _ _ _))
  | .receive _ _ => inferInstanceAs (Decidable (Along _ _ _ _))
  | .dropReceive _ _ => inferInstanceAs (Decidable ((_ : Finset Bytes) ⊆ _))
  | .stop _ => inferInstanceAs (Decidable True)

namespace ConvergenceClient

variable {client : ConvergenceClient} {known : Finset Bytes}

/-- Every pending group is known, or remembered. -/
def Covered (known : Finset Bytes) (client : ConvergenceClient) : Prop :=
  ∀ groupId ∈ client.stored, groupId ∈ known ∨ groupId ∈ client.pendingConvergenceGroups

theorem remember_stored (call : EngineCall) (groups : List Bytes) :
    (client.remember call groups).stored = call.stored := by
  rw [remember]
  split <;> rfl

theorem subset_remember (call : EngineCall) (groups : List Bytes) :
    client.pendingConvergenceGroups ⊆ (client.remember call groups).pendingConvergenceGroups := by
  intro _ member
  rw [remember]
  split
  · exact member
  · exact member
  · exact mem_union_iff.mpr (Or.inl member)
  · exact mem_union_iff.mpr (Or.inl member)

theorem mem_remember_of_done {call : EngineCall} {groups : List Bytes} {groupId : Bytes}
    (done : call.outcome = .done) (member : groupId ∈ groups) :
    groupId ∈ (client.remember call groups).pendingConvergenceGroups := by
  rw [remember, done]
  exact mem_union_iff.mpr (Or.inr member)

section Covering

variable (covered : client.Covered known)

include covered

variable {call : EngineCall} {calls : List IngestCall}

/-- A call that reports what it stores keeps every pending group known or remembered. -/
theorem Covered.remember {groups : List Bytes} (reported : call.Reported client.stored groups) :
    (client.remember call groups).Covered known := by
  intro groupId stored
  rw [remember_stored] at stored
  rcases reported groupId stored with before | ⟨done, listed⟩
  · exact (covered groupId before).imp_right fun member => subset_remember _ _ member
  · exact Or.inr (mem_remember_of_done done listed)

theorem Covered.drain (reported : call.stored ⊆ client.stored) :
    (client.drainPendingSessionEvents call).Covered known :=
  fun groupId stored => covered groupId (reported stored)

theorem Covered.syncSdkRelay
    (reported : Along .ingestDelivery (fun client call => call.Reported client.stored) client
      calls) :
    (client.syncSdkRelay calls).1.Covered known ∧
      ((client.syncSdkRelay calls).2 = true →
        (client.syncSdkRelay calls).1 = calls.foldl .ingestDelivery client) := by
  induction calls generalizing client with
  | nil => exact ⟨covered, fun _ => rfl⟩
  | cons call rest ih =>
    have ingested := covered.remember reported.1
    rw [ConvergenceClient.syncSdkRelay]
    split_ifs
    · exact ih ingested reported.2
    · refine ⟨ingested, fun complete => ?_⟩
      cases complete

theorem Covered.sync {call : SyncCall} (reported : call.Reported client) :
    (client.sync call).1.Covered known := by
  obtain ⟨received, complete⟩ := covered.syncSdkRelay reported.1
  rw [ConvergenceClient.sync]
  split_ifs
  · dsimp only
    split_ifs with all
    · refine received.drain ?_
      rw [complete all]
      exact reported.2
    · exact received
  · exact covered

theorem Covered.perform {call : ClientCall} (reported : call.Reported client) :
    (client.perform call).Covered known := by
  cases call with
  | engine => exact covered.remember reported
  | sync => exact covered.sync reported
  | drain => exact covered.drain reported

variable (reported : Along .ingestDelivery (fun client call => call.Reported client.stored) client
  calls)

include reported

omit covered in
theorem nextEvent_stored (unfinished : (client.nextEvent calls).2 ≠ .summary) :
    (client.nextEvent calls).1.stored ⊆ client.stored := by
  induction calls generalizing client with
  | nil => exact subset_rfl
  | cons call rest ih =>
    have ingested : (client.ingestDelivery call).stored = call.stored := remember_stored _ _
    rw [nextEvent] at unfinished ⊢
    split_ifs at unfinished ⊢ with done quiet
    · refine (ih reported.2 unfinished).trans fun groupId stored => ?_
      rw [ingested] at stored
      rcases reported.1 groupId stored with before | ⟨_, listed⟩
      · exact before
      · have remembered : groupId ∈ (client.ingestDelivery call).pendingConvergenceGroups :=
          mem_remember_of_done done listed
        rw [quiet.2] at remembered
        cases remembered
    · exact absurd rfl unfinished
    · intro groupId stored
      rw [ingested] at stored
      rcases reported.1 groupId stored with before | ⟨isDone, _⟩
      · exact before
      · exact absurd isDone done

theorem Covered.nextEvent : (client.nextEvent calls).1.Covered known := by
  induction calls generalizing client with
  | nil => exact covered
  | cons call rest ih =>
    have ingested := covered.remember reported.1
    rw [ConvergenceClient.nextEvent]
    split_ifs
    · exact ih ingested reported.2
    · exact ingested
    · exact ingested

end Covering

end ConvergenceClient

namespace AccountWorker

variable {worker : AccountWorker}

/-- **Every group with inputs that await convergence is scheduled**, while the worker runs. -/
def Scheduled (worker : AccountWorker) : Prop :=
  worker.running = true → worker.client.stored ⊆ worker.scheduled.groups

theorem schedulePending_stored (covered : worker.client.Covered worker.scheduled.groups) :
    worker.schedulePending.client.stored ⊆ worker.schedulePending.scheduled.groups := by
  intro groupId stored
  rw [schedulePending, ScheduledConvergence.mem_scheduleGroups]
  exact (covered groupId stored).symm

/-- The groups that a pass leaves pending are scheduled again, or their pass is to come. -/
theorem pass_stored {pass : ScheduledPass} {later : List Bytes}
    (covered : ∀ groupId ∈ worker.client.stored,
      groupId ∈ worker.scheduled.groups ∨ groupId = pass.groupId ∨ groupId ∈ later)
    (reported : pass.Reported worker.client.stored) :
    ∀ groupId ∈ (worker.pass pass).client.stored,
      groupId ∈ (worker.pass pass).scheduled.groups ∨ groupId ∈ later := by
  have after : (worker.client.callEngine pass.call).stored = pass.call.stored :=
    ConvergenceClient.remember_stored _ _
  rw [AccountWorker.pass]
  dsimp only
  split_ifs with done
  · intro groupId stored
    have stored : groupId ∈ (worker.client.callEngine pass.call).stored := stored
    have kept : ∀ other, other ∈ worker.scheduled.groups ∨
        other ∈ (worker.client.callEngine pass.call).pendingConvergenceGroups →
        other ∈ ({ worker with client := worker.client.callEngine pass.call } :
          AccountWorker).schedulePending.scheduled.groups := by
      intro _ known
      rw [schedulePending, ScheduledConvergence.mem_scheduleGroups]
      exact known.symm
    by_cases own : groupId = pass.groupId
    · left
      refine ScheduledConvergence.mem_scheduleAfterPass (Or.inr ⟨own, ?_⟩)
      subst own
      rw [Bool.and_eq_true, decide_eq_true_eq]
      rw [after] at stored
      exact ⟨reported.2 stored, by rw [schedulePending]; exact after ▸ stored⟩
    · rcases reported.1 groupId (after ▸ stored) with before | ⟨_, listed⟩
      · rcases covered groupId ((Finset.mem_insert.mp before).resolve_left own) with
          scheduled | same | awaits
        · exact Or.inl (ScheduledConvergence.mem_scheduleAfterPass (Or.inl
            (kept groupId (Or.inl scheduled))))
        · exact absurd same own
        · exact Or.inr awaits
      · have remembered :
            groupId ∈ (worker.client.callEngine pass.call).pendingConvergenceGroups :=
          ConvergenceClient.mem_remember_of_done done listed
        exact Or.inl (ScheduledConvergence.mem_scheduleAfterPass (Or.inl
          (kept groupId (Or.inr remembered))))
  · intro groupId stored
    have stored : groupId ∈ (worker.client.callEngine pass.call).stored := stored
    rw [ScheduledConvergence.mem_scheduleRetryGroups]
    rw [after] at stored
    rcases reported.1 groupId stored with before | ⟨isDone, _⟩
    · rcases Finset.mem_insert.mp before with own | before
      · exact Or.inl (Or.inl (mem_append_right _ (mem_singleton.mpr own)))
      · rcases covered groupId before with scheduled | own | awaits
        · exact Or.inl (Or.inr scheduled)
        · exact Or.inl (Or.inl (mem_append_right _ (mem_singleton.mpr own)))
        · exact Or.inr awaits
    · exact absurd isDone done

theorem passes_stored {passes : List ScheduledPass}
    (covered : ∀ groupId ∈ worker.client.stored,
      groupId ∈ worker.scheduled.groups ∨ groupId ∈ passes.map (·.groupId))
    (reported : Along pass (fun worker pass => pass.Reported worker.client.stored) worker
      passes) :
    (passes.foldl pass worker).client.stored ⊆ (passes.foldl pass worker).scheduled.groups := by
  induction passes generalizing worker with
  | nil =>
    intro groupId stored
    rcases covered groupId stored with scheduled | awaits
    · exact scheduled
    · cases awaits
  | cons first rest ih =>
    refine ih ?_ reported.2
    refine pass_stored (fun groupId stored => ?_) reported.1
    exact (covered groupId stored).imp_right mem_cons.mp

theorem opened_covered {settlementDelay : Nat} {initial : SyncCall}
    (none : worker.client.stored = ∅) (reported : initial.Reported ⟨[], ∅⟩) :
    (worker.opened settlementDelay initial).client.Covered
      (worker.opened settlementDelay initial).scheduled.groups := by
  obtain ⟨_, scheduled, pending, stored⟩ := worker
  obtain rfl : stored = ∅ := none
  have nothing : (⟨[], ∅⟩ : ConvergenceClient).Covered ∅ := by
    intro groupId stored
    cases stored
  have synced := nothing.sync reported
  rw [opened]
  generalize (⟨[], ∅⟩ : ConvergenceClient).sync initial = result at synced ⊢
  obtain ⟨_, complete⟩ := result
  cases complete with
  | true => exact fun groupId stored => Or.inl (schedulePending_stored (by exact synced) stored)
  | false => exact synced

/-- **A careful step keeps every pending group scheduled.** -/
theorem step_scheduled (holds : worker.Scheduled) {step : WorkerStep}
    (careful : step.Careful worker) : (worker.step step).Scheduled := by
  cases step with
  | start =>
    intro _
    obtain ⟨none, reported, later⟩ := careful
    refine schedulePending_stored ?_
    exact later.invariant (opened_covered none reported)
      fun client call covered careful => covered.perform careful
  | timer synced passes =>
    rw [AccountWorker.step]
    split_ifs with fires
    · intro _
      obtain ⟨running, _, all⟩ := fires
      have listed : ∀ groupId ∈ worker.client.stored, groupId ∈ passes.map (·.groupId) := by
        intro groupId stored
        have scheduled := holds running stored
        rw [← all] at scheduled
        exact mem_toFinset.mp scheduled
      cases synced with
      | true =>
        exact passes_stored (fun groupId stored => Or.inr (listed groupId stored)) (careful rfl)
      | false =>
        intro groupId stored
        exact ScheduledConvergence.mem_scheduleRetryGroups.mpr (Or.inl (listed groupId stored))
    · exact holds
  | command =>
    rw [AccountWorker.step]
    split_ifs with running
    · intro _
      refine schedulePending_stored ?_
      have covered : worker.client.Covered worker.scheduled.groups :=
        fun groupId stored => Or.inl (holds running stored)
      exact careful.invariant covered fun client call covered careful => covered.perform careful
    · exact holds
  | receive calls =>
    rw [AccountWorker.step]
    split_ifs with running
    · intro _
      have covered : worker.client.Covered worker.scheduled.groups :=
        fun groupId stored => Or.inl (holds running stored)
      have returned := covered.nextEvent careful
      have unfinished := ConvergenceClient.nextEvent_stored careful
      rw [receive]
      generalize worker.client.nextEvent calls = result at returned unfinished ⊢
      obtain ⟨_, receipt⟩ := result
      cases receipt with
      | summary => exact schedulePending_stored (by exact returned)
      | waiting => exact (unfinished (by simp)).trans (holds running)
      | failed =>
        have kept := (unfinished (by simp)).trans (holds running)
        dsimp only
        split_ifs <;> exact kept
    · exact holds
  | dropReceive call =>
    rw [AccountWorker.step]
    split_ifs with running isRemembered
    · intro _
      change (worker.client.ingestDelivery call).stored ⊆ _
      rw [ConvergenceClient.ingestDelivery, ConvergenceClient.remember_stored]
      exact careful.trans (holds running)
    · intro _
      exact careful.trans (holds running)
    · exact holds
  | stop =>
    intro running
    cases running

end AccountWorker

open AccountWorker

/-- **Every pending group is scheduled** when the worker waits, in every run of careful steps. -/
theorem pending_scheduled {steps : List WorkerStep}
    (careful : Along step (fun worker step => step.Careful worker)
      initial steps) (running : (run steps).running = true) :
    ∀ groupId ∈ (run steps).client.stored, groupId ∈ (run steps).scheduled.groups := by
  have holds : (run steps).Scheduled :=
    careful.invariant (by rintro ⟨⟩) fun worker step holds careful =>
      step_scheduled holds careful
  exact fun groupId stored => holds running stored

/-! ### Groups that are forgotten -/

namespace ScheduleExample

def group : Bytes := [7]

def nothing : SyncCall := ⟨true, [], ⟨∅, .done, []⟩⟩

/-- A message is buffered. -/
def buffers : IngestCall := ⟨⟨{group}, .done, []⟩, some group, false⟩

/-- The group is found pending, and no delivery mentions it. -/
def found : SyncCall := ⟨true, [], ⟨{group}, .done, []⟩⟩

/-- A message is buffered, and a publication of the same call fails. -/
def buffersAndFails : IngestCall := ⟨⟨{group}, .publishFailed, []⟩, some group, false⟩

/-- The worker is started again after a message was buffered. -/
def restarted : List WorkerStep :=
  [.start 1100 nothing [], .receive [buffers] true, .stop {group}, .start 1100 found []]

def failedReceive : List WorkerStep :=
  [.start 1100 nothing [], .receive [buffersAndFails] true]

def droppedReceive : List WorkerStep :=
  [.start 1100 nothing [], .dropReceive buffers false]

/-- A message is buffered, a pass leaves it, and the next time the routes cannot be synced. -/
def unsettled : List WorkerStep :=
  [.start 1100 nothing [], .receive [buffers] true,
    .timer true [⟨group, ⟨{group}, .done, []⟩, true⟩],
    .timer false [⟨group, ⟨{group}, .done, []⟩, true⟩]]

end ScheduleExample

open ScheduleExample in
/-- **A pending group is not scheduled** after a restart, after a receive that fails once the
message was buffered, and after a receive that is dropped for another arm of the loop. -/
theorem pending_group_forgotten :
    ((run restarted).running = true ∧
        group ∈ (run restarted).client.stored ∧
        (run restarted).scheduled.groups = ∅) ∧
      ((run failedReceive).running = true ∧
        group ∈ (run failedReceive).client.stored ∧
        (run failedReceive).scheduled.groups = ∅) ∧
      ((run droppedReceive).running = true ∧
        group ∈ (run droppedReceive).client.stored ∧
        (run droppedReceive).scheduled.groups = ∅) := by
  decide +kernel

open ScheduleExample in
theorem unsettled_group_scheduled :
    group ∈ (run unsettled).client.stored ∧ group ∈ (run unsettled).scheduled.groups :=
  ⟨by decide +kernel, @pending_scheduled unsettled (by decide +kernel) (by decide +kernel) group
    (by decide +kernel)⟩

end Darkmatter
