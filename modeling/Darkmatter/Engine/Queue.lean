/-
**The outbound queue over a session.**

The abstract queue is a set of intents: one is put in when it is queued, and taken out when it was
handed over. A snapshot of the group holds the queue of its time, and the two ways back to a snapshot
treat it differently: a pass writes the live intents over those of the anchor, and a fork recovery
takes the queue of the snapshot as it is.

* `Move.outstanding` — the abstract queue;
* `Move.KeepsQueue` — the snapshots that a rollback goes back to;
* `perform_queue` — **a move does to the queue what it does to the abstract queue**;
* `queue_exact` — so does a session.
-/

import Darkmatter.Engine.Runs

namespace Darkmatter

open Std Lib

def intents (queue : List QueuedOutboundIntent) : Set QueuedOutboundIntent :=
  { queued | queued ∈ queue }

section Model

variable {Group : Type}

/-- **What a move does to the set of intents that wait**: one is queued, or taken out when it was
handed over. -/
def Move.outstanding (waiting : Set QueuedOutboundIntent) : Move Group → Set QueuedOutboundIntent
  | .enqueue queued => insert queued { other ∈ waiting | other.id ≠ queued.id }
  | .dequeue id => { other ∈ waiting | other.id ≠ id }
  | _ => waiting

/-- The intents that wait after the moves of a session. -/
def outstandingAfter (waiting : Set QueuedOutboundIntent)
    (moves : List (Engine Group × Move Group)) : Set QueuedOutboundIntent :=
  moves.foldl (fun waiting step => step.2.outstanding waiting) waiting

/-- **When a rollback keeps the queue.** The anchor that a pass starts from has no intent that was
handed over since, and the snapshot of a fork recovery has the intents that wait. -/
def Move.KeepsQueue (mls : OpenMls Group) (engine : Engine Group) : Move Group → Prop
  | .converge _ =>
    ∀ snapshot ∈ engine.storage.anchor (engine.passStart mls),
      engine.passStart mls < engine.storage.live.epoch →
        snapshot.queue.map QueuedOutboundIntent.id ⊆
          engine.storage.live.queue.map QueuedOutboundIntent.id
  | .recover _ record =>
    ∀ snapshot ∈ engine.storage.snapshots record.snapshotName,
      snapshot.queue ⊆ engine.storage.live.queue ∧ engine.storage.live.queue ⊆ snapshot.queue
  | _ => True

instance (mls : OpenMls Group) (engine : Engine Group) (move : Move Group) :
    Decidable (move.KeepsQueue mls engine) :=
  match move with
  | .converge _ =>
    inferInstanceAs (Decidable (∀ snapshot ∈ engine.storage.anchor (engine.passStart mls),
      engine.passStart mls < engine.storage.live.epoch →
        snapshot.queue.map QueuedOutboundIntent.id ⊆
          engine.storage.live.queue.map QueuedOutboundIntent.id))
  | .recover _ record =>
    inferInstanceAs (Decidable (∀ snapshot ∈ engine.storage.snapshots record.snapshotName,
      snapshot.queue ⊆ engine.storage.live.queue ∧ engine.storage.live.queue ⊆ snapshot.queue))
  | .persistTransport .. | .settle .. | .discard .. | .updateState .. | .buffer ..
  | .deliver .. | .applyCommit .. | .detectFork .. | .remember .. | .stage .. | .retain
  | .confirm | .abandon | .send .. | .enqueue .. | .dequeue .. | .restart => instDecidableTrue

end Model

section Queue

variable {Group : Type} {net : Ingress Group} {transport outbox : String → Prop}
  {engine : Engine Group}

/-! ### Rollbacks -/

/-- **What a pass does to the queue**: nothing, or it adds what the anchor has and the live queue has
not. -/
theorem Engine.SoundSession.passed_queue (laws : net.Laws)
    (sound : engine.SoundSession net transport) {nowMs : Nat}
    {reported : Except OpenMlsProjectionError CanonicalizationResult}
    {observed : List OpenMlsReplayObservation} {after : Engine Group}
    (effect : PassEffect net engine nowMs reported observed after) :
    after.storage.live.queue = engine.storage.live.queue ∨
      ∃ snapshot, engine.passStart net < engine.storage.live.epoch ∧
        engine.storage.anchor (engine.passStart net) = some snapshot ∧
        intents after.storage.live.queue = intents engine.storage.live.queue ∪
          { queued ∈ intents snapshot.queue |
            queued.id ∉ engine.storage.live.queue.map QueuedOutboundIntent.id } := by
  cases effect with
  | halted | refused | waiting | lost | idle => exact Or.inl rfl
  | failed _ _ same => rcases same with rfl | rfl <;> exact Or.inl rfl
  | @moved result group tip start path before after output decision quiet selected ended accepted
      reached proposals applications begins replayed delivers =>
    obtain ⟨_, _, named⟩ := sound.moved_start laws decision ended proposals replayed
    show (engine.storage.startingAt start).queue = _ ∨ ∃ snapshot, _ ∧ _ ∧
      intents (engine.storage.startingAt start).queue = _
    by_cases historical : start < engine.storage.live.epoch
    · cases anchored : engine.storage.anchor start with
      | none =>
        rw [GroupStorage.startingAt, if_pos historical, anchored]
        exact Or.inl rfl
      | some snapshot =>
        have here : start = engine.passStart net :=
          named historical (by rw [anchored]; rfl)
        refine Or.inr ⟨snapshot, here ▸ historical, here ▸ anchored, ?_⟩
        rw [startingAt_anchor historical anchored]
        ext queued
        exact (mem_foldl_put sound.live.queue (sound.snapshots _ snapshot anchored).1.queue).2 queued
    · rw [startingAt_live _ historical]
      exact Or.inl rfl

/-! ### Other moves -/

def Move.sparesQueue : Move Group → Bool
  | .enqueue _ | .dequeue _ | .converge _ | .recover .. => false
  | _ => true

theorem spared_queue {move : Move Group} (spares : move.sparesQueue)
    (allowed : move.Allowed net transport outbox engine) :
    (move.perform net engine).storage.live.queue = engine.storage.live.queue := by
  by_cases rows : move.writesRows
  · exact (Move.sameBooks rows).queue
  cases move with
  | discard message => exact (settleMessage_sameBooks net engine message _).queue
  | deliver message =>
    exact (settleMessage_sameBooks net engine message _).queue
  | applyCommit message =>
    obtain ⟨_, _, stored⟩ := persist_frame engine message.id
      (net.epoch engine.storage.live.mls) .created (.openmlsWire message)
    rw [Move.perform, Engine.applyStagedCommit, Engine.persistOpenmlsWireMessage, stored]
    dsimp only
    obtain ⟨_, updated⟩ := updateMessageState_frame _ message.id .processed
    rw [updated]
    show (Engine.pruneForkRecovery _).storage.live.queue = _
    rw [pruneForkRecovery_live]
    rfl
  | stage =>
    obtain ⟨_, _, _, _, _, _, _, staged⟩ := stageCommit_cases allowed.staged
    rw [staged]
    rfl
  | confirm =>
    obtain ⟨_, _, _, _, _, _, _, _, confirmed⟩ := confirmPublished_cases allowed.confirmed
    rw [confirmed, pruneForkRecovery_live]
    rfl
  | abandon =>
    rw [Move.perform, Engine.abandonPublish]
    split <;> rfl
  | retain | restart => rfl
  | enqueue | dequeue | converge | recover => cases spares
  | _ => exact absurd rfl rows

/-! ### Sessions -/

/-- **A move does to the queue what it does to the abstract queue**, unless it goes back to a snapshot
with other intents. -/
theorem Engine.SoundSession.perform_queue (laws : net.Laws)
    (sound : engine.SoundSession net transport) {move : Move Group}
    (allowed : move.Allowed net transport outbox engine) (keeps : move.KeepsQueue net engine) :
    intents (move.perform net engine).storage.live.queue =
      move.outstanding (intents engine.storage.live.queue) := by
  by_cases spares : move.sparesQueue
  · rw [spared_queue spares allowed]
    cases move <;> first | rfl | cases spares
  cases move with
  | enqueue =>
    ext other
    exact mem_put sound.live.queue
  | dequeue =>
    ext other
    simp [Move.perform, Engine.withQueue, Move.outstanding, intents]
  | converge nowMs =>
    rcases sound.passed_queue laws (sound.converge_cases laws.toEpochLaws nowMs) with
      same | ⟨snapshot, historical, anchored, restored⟩
    · exact congrArg intents same
    · refine restored.trans (Set.union_eq_left.mpr fun queued member => ?_)
      have waits := keeps snapshot anchored historical (List.mem_map_of_mem member.1)
      exact absurd waits member.2
  | recover =>
    obtain ⟨snapshot, _, _, stored, recovered⟩ := allowed.recovered
    rw [recovered]
    exact Set.Subset.antisymm_iff.mpr (keeps snapshot stored)
  | _ => exact absurd rfl spares

/-- **The queue over a session.** In every session whose rollbacks keep the queue, the queue is the set
of the intents that were queued and not handed over, before every move and at the end. -/
theorem queue_exact {steps : List SessionStep} (laws : net.Laws)
    (sound : engine.SoundSession net transport)
    (named : ∀ step ∈ steps, step.Names transport outbox)
    (keeps : ∀ step ∈ engine.moves net steps, step.2.KeepsQueue net step.1) :
    (∀ before state move after, engine.moves net steps = before ++ (state, move) :: after →
      intents state.storage.live.queue =
        outstandingAfter (intents engine.storage.live.queue) before) ∧
    intents (engine.session net steps).storage.live.queue =
      outstandingAfter (intents engine.storage.live.queue) (engine.moves net steps) := by
  obtain ⟨sounds, _⟩ := session_sound sound laws named
  have follows := session_follows net engine steps
  have agrees {moves : List (Engine Group × Move Group)} {last : Engine Group}
      (follows : Follows (Move.perform net) engine moves last)
      (within : ∀ step ∈ moves, step ∈ engine.moves net steps) :
      intents last.storage.live.queue =
        outstandingAfter (intents engine.storage.live.queue) moves := by
    refine follows.invariant (fun waiting step => step.2.outstanding waiting)
      (fun waiting state => intents state.storage.live.queue = waiting) rfl ?_
    intro before step after split holds
    have member : step ∈ engine.moves net steps := within step (by simp [split])
    obtain ⟨isSound, allowed⟩ := sounds step member
    rw [isSound.perform_queue laws allowed (keeps step member), holds]
  refine ⟨fun before state move after here => ?_, agrees follows fun _ member => member⟩
  rw [here] at follows
  exact agrees follows.until fun step member => by simp [here, member]

end Queue

/-! ### Intents that come back -/

def symbolicIntent (id : String) : QueuedOutboundIntent := ⟨id, [], 0⟩

/-- An intent is queued, the group takes a commit, the intent is handed over, and a competing commit
wins. -/
def drainedSteps : List SessionStep :=
  [.enqueue (symbolicIntent "drained"), ingestSymbolic "first" [0, 2], .advance 1000,
    .dequeue "drained", ingestSymbolic "second" [0, 1]]

/-- An intent is queued and the client publishes a commit; the intent is handed over, another one is
queued, and a competing commit wins. -/
def recoveredSteps : List SessionStep :=
  [.enqueue (symbolicIntent "drained"), stageSymbolicCommit "own" 9 [], .confirmPublished 0,
    .dequeue "drained", .enqueue (symbolicIntent "queued"), ingestSymbolic "second" [0, 1]]

/-- A reorg brings an intent back that was handed over. A fork recovery does, and loses the intent that
was queued after the snapshot. -/
theorem drained_intent_returns :
    ((symbolicEngine []).session (symbolicIngress []) drainedSteps).storage.live.queue = [] ∧
      ((symbolicEngine []).session (symbolicIngress [])
          (drainedSteps ++ [.advance 2000])).storage.live.queue = [symbolicIntent "drained"] ∧
      ((symbolicEngine [9]).session (symbolicIngress [9])
          recoveredSteps).storage.live.queue = [symbolicIntent "drained"] := by
  decide +kernel

/-- The first session keeps the queue as long as the intent waits. -/
theorem waiting_intent_stays :
    intents ((symbolicEngine []).session (symbolicIngress [])
        [.enqueue (symbolicIntent "waiting"), ingestSymbolic "first" [0, 2], .advance 1000,
          ingestSymbolic "second" [0, 1], .advance 2000]).storage.live.queue =
      outstandingAfter (intents [])
        ((symbolicEngine []).moves (symbolicIngress [])
          [.enqueue (symbolicIntent "waiting"), ingestSymbolic "first" [0, 2], .advance 1000,
            ingestSymbolic "second" [0, 1], .advance 2000]) :=
  (queue_exact (symbolicIngress_laws []) (symbolicEngine_soundSession [] fun _ => True)
    (fun step _ => step.names_any) (by decide +kernel)).2

end Darkmatter
