/-
**The commits that a fork is resolved against.**

For every epoch that the client saw a commit merged from outside convergence, the engine remembers
the commit and the state before it: the incumbent of the epoch. A late commit of that epoch is
compared with it, and when it wins the group goes back to the remembered state. That is right as long
as the incumbents lie on the branch that is applied:

* `OnApplied` — an incumbent and its snapshot lie on the applied branch;
* `Move.KeepsIncumbents` — a pass that agrees with the applied branch up to every incumbent, and a
  recovery below which nothing is left behind;
* `FollowsBranch.perform` — **such moves keep the incumbents on the applied branch**, and so do all
  the others;
* `incumbents_canonical` — the incumbents of a session of such moves.
-/

import Darkmatter.Engine.Branches
import Darkmatter.Engine.Runs

namespace Darkmatter

open Std Lib List

section Incumbents

variable {Group : Type} {net : Ingress Group} {transport outbox : String → Prop}
  {engine : Engine Group} (branching : net.toOpenMls.Branching)

/-! ### Incumbents on the applied branch -/

/-- The commit of a record follows, on the applied branch, the state of its snapshot. -/
def OnApplied (storage : GroupStorage Group) (record : CommitRecoveryRecord) : Prop :=
  ∃ bytes snapshot, storage.snapshots record.snapshotName = some snapshot ∧
    record.orderingKey.commitDigest = net.sha256 bytes ∧
    branching.branch snapshot.mls ++ [bytes] <+: branching.branch storage.live.mls

/-- **The incumbents lie on the applied branch**, and a commit that waits for its publication was made
on the state of the group. -/
structure Engine.FollowsBranch (engine : Engine Group) : Prop where
  incumbents : ∀ record ∈ engine.incumbents, OnApplied branching engine.storage record
  pending : ∀ pending, engine.pendingCommit = some pending →
    pending.record.orderingKey.commitDigest = net.sha256 pending.bytes ∧
      ∃ snapshot, engine.storage.snapshots pending.record.snapshotName = some snapshot ∧
        branching.branch snapshot.mls = branching.branch engine.storage.live.mls

/-- **Every incumbent below the tip is the commit of its epoch on the applied branch**, and its
snapshot is the state that the branch had there. -/
def Engine.IncumbentsCanonical (engine : Engine Group) : Prop :=
  ∀ record ∈ engine.incumbents, record.sourceEpoch < net.epoch engine.storage.live.mls →
    ∃ bytes snapshot,
      (branching.branch engine.storage.live.mls)[record.sourceEpoch - branching.base]? =
        some bytes ∧
      record.orderingKey.commitDigest = net.sha256 bytes ∧
      engine.storage.snapshots record.snapshotName = some snapshot ∧
      branching.branch snapshot.mls =
        (branching.branch engine.storage.live.mls).take (record.sourceEpoch - branching.base)

/-- **When a move keeps the incumbents.** The commits that a pass selects, after those of the state it
starts from, agree with the applied branch up to every incumbent; a recovery goes back to the epoch of
the last incumbent. -/
def Move.KeepsIncumbents (engine : Engine Group) : Move Group → Prop
  | .converge nowMs =>
    ∀ tip, engine.aim net (.converge nowMs) = some tip →
      ∀ record ∈ engine.incumbents,
        (branching.branch engine.storage.live.mls).take
            (record.sourceEpoch + 1 - branching.base) <+:
          branching.branch (engine.storage.startingAt (engine.passStart net)).mls ++
            engine.selectedCommits net nowMs
  | .recover _ record => ∀ other ∈ engine.incumbents, other.sourceEpoch ≤ record.sourceEpoch
  | _ => True

/-- The condition as a check. -/
def Move.keepsIncumbents (engine : Engine Group) : Move Group → Bool
  | .converge nowMs =>
    (engine.aim net (.converge nowMs)).isNone || engine.incumbents.all fun record =>
      ((branching.branch engine.storage.live.mls).take
        (record.sourceEpoch + 1 - branching.base)).isPrefixOf
          (branching.branch (engine.storage.startingAt (engine.passStart net)).mls ++
            engine.selectedCommits net nowMs)
  | .recover _ record =>
    engine.incumbents.all fun other => Nat.ble other.sourceEpoch record.sourceEpoch
  | _ => true

variable {branching} {storage : GroupStorage Group} {record : CommitRecoveryRecord}
  {snapshot : GroupSnapshot Group} {after : Engine Group} {move : Move Group} {nowMs : Nat}
  {message : TransportMessage} {priority : CommitOrderingPriority} {committer : Bytes}

theorem Move.keepsIncumbents.sound (checked : move.keepsIncumbents branching engine) :
    move.KeepsIncumbents branching engine := by
  cases move with
  | converge nowMs =>
    intro tip aims record member
    rw [keepsIncumbents, aims] at checked
    exact isPrefixOf_iff_prefix.mp (all_eq_true.mp checked record member)
  | recover => exact fun other member => Nat.le_of_ble_eq_true (all_eq_true.mp checked other member)
  | _ => trivial

theorem OnApplied.mono {after : GroupStorage Group} (applied : OnApplied branching storage record)
    (same : after.snapshots record.snapshotName = storage.snapshots record.snapshotName)
    (grows : branching.branch storage.live.mls <+: branching.branch after.live.mls) :
    OnApplied branching after record := by
  obtain ⟨bytes, snapshot, stored, named, within⟩ := applied
  exact ⟨bytes, snapshot, same.trans stored, named, within.trans grows⟩

/-- The state of the snapshot of an incumbent is of the epoch of the incumbent. -/
theorem recovery_length (branching : net.toOpenMls.Branching)
    (sound : engine.SoundSession net transport) (member : record ∈ engine.incumbents)
    (stored : engine.storage.snapshots record.snapshotName = some snapshot) :
    record.sourceEpoch = branching.base + (branching.branch snapshot.mls).length := by
  obtain ⟨_, -, named, -⟩ := sound.incumbents record member
  obtain ⟨captured, epoch⟩ := sound.snapshots _ snapshot stored
  rw [named] at epoch
  rw [← branching.epoch, ← captured.epoch, epoch]
  rfl

/-- The incumbents are kept under names of their own. -/
def Engine.NamesRecoveries (engine : Engine Group) : Prop :=
  ∀ record ∈ engine.incumbents, ∃ counter ≤ engine.snapshotCounter,
    record.snapshotName = .forkRecovery record.sourceEpoch counter

theorem Engine.SoundSession.namesRecoveries (sound : engine.SoundSession net transport) :
    engine.NamesRecoveries := by
  intro record member
  obtain ⟨counter, bounded, named, -⟩ := sound.incumbents record member
  exact ⟨counter, bounded, named⟩

section Steps

variable (follows : engine.FollowsBranch branching)

include follows

namespace Engine.FollowsBranch

theorem pruned (names : engine.NamesRecoveries) (unpending : engine.pendingCommit = none) :
    engine.pruneForkRecovery.FollowsBranch branching := by
  obtain ⟨_, snapshots⟩ := release_snapshots
    (engine.incumbents.filter fun record => record.sourceEpoch <
      engine.storage.live.epoch - engine.policy.convergence.maxRewindCommits) engine.storage
  refine ⟨fun record member => ?_, fun pending waits => ?_⟩
  · obtain ⟨known, isKept⟩ := mem_filter.mp member
    refine (follows.incumbents record known).mono ?_ (by rw [pruneForkRecovery_live])
    rw [Engine.pruneForkRecovery]
    dsimp only
    rw [snapshots, if_neg]
    intro released
    obtain ⟨stale, isStale, named⟩ := mem_map.mp released
    obtain ⟨other, older⟩ := mem_filter.mp isStale
    obtain ⟨_, _, name⟩ := names stale other
    obtain ⟨_, _, name'⟩ := names record known
    rw [name, name'] at named
    injection named with same
    simp only [decide_eq_true_eq] at older isKept
    omega
  · rw [Engine.pruneForkRecovery, unpending] at waits
    cases waits

/-- **A commit is merged**: the commit that the state before it was captured for. -/
theorem merged (names : engine.NamesRecoveries) {bytes : Bytes} {counter sourceCounter : Nat}
    {epochState : EpochState} {events : List GroupEvent} (kept : ∀ other ∈ engine.incumbents,
      storage.snapshots other.snapshotName = engine.storage.snapshots other.snapshotName)
    (captured : storage.snapshots record.snapshotName = some snapshot)
    (digest : record.orderingKey.commitDigest = net.sha256 bytes)
    (before : branching.branch snapshot.mls = branching.branch engine.storage.live.mls)
    (after : branching.branch storage.live.mls = branching.branch engine.storage.live.mls ++ [bytes])
    (named : record.snapshotName = .forkRecovery record.sourceEpoch sourceCounter)
    (bounded : sourceCounter ≤ counter) (later : engine.snapshotCounter ≤ counter) :
    ((({ engine with
      storage, epochState, events, pendingCommit := none, snapshotCounter := counter } :
        Engine Group).recordApplied record).pruneForkRecovery).FollowsBranch branching := by
  refine pruned ⟨?_, by rintro pending ⟨⟩⟩ ?_ rfl
  · intro other member
    rcases mem_cons.mp member with rfl | old
    · exact ⟨bytes, snapshot, captured, digest, by rw [before]; exact after.symm ▸ prefix_rfl⟩
    · have known := (mem_filter.mp old).1
      exact (follows.incumbents other known).mono (kept other known)
        (after.symm ▸ prefix_append _ _)
  · intro other member
    rcases mem_cons.mp member with rfl | old
    · exact ⟨sourceCounter, bounded, named⟩
    · obtain ⟨older, within, name⟩ := names other (mem_filter.mp old).1
      exact ⟨older, within.trans later, name⟩

variable (sound : engine.SoundSession net transport)

include sound

theorem canonical : engine.IncumbentsCanonical branching := by
  intro record member _
  obtain ⟨bytes, snapshot, stored, named, within⟩ := follows.incumbents record member
  have length := recovery_length branching sound member stored
  have offset : record.sourceEpoch - branching.base = (branching.branch snapshot.mls).length := by
    omega
  obtain ⟨_, applied⟩ := within
  refine ⟨bytes, snapshot, ?_, named, stored, ?_⟩
  · rw [offset, ← applied, append_assoc]
    simp
  · rw [offset, ← applied, append_assoc, take_left]

/-! ### Moves that change neither -/

theorem frame (kept : engine.SameRecoveries after)
    (branch : branching.branch after.storage.live.mls =
      branching.branch engine.storage.live.mls) : after.FollowsBranch branching where
  incumbents record member := by
    rw [kept.incumbents] at member
    obtain ⟨_, -, named, -⟩ := sound.incumbents record member
    refine (follows.incumbents record member).mono ?_ (by rw [branch])
    rw [named, kept.snapshots]
  pending pending waits := by
    rw [kept.pendingCommit] at waits
    obtain ⟨-, -, -, _, ⟨-, named, -⟩, -⟩ := sound.pending pending waits
    obtain ⟨digest, snapshot, stored, same⟩ := follows.pending pending waits
    refine ⟨digest, snapshot, ?_, same.trans branch.symm⟩
    rw [named] at stored ⊢
    rw [kept.snapshots, stored]

/-- **A pass that agrees with the applied branch up to every incumbent** keeps them on it. -/
theorem passed (laws : net.Laws) (unpending : engine.pendingCommit = none)
    (keeps : (Move.converge nowMs).KeepsIncumbents branching engine) :
    ((Move.converge nowMs).perform net engine).FollowsBranch branching := by
  have kept : engine.SameRecoveries ((Move.converge nowMs).perform net engine) :=
    sound.sameRecoveries laws rfl
  refine ⟨fun record member => ?_, fun pending waits => ?_⟩
  swap
  · rw [kept.pendingCommit, unpending] at waits
    cases waits
  rw [kept.incumbents] at member
  obtain ⟨_, -, named, -⟩ := sound.incumbents record member
  obtain ⟨bytes, snapshot, stored, digest, within⟩ := follows.incumbents record member
  have length := recovery_length branching sound member stored
  have prior : branching.branch snapshot.mls ++ [bytes] =
      (branching.branch engine.storage.live.mls).take (record.sourceEpoch + 1 - branching.base) := by
    rw [prefix_iff_eq_take.mp within, length_append, length]
    congr 1
    simp only [length_singleton]
    omega
  refine ⟨bytes, snapshot, ?_, digest, ?_⟩
  · rw [named] at stored ⊢
    rw [kept.snapshots, stored]
  have effect := sound.converge_cases laws.toEpochLaws nowMs
  rw [Move.perform]
  generalize convergeStoredOpenmlsMessages net engine nowMs = ended at effect ⊢
  generalize engine.passObservations net nowMs = observed at effect
  obtain ⟨_, after⟩ := ended
  dsimp only at effect ⊢
  cases effect with
  | halted | refused | waiting | lost | idle => exact within
  | failed decision quiet same => rcases same with rfl | rfl <;> exact within
  | @moved result group selected start path before after output decision quiet isSelected ended
      accepted reached proposals applications begins replayed delivers =>
    obtain ⟨base, -, -⟩ := sound.moved_start laws decision ended proposals replayed
    have agrees := keeps selected ((aim_eq_selected decision quiet).trans isSelected) record member
    have branch : branching.branch output.group = branching.branch group ++
        path.messages.map TransportMessage.payload := by
      rw [(branching.replayed replayed).1, base,
        commitsOf_path sound.live.rows ended proposals applications]
    show _ <+: branching.branch output.group
    rw [branch, prior, ← selectedCommits_eq sound.live.rows decision ended accepted]
    rw [decision.startingAt_mls] at agrees
    exact agrees

/-! ### Moves that change the register -/

theorem confirmed (isConfirmed : confirmPublished net engine = some after) :
    after.FollowsBranch branching := by
  obtain ⟨pending, _, _, _, waits, _, isMerged, _, rfl⟩ := confirmPublished_cases isConfirmed
  obtain ⟨-, _, -, _, ⟨bounded, named, -⟩, -⟩ := sound.pending pending waits
  obtain ⟨digest, snapshot, stored, same⟩ := follows.pending pending waits
  have captured : (engine.storage.retainCurrentGroupEpochSnapshot
      engine.policy.convergence.maxRewindCommits).snapshots pending.record.snapshotName =
        some snapshot := by
    rw [named] at stored ⊢
    exact stored
  refine follows.merged sound.namesRecoveries ?_ ?_ digest same (branching.merged isMerged).2.2.1
    named bounded le_rfl
  · intro other member
    obtain ⟨_, _, name⟩ := sound.namesRecoveries other member
    rw [name]
    rfl
  · rw [named] at captured ⊢
    exact captured

theorem committed {protocol : ProtocolMessage} {merged : Group}
    {refs : List String} (admits : engine.Admits net message protocol)
    (staged : net.processCommit engine.storage.live.mls message.payload =
      .staged priority committer refs merged) (recovery : Option PendingRecovery) :
    (engine.applyStagedCommit net message priority committer merged
      recovery).FollowsBranch branching := by
  have unpending := sound.unpending admits.ready
  rw [Engine.applyStagedCommit, admits.fresh.persisted]
  dsimp only
  obtain ⟨_, updated⟩ := updateMessageState_frame _ message.id .processed
  rw [updated]
  let stored := (engine.putMessage ⟨message.id, engine.groupId, net.epoch engine.storage.live.mls,
    .created, .openmlsWire message⟩).storage
  let record : CommitRecoveryRecord :=
    { sourceEpoch := net.epoch engine.storage.live.mls
      orderingKey := ⟨net.epoch engine.storage.live.mls, priority, committer,
        net.sha256 message.payload⟩
      storageId := message.id
      snapshotName := .forkRecovery (net.epoch engine.storage.live.mls)
        (engine.snapshotCounter + 1) }
  let retained := (stored.createGroupSnapshot record.snapshotName).retainCurrentGroupEpochSnapshot
    engine.policy.convergence.maxRewindCommits
  let storage : GroupStorage Group :=
    { retained with live := { retained.live with mls := merged, epoch := net.epoch merged } }
  have kept (other : CommitRecoveryRecord) (member : other ∈ engine.incumbents) :
      storage.snapshots other.snapshotName = engine.storage.snapshots other.snapshotName := by
    obtain ⟨_, _, named⟩ := sound.namesRecoveries other member
    rw [named]
    refine if_neg fun same => ?_
    injection same with _ sameCounter
    omega
  have captured : storage.snapshots record.snapshotName = some stored.live := if_pos rfl
  have base : ((({ engine with
      storage
      epochState := .stable (net.epoch merged)
      pendingCommit := none
      snapshotCounter := engine.snapshotCounter + 1 } : Engine Group).recordApplied
        record).pruneForkRecovery).FollowsBranch branching :=
    follows.merged sound.namesRecoveries kept captured rfl rfl (branching.staged staged).2.2.1 rfl
      le_rfl (Nat.le_succ _)
  exact ⟨base.incumbents, fun _ waits =>
    absurd (waits.symm.trans unpending) (Option.some_ne_none _)⟩

theorem staged {mlsBytes : Bytes}
    (isStaged : stageCommit net engine message mlsBytes priority committer =
      some after) : after.FollowsBranch branching := by
  obtain ⟨_, _, _, _, _, _, _, rfl⟩ := stageCommit_cases isStaged
  refine ⟨fun record member => ?_, ?_⟩
  · obtain ⟨_, _, named⟩ := sound.namesRecoveries record member
    refine (follows.incumbents record member).mono (if_neg ?_) prefix_rfl
    rw [named]
    intro same
    injection same with _ sameCounter
    omega
  · rintro _ ⟨⟩
    exact ⟨rfl, engine.storage.live, if_pos rfl, rfl⟩

/-- A recovery goes back to a state of the applied branch, with the incumbents below it. -/
theorem recovered (unpending : engine.pendingCommit = none) (member : record ∈ engine.incumbents)
    (stored : engine.storage.snapshots record.snapshotName = some snapshot)
    (keeps : (Move.recover message record).KeepsIncumbents branching engine) :
    (engine.resolveForCandidate net message record).FollowsBranch branching := by
  obtain ⟨_, _, rolledBack, -⟩ :=
    resolveForCandidate_frame net message stored
  rw [rolledBack]
  obtain ⟨_, _, named⟩ := sound.namesRecoveries record member
  obtain ⟨_, _, stored', _, within⟩ := follows.incumbents record member
  cases stored.symm.trans stored'
  have length := recovery_length branching sound member stored
  refine ⟨fun other kept => ?_, fun pending waits => ?_⟩
  · obtain ⟨known, differs⟩ := mem_filter.mp kept
    obtain ⟨_, _, name⟩ := sound.namesRecoveries other known
    obtain ⟨bytes, captured, isCaptured, digest, onBranch⟩ := follows.incumbents other known
    have otherLength := recovery_length branching sound known isCaptured
    have below := keeps other known
    refine ⟨bytes, captured, ?_, digest, ?_⟩
    · refine Eq.trans (if_neg ?_) isCaptured
      rw [named, name]
      intro same
      injection same with sameEpoch
      simp [sameEpoch] at differs
    · -- Both states are on the branch that was applied, and this one is below the other.
      show _ <+: branching.branch snapshot.mls
      refine prefix_of_prefix_length_le onBranch
        ((prefix_append _ _).trans within) ?_
      have strict : other.sourceEpoch ≠ record.sourceEpoch := by simpa using differs
      rw [length_append, length_singleton]
      omega
  · cases unpending.symm.trans waits

theorem abandoned : (engine.abandonPublish net).FollowsBranch branching := by
  rw [Engine.abandonPublish]
  split
  · exact follows
  rename_i pending waits
  obtain ⟨-, -, -, _, ⟨-, named, -⟩, older⟩ := sound.pending pending waits
  refine ⟨fun record member => ?_, by rintro pending ⟨⟩⟩
  obtain ⟨_, _, -, name, -⟩ := older record member
  refine (follows.incumbents record member).mono (if_neg ?_) prefix_rfl
  rw [name, named]
  intro same
  injection same with _ sameCounter
  omega

/-- **An allowed move that keeps the incumbents** leaves them on the applied branch. -/
theorem perform (laws : net.Laws) (allowed : move.Allowed net transport outbox engine)
    (keeps : move.KeepsIncumbents branching engine) :
    (move.perform net engine).FollowsBranch branching := by
  have framed (spares : move.sparesRegister)
      (branch : branching.branch (move.perform net engine).storage.live.mls =
        branching.branch engine.storage.live.mls) :=
    follows.frame sound (sound.sameRecoveries laws spares) branch
  by_cases rows : move.writesRows
  · refine framed ?_ (congrArg _ (Move.sameBooks rows).mls)
    cases move <;> first | rfl | cases rows
  cases move with
  | discard =>
    obtain ⟨_, _, ignored⟩ := allowed
    exact framed rfl (branching.applicationIgnored ignored)
  | deliver =>
    exact framed rfl (branching.applicationProcessed allowed.2)
  | retain | enqueue | dequeue => exact framed rfl rfl
  | converge => exact follows.passed sound laws (sound.unpended_iff.mpr allowed) keeps
  | applyCommit message priority committer merged recovery =>
    obtain ⟨_, _, admits, staged, _⟩ := allowed
    exact follows.committed sound admits staged recovery
  | recover =>
    obtain ⟨admits, member, _, _, _, _, _, stored, _⟩ := allowed
    exact follows.recovered sound (sound.unpending admits.ready) member stored keeps
  | stage =>
    exact follows.staged sound allowed.staged
  | confirm => exact follows.confirmed sound allowed.confirmed
  | abandon => exact follows.abandoned sound
  | restart => exact ⟨by rintro record ⟨⟩, by rintro pending ⟨⟩⟩
  | _ => exact absurd rfl rows

/-! ### Sessions -/

end Engine.FollowsBranch

end Steps

/-- **The incumbents of a session follow the applied branch**, when every pass agrees with it up to
the incumbents and every recovery goes back to the last of them. -/
theorem incumbents_canonical {steps : List SessionStep} (laws : net.Laws)
    (sound : engine.SoundSession net transport)
    (named : ∀ step ∈ steps, step.Names transport outbox) (fresh : engine.incumbents = [])
    (unpending : engine.pendingCommit = none)
    (keeps : ∀ step ∈ engine.moves net steps, step.2.KeepsIncumbents branching step.1) :
    (engine.session net steps).IncumbentsCanonical branching := by
  obtain ⟨moves, ended⟩ := session_sound sound laws named
  have initial : engine.FollowsBranch branching := by
    refine ⟨fun record member => ?_, fun pending waits => ?_⟩
    · rw [fresh] at member
      cases member
    · rw [unpending] at waits
      cases waits
  have follows := (session_follows net engine steps).keeps (Engine.FollowsBranch branching) initial
    fun step member follows =>
      follows.perform (moves step member).1 laws (moves step member).2 (keeps step member)
  exact follows.canonical ended

end Incumbents

/-! ### Incumbents of a branch that lost -/

/-- Two commits of the client; a commit beats the first of them, and the group goes on from there. -/
def overtakenSteps : List SessionStep :=
  [stageSymbolicCommit "first" 9 [], .confirmPublished 0, stageSymbolicCommit "second" 8 [9],
    .confirmPublished 0, ingestSymbolic "winner" [0, 2], ingestSymbolic "next" [0, 3, 2],
    .advance 1000]

/-- The client commits on a commit that then loses in a convergence pass, and the group goes on. -/
def reorganizedSteps : List SessionStep :=
  [ingestSymbolic "loser" [0, 4], .advance 1000, stageSymbolicCommit "own" 9 [4],
    .confirmPublished 0, ingestSymbolic "winner" [0, 2], .advance 2000,
    ingestSymbolic "next" [0, 3, 2], .advance 4000]

theorem not_canonical {own : List UInt8} {engine : Engine SymbolicGroup}
    {record : CommitRecoveryRecord} (member : record ∈ engine.incumbents)
    (below : record.sourceEpoch < engine.storage.live.mls.length)
    (other : (symbolicBranch engine.storage.live.mls)[record.sourceEpoch]? ≠
      some record.orderingKey.commitDigest) :
    ¬ @Engine.IncumbentsCanonical _ (symbolicIngress own) (symbolicBranching own) engine := by
  intro canonical
  obtain ⟨_, _, onBranch, digest, _⟩ := canonical record member below
  exact other (onBranch.trans (congrArg some digest.symm))

/-- **A recovery and a convergence pass leave an incumbent of the branch that lost.** -/
theorem incumbents_left_behind :
    (∃ record ∈ ((symbolicEngine [8, 9]).session (symbolicIngress [8, 9])
        overtakenSteps).incumbents,
      record.sourceEpoch = 1 ∧ record.orderingKey.commitDigest = [0, 8, 9]) ∧
    ((symbolicEngine [8, 9]).session (symbolicIngress [8, 9])
      overtakenSteps).storage.live.mls = [3, 2] ∧
    (∃ record ∈ ((symbolicEngine [9]).session (symbolicIngress [9]) reorganizedSteps).incumbents,
      record.sourceEpoch = 1 ∧ record.orderingKey.commitDigest = [0, 9, 4]) ∧
    ((symbolicEngine [9]).session (symbolicIngress [9]) reorganizedSteps).storage.live.mls =
      [3, 2] ∧
    ¬ @Engine.IncumbentsCanonical _ (symbolicIngress [8, 9]) (symbolicBranching [8, 9])
      ((symbolicEngine [8, 9]).session (symbolicIngress [8, 9]) overtakenSteps) ∧
    ¬ @Engine.IncumbentsCanonical _ (symbolicIngress [9]) (symbolicBranching [9])
      ((symbolicEngine [9]).session (symbolicIngress [9]) reorganizedSteps) := by
  have overtaken : ∃ record ∈ ((symbolicEngine [8, 9]).session (symbolicIngress [8, 9])
      overtakenSteps).incumbents,
      record.sourceEpoch = 1 ∧ record.orderingKey.commitDigest = [0, 8, 9] := by decide +kernel
  have recovered : ((symbolicEngine [8, 9]).session (symbolicIngress [8, 9])
      overtakenSteps).storage.live.mls = [3, 2] := by decide +kernel
  have reorganized : ∃ record ∈ ((symbolicEngine [9]).session (symbolicIngress [9])
      reorganizedSteps).incumbents,
      record.sourceEpoch = 1 ∧ record.orderingKey.commitDigest = [0, 9, 4] := by decide +kernel
  have passed : ((symbolicEngine [9]).session (symbolicIngress [9])
      reorganizedSteps).storage.live.mls = [3, 2] := by decide +kernel
  refine ⟨overtaken, recovered, reorganized, passed, ?_, ?_⟩
  · obtain ⟨record, member, epoch, digest⟩ := overtaken
    refine not_canonical member ?_ ?_
    · rw [recovered, epoch]
      decide
    · rw [recovered, epoch, digest]
      decide
  · obtain ⟨record, member, epoch, digest⟩ := reorganized
    refine not_canonical member ?_ ?_
    · rw [passed, epoch]
      decide
    · rw [passed, epoch, digest]
      decide

/-- A commit of the client is beaten by another one of its epoch. A pass goes on from there, and the
client commits again. -/
def regainedSteps : List SessionStep :=
  [stageSymbolicCommit "first" 9 [], .confirmPublished 0, ingestSymbolic "winner" [0, 2],
    ingestSymbolic "next" [0, 3, 2], .advance 1000, stageSymbolicCommit "second" 8 [3, 2],
    .confirmPublished 1000]

theorem recovered_incumbents_canonical :
    ((symbolicEngine [8, 9]).session (symbolicIngress [8, 9])
        (regainedSteps.take 2)).storage.live.mls = [9] ∧
      ((symbolicEngine [8, 9]).session (symbolicIngress [8, 9]) regainedSteps).storage.live.mls =
        [8, 3, 2] ∧
      ((symbolicEngine [8, 9]).session (symbolicIngress [8, 9]) regainedSteps).incumbents.map
        CommitRecoveryRecord.sourceEpoch = [2, 0] ∧
      @Engine.IncumbentsCanonical _ (symbolicIngress [8, 9]) (symbolicBranching [8, 9])
        ((symbolicEngine [8, 9]).session (symbolicIngress [8, 9]) regainedSteps) := by
  refine ⟨by decide +kernel, by decide +kernel, by decide +kernel,
    incumbents_canonical (symbolicIngress_laws [8, 9])
      (symbolicEngine_soundSession [8, 9] fun _ => True) (fun step _ => step.names_any) rfl rfl ?_⟩
  have keeps : ((symbolicEngine [8, 9]).moves (symbolicIngress [8, 9]) regainedSteps).all
      fun step => @Move.keepsIncumbents _ (symbolicIngress [8, 9]) (symbolicBranching [8, 9]) step.1
        step.2 := by decide +kernel
  exact fun step member => Move.keepsIncumbents.sound (all_eq_true.mp keeps step member)

end Darkmatter
