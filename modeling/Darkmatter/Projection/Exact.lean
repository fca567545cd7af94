/-
**The search for candidate paths is exact.**

Without pending proposals, and with any number of stored copies of a commit:

* `buildReplays_le` — the search never replays more often than its budget allows;
* `searchLevels_stable` — it ends with an empty level, never for want of levels;
* `build_contents_perm` — its outcome, read as branch ids and commit bytes, is the same for every
  order of the stored commits;
* `paths_exact` — **it fails on the budget or returns the maximal chains, each once.** Which of the
  stored copies of a commit stands in a path does depend on the order (`copies_by_order`).
-/

import Darkmatter.Projection.Chains
import Darkmatter.Lib.Checks

namespace Darkmatter

open Std Lib OpenMls StoredOpenMlsCandidatePathResult List

/-! ### Counting replays -/

namespace OpenMls

variable {Group : Type} (mls : OpenMls Group) (group : Group)

def materializePathsReplays : List OpenMlsCandidatePath → ReplayBudget → Nat
  | [], _ => 0
  | path :: rest, budget =>
    if path.messages = [] then
      0
    else
      match budget.consume with
      | none => 0
      | some budget =>
        1 + match mls.materializeOpenmlsCandidatePath group path with
          | .error _ => 0
          | .ok _ => materializePathsReplays rest budget

def probeReplays (messages : List TransportMessage) (digests : List Bytes)
    (pendingProposals : List TransportMessage) (budget : ReplayBudget) : Nat :=
  let path : OpenMlsCandidatePath := ⟨mls.branchIdForPathDigests digests, messages⟩
  match mls.candidatePathsWithPendingReplayMessages [path] pendingProposals with
  | .error _ => 0
  | .ok replayPaths => mls.materializePathsReplays group replayPaths budget

def extendReplays (pendingProposals : List TransportMessage) (path : CandidatePathProbe) :
    PathSearch × Bool → StoredCommitMessage → Nat
  | (search, _), commit =>
    if commit.sourceEpoch ≠ path.tipEpoch ∨ commit.digest ∈ path.digests then
      0
    else if path.digests ++ [commit.digest] ∈ search.seenPaths then
      0
    else
      mls.probeReplays group (path.messages ++ [commit.message])
        (path.digests ++ [commit.digest]) pendingProposals search.budget

def expandReplays (pendingProposals : List TransportMessage) (commits : List StoredCommitMessage)
    (search : PathSearch) (path : CandidatePathProbe) : Nat :=
  loopCost (mls.extendPath group pendingProposals path)
    (mls.extendReplays group pendingProposals path) (search, false) commits

def levelsReplays (pendingProposals : List TransportMessage) (commits : List StoredCommitMessage) :
    Nat → List CandidatePathProbe → PathSearch → Nat
  | 0, _, _ => 0
  | _ + 1, [], _ => 0
  | levels + 1, path :: frontier, search =>
    loopCost (mls.expandPath group pendingProposals commits)
        (mls.expandReplays group pendingProposals commits) { search with nextFrontier := [] }
        (path :: frontier) +
      match (path :: frontier).foldlM (mls.expandPath group pendingProposals commits)
        { search with nextFrontier := [] } with
      | .error _ => 0
      | .ok search => levelsReplays pendingProposals commits levels search.nextFrontier search

end OpenMls

/-- **The replays of `buildStoredOpenmlsCandidatePaths`.** -/
def OpenMls.buildReplays {Group : Type} (mls : OpenMls Group) (group : Group)
    (commits : List StoredCommitMessage) (pendingMessages : List TransportMessage)
    (startingEpoch maxRewindCommits : Nat) : Nat :=
  match mls.pendingProposalMessages pendingMessages with
  | .error _ => 0
  | .ok pendingProposals =>
    mls.levelsReplays group pendingProposals (sortBy compareStoredCommits commits)
      (commits.length + 1) [⟨[], [], startingEpoch, none⟩] (.start commits.length maxRewindCommits)

variable {Group : Type} {mls : OpenMls Group}

section Replays

variable {group : Group} {pendingProposals : List TransportMessage}
  {commits : List StoredCommitMessage}

/-- Every replay is paid for, whether it succeeds or not. -/
theorem materializePaths_paid (paths : List OpenMlsCandidatePath) (budget : ReplayBudget) :
    mls.materializePathsReplays group paths budget +
        (mls.materializePaths group paths budget).2.remaining = budget.remaining := by
  induction paths generalizing budget with
  | nil => simp [OpenMls.materializePathsReplays, materializePaths]
  | cons path rest ih =>
    rw [OpenMls.materializePathsReplays, materializePaths]
    by_cases empty : path.messages = []
    · simp [empty]
    · rw [if_neg empty, if_neg empty, ReplayBudget.consume]
      by_cases spent : budget.remaining = 0
      · simp [spent]
      · have later := ih ⟨budget.remaining - 1⟩
        simp only [if_neg spent]
        cases mls.materializeOpenmlsCandidatePath group path with
        | error => dsimp only; omega
        | ok =>
          dsimp only at later ⊢
          split <;> rename_i ran <;> rw [ran] at later <;> dsimp only at later ⊢ <;> omega

theorem probe_paid (messages : List TransportMessage) (digests : List Bytes)
    (budget : ReplayBudget) :
    mls.probeReplays group messages digests pendingProposals budget +
        (mls.probeCandidatePath group messages digests pendingProposals budget).2.remaining =
      budget.remaining := by
  rw [OpenMls.probeReplays, probeCandidatePath]
  cases mls.candidatePathsWithPendingReplayMessages
      [⟨mls.branchIdForPathDigests digests, messages⟩] pendingProposals with
  | error e => simp
  | ok replayPaths =>
    have paid := @materializePaths_paid _ mls group replayPaths budget
    simp only [materializeOpenmlsCandidatePathsBudgeted]
    rcases ran : mls.materializePaths group replayPaths budget with ⟨outcome, _⟩
    rw [ran] at paid
    cases outcome with
    | ok => exact paid
    | error e => cases e <;> exact paid

theorem extendPath_paid (path : CandidatePathProbe) (state : PathSearch × Bool)
    (commit : StoredCommitMessage) :
    mls.extendReplays group pendingProposals path state commit ≤ state.1.budget.remaining ∧
      ∀ next, mls.extendPath group pendingProposals path state commit = .ok next →
        mls.extendReplays group pendingProposals path state commit + next.1.budget.remaining ≤
          state.1.budget.remaining := by
  obtain ⟨search, _⟩ := state
  rw [OpenMls.extendReplays, extendPath]
  by_cases skipped : commit.sourceEpoch ≠ path.tipEpoch ∨ commit.digest ∈ path.digests
  · rw [if_pos skipped, if_pos skipped]
    refine ⟨Nat.zero_le _, fun next ran => ?_⟩
    cases ran
    simp
  rw [if_neg skipped, if_neg skipped]
  by_cases seen : path.digests ++ [commit.digest] ∈ search.seenPaths
  · simp only [if_pos seen]
    refine ⟨Nat.zero_le _, fun next ran => ?_⟩
    cases ran
    simp
  · simp only [if_neg seen]
    have paid := @probe_paid _ mls group pendingProposals (path.messages ++ [commit.message])
      (path.digests ++ [commit.digest]) search.budget
    refine ⟨by omega, fun next ran => ?_⟩
    rcases probed : mls.probeCandidatePath group (path.messages ++ [commit.message])
      (path.digests ++ [commit.digest]) pendingProposals search.budget with ⟨outcome, after⟩
    rw [probed] at paid ran
    dsimp only at paid
    rcases outcome with e | (_ | _) | messageId | messageId <;> cases ran <;>
      exact paid.le

theorem expandPath_paid (search : PathSearch) (path : CandidatePathProbe) :
    mls.expandReplays group pendingProposals commits search path ≤ search.budget.remaining ∧
      ∀ next, mls.expandPath group pendingProposals commits search path = .ok next →
        mls.expandReplays group pendingProposals commits search path + next.budget.remaining ≤
          search.budget.remaining := by
  obtain ⟨within, ends⟩ := @loopCost_le _ _ _ (mls.extendPath group pendingProposals path)
    (mls.extendReplays group pendingProposals path) (fun state => state.1.budget.remaining)
    (fun state commit => (extendPath_paid path state commit).2)
    (fun state commit => (extendPath_paid path state commit).1) (search, false) commits
  refine ⟨within, fun next ran => ?_⟩
  rw [expandPath] at ran
  cases looped : commits.foldlM (mls.extendPath group pendingProposals path) (search, false) with
  | error =>
    rw [looped] at ran
    cases ran
  | ok last =>
    have after := ends last looped
    rw [looped] at ran
    dsimp only at ran
    split_ifs at ran <;> cases ran <;> exact after

theorem levelsReplays_le (levels : Nat) (frontier : List CandidatePathProbe) (search : PathSearch) :
    mls.levelsReplays group pendingProposals commits levels frontier search ≤
      search.budget.remaining := by
  induction levels generalizing frontier search with
  | zero => exact Nat.zero_le _
  | succ levels ih =>
    cases frontier with
    | nil => exact Nat.zero_le _
    | cons path rest =>
      obtain ⟨within, ends⟩ := @loopCost_le _ _ _ (mls.expandPath group pendingProposals commits)
        (mls.expandReplays group pendingProposals commits)
        (fun search => search.budget.remaining)
        (fun search path => (expandPath_paid search path).2)
        (fun search path => (expandPath_paid search path).1)
        { search with nextFrontier := [] } (path :: rest)
      rw [OpenMls.levelsReplays]
      cases looped : (path :: rest).foldlM (mls.expandPath group pendingProposals commits)
          { search with nextFrontier := [] } with
      | error e => exact within
      | ok last =>
        have after := ends last looped
        have later := ih last.nextFrontier last
        dsimp only at after ⊢
        omega

/-- **The search never replays more often than its budget allows.** -/
theorem buildReplays_le (pendingMessages : List TransportMessage)
    (startingEpoch maxRewindCommits : Nat) :
    mls.buildReplays group commits pendingMessages startingEpoch maxRewindCommits ≤
      (ReplayBudget.forPass commits.length maxRewindCommits).remaining := by
  rw [buildReplays]
  cases mls.pendingProposalMessages pendingMessages with
  | error => exact Nat.zero_le _
  | ok => exact levelsReplays_le _ _ _

end Replays

/-! ### The last level -/

section Levels

variable {group : Group} {proposals : List TransportMessage} {commits : List StoredCommitMessage}

/-- **The search ends with an empty level**: more levels than there are commits change nothing. -/
theorem searchLevels_stable (stored : StoredMessages mls proposals commits) (levels more : Nat)
    {depth : Nat} {frontier : List CandidatePathProbe} {search : PathSearch}
    (level : StoredMessages.IsLevel commits depth frontier search)
    (enough : commits.length < depth + levels) :
    mls.searchLevels group proposals commits (levels + more) frontier search =
      mls.searchLevels group proposals commits levels frontier search := by
  induction levels generalizing depth frontier search with
  | zero =>
    have none : frontier = [] := by
      refine eq_nil_iff_forall_not_mem.mpr fun path member => ?_
      obtain ⟨_, isPath⟩ := level.paths path member
      have bound := isPath.length_le
      rw [level.deep path member] at bound
      omega
    rw [none]
    cases more <;> rfl
  | succ levels ih =>
    cases frontier with
    | nil => rw [Nat.succ_add]; rfl
    | cons path rest =>
      rw [Nat.succ_add, searchLevels, searchLevels]
      rcases @StoredMessages.foldlM_expandPath _ mls group proposals commits stored (path :: rest)
        level.paths level.distinct { search with nextFrontier := [] } level.fresh with
        ⟨next, ran, _, front, _, tried, _⟩ | ⟨_, ran⟩
      · rw [nil_append] at front
        rw [ran]
        exact ih (level.next front tried) (by omega)
      · rw [ran]

theorem endedPaths_digests_nodup (startingEpoch : Nat) :
    ((mls.endedPaths group proposals commits startingEpoch).map
      CandidatePathProbe.digests).Nodup := by
  have deeper : ∀ path, ∀ child ∈ mls.childPaths group proposals commits path,
      child.digests.length = path.digests.length + 1 := by
    intro path _ isChild
    obtain ⟨_, _, extended⟩ := mem_childPaths.mp isChild
    obtain ⟨_, _, rfl⟩ := childPath_eq_some.mp extended
    simp
  have leaves := @searchLeaves_nodup _ (mls.childPaths group proposals commits) _
    CandidatePathProbe.digests length
    (fun _ distinct => flatMap_childPaths_nodup distinct) deeper (commits.length + 1) 0
    [rootPath startingEpoch] (nodup_singleton _)
    (fun path member => by rw [mem_singleton.mp member]; rfl)
  exact leaves.1.sublist (filter_sublist.map _)

end Levels

/-! ### The order of the stored commits -/

section Order

/-- What a commit says, whatever message carried it. -/
def StoredCommitMessage.content (commit : StoredCommitMessage) : Nat × Bytes × Bytes :=
  (commit.sourceEpoch, commit.digest, commit.message.payload)

/-- The order of contents in which commits are tried. -/
def compareContents : Nat × Bytes × Bytes → Nat × Bytes × Bytes → Ordering :=
  compareLex (compareOn Prod.fst)
    (compareLex (compareOn fun content => content.2.1) (compareOn fun content => content.2.2))

instance instTransCmpCompareContents : TransCmp compareContents := by
  unfold compareContents
  infer_instance

instance instLawfulEqCmpCompareContents : LawfulEqCmp compareContents where
  eq_of_compare := by
    rintro ⟨epoch, digest, payload⟩ ⟨epoch', digest', payload'⟩ same
    have parts : compare epoch epoch' = .eq ∧ compare digest digest' = .eq ∧
        compare payload payload' = .eq := by
      simpa only [compareContents, compareLex, compareOn, Ordering.then_eq_eq] using same
    rw [LawfulEqCmp.eq_of_compare parts.1, LawfulEqCmp.eq_of_compare parts.2.1,
      LawfulEqCmp.eq_of_compare parts.2.2]

open StoredCommitMessage (content)

instance instTransCmpCompareStoredCommits : TransCmp compareStoredCommits :=
  inferInstanceAs <| TransCmp <| compareLex (compareOn StoredCommitMessage.sourceEpoch)
    (compareLex (compareOn StoredCommitMessage.digest)
      (compareOn fun commit => commit.message.payload))

/-- Whatever the order of the stored commits, the same contents are tried in the same order. -/
theorem sorted_contents {commits commits' : List StoredCommitMessage}
    (same : commits.Perm commits') :
    (sortBy compareStoredCommits commits).map content =
      (sortBy compareStoredCommits commits').map content := by
  have respects : ∀ a b : StoredCommitMessage,
      compareStoredCommits a b = compareContents a.content b.content := fun _ _ => rfl
  rw [map_sortBy respects, map_sortBy respects]
  exact sortBy_congr (same.map _)

variable {start : Group} {commits commits' : List StoredCommitMessage}

/-- Stored copies of one commit. -/
def Copies (commits commits' : List StoredCommitMessage) (a b : StoredCommitMessage) : Prop :=
  a ∈ commits ∧ b ∈ commits' ∧ a.content = b.content

variable (mls start) in
/-- Paths of copies that lead to the same state. -/
def Alike (path path' : CandidatePathProbe) : Prop :=
  path.digests = path'.digests ∧
    path.messages.map TransportMessage.payload = path'.messages.map TransportMessage.payload ∧
    ∃ group, Reaches mls start [] path group ∧ Reaches mls start [] path' group

theorem forall₂_copies (same : commits.map content = commits'.map content) :
    List.Forall₂ (Copies commits commits') commits commits' := by
  suffices general : ∀ {rest rest' : List StoredCommitMessage}, rest ⊆ commits →
      rest' ⊆ commits' →
      rest.map content = rest'.map content →
      List.Forall₂ (Copies commits commits') rest rest' from
    general (List.Subset.refl _) (List.Subset.refl _) same
  intro rest
  induction rest with
  | nil =>
    intro _ _ _ equal
    rw [map_nil, eq_comm, map_eq_nil_iff] at equal
    rw [equal]
    exact .nil
  | cons a rest ih =>
    rintro (_ | ⟨b, _⟩) known known' equal
    · cases equal
    · rw [map_cons, map_cons, cons.injEq] at equal
      rw [cons_subset] at known known'
      exact .cons ⟨known.1, known'.1, equal.1⟩ (ih known.2 known'.2 equal.2)

theorem firstByDigest_copies {seen : List Bytes} {rest rest' : List StoredCommitMessage}
    (copies : List.Forall₂ (Copies commits commits') rest rest') :
    List.Forall₂ (Copies commits commits') (firstByDigest seen rest) (firstByDigest seen rest') := by
  induction copies generalizing seen with
  | nil => exact .nil
  | @cons a b _ _ here _ ih =>
    have digest : a.digest = b.digest := congrArg (fun content => content.2.1) here.2.2
    rw [firstByDigest, firstByDigest, digest]
    split
    · exact ih
    · exact .cons here ih

variable {path path' : CandidatePathProbe}

theorem Alike.tried (alike : Alike mls start path path')
    (copies : List.Forall₂ (Copies commits commits') commits commits') :
    List.Forall₂ (Copies commits commits') (path.tried commits) (path'.tried commits') := by
  obtain ⟨digests, _, _, reaches, reaches'⟩ := alike
  refine firstByDigest_copies (rel_filter ?_ copies)
  intro a b here
  have epoch : a.sourceEpoch = b.sourceEpoch := congrArg Prod.fst here.2.2
  have digest : a.digest = b.digest := congrArg (fun content => content.2.1) here.2.2
  show path.fits a = true ↔ path'.fits b = true
  rw [CandidatePathProbe.fits, CandidatePathProbe.fits, epoch, digest, digests, reaches.1,
    reaches'.1]

variable (laws : mls.EpochLaws) (stored : StoredMessages mls [] commits)
  (stored' : StoredMessages mls [] commits')

include laws stored stored'

theorem Alike.child (alike : Alike mls start path path')
    {a b : StoredCommitMessage} (tried : a ∈ path.tried commits) (tried' : b ∈ path'.tried commits')
    (same : a.content = b.content) :
    Option.Rel (Alike mls start) (mls.childPath start [] path a) (mls.childPath start [] path' b) := by
  obtain ⟨digests, payloads, group, reaches, reaches'⟩ := alike
  have digest : a.digest = b.digest := congrArg (fun content => content.2.1) same
  have payload : a.message.payload = b.message.payload :=
    congrArg (fun content => content.2.2) same
  have epoch : a.sourceEpoch = b.sourceEpoch := congrArg Prod.fst same
  have moves : ∀ merged, mls.Applies [] group a merged ↔ mls.Applies [] group b merged := by
    intro merged
    rw [OpenMls.Applies, OpenMls.Applies, epoch, payload]
  have both : ∀ merged, mls.Applies [] group a merged →
      Option.Rel (Alike mls start) (mls.childPath start [] path a)
        (mls.childPath start [] path' b) := by
    intro merged applies
    obtain ⟨_, extended, leads⟩ := reaches.extend laws
      (fun _ member => absurd member not_mem_nil) stored (mem_tried tried).1 applies
    obtain ⟨_, extended', leads'⟩ := reaches'.extend laws
      (fun _ member => absurd member not_mem_nil) stored' (mem_tried tried').1
      ((moves merged).mp applies)
    rw [extended, extended']
    obtain ⟨_, _, rfl⟩ := childPath_eq_some.mp extended
    obtain ⟨_, _, rfl⟩ := childPath_eq_some.mp extended'
    refine .some ⟨?_, ?_, merged, leads, leads'⟩
    · rw [digests, digest]
    · rw [map_append, map_append, payloads, map_singleton, map_singleton, payload]
  cases extended : mls.childPath start [] path a with
  | some =>
    obtain ⟨merged, applies⟩ := reaches.applies stored tried extended
    exact extended ▸ both merged applies
  | none =>
    cases extended' : mls.childPath start [] path' b with
    | none => exact .none
    | some =>
      obtain ⟨merged, applies⟩ := reaches'.applies stored' tried' extended'
      have related := both merged ((moves merged).mpr applies)
      rw [extended, extended'] at related
      cases related

theorem Alike.children (alike : Alike mls start path path')
    (copies : List.Forall₂ (Copies commits commits') commits commits') :
    List.Forall₂ (Alike mls start) (mls.childPaths start [] commits path)
      (mls.childPaths start [] commits' path') := by
  have tried := alike.tried copies
  suffices general : ∀ {rest rest' : List StoredCommitMessage}, rest ⊆ path.tried commits →
      rest' ⊆ path'.tried commits' → List.Forall₂ (Copies commits commits') rest rest' →
      List.Forall₂ (Alike mls start) (rest.filterMap (mls.childPath start [] path))
        (rest'.filterMap (mls.childPath start [] path')) from
    general (List.Subset.refl _) (List.Subset.refl _) tried
  intro _ _ known known' related
  induction related with
  | nil => exact .nil
  | @cons a b _ _ here _ ih =>
    rw [cons_subset] at known known'
    have child := alike.child laws stored stored' known.1 known'.1 here.2.2
    have later := ih known.2 known'.2
    rw [filterMap_cons, filterMap_cons]
    cases extended : mls.childPath start [] path a <;>
      cases extended' : mls.childPath start [] path' b <;> rw [extended, extended'] at child <;>
      cases child
    · exact later
    · rename_i alike
      exact .cons alike later

omit laws stored stored' in
theorem reaches_root : Reaches mls start [] (rootPath (mls.epoch start)) start :=
  ⟨rfl, le_rfl, ⟨[], start⟩, rfl, rfl⟩

/-- Copies of the same commits give alike paths at the same price. -/
theorem endedPaths_alike (same : commits.map content = commits'.map content) :
    List.Forall₂ (Alike mls start) (mls.endedPaths start [] commits (mls.epoch start))
        (mls.endedPaths start [] commits' (mls.epoch start)) ∧
      mls.replayCost start [] commits (mls.epoch start) =
        mls.replayCost start [] commits' (mls.epoch start) := by
  have copies := forall₂_copies same
  have root : List.Forall₂ (Alike mls start) [rootPath (mls.epoch start)]
      [rootPath (mls.epoch start)] :=
    .cons ⟨rfl, rfl, start, reaches_root, reaches_root⟩ .nil
  obtain ⟨leaves, costs⟩ := @searchLeaves_rel _ _ (mls.childPaths start [] commits)
    (mls.childPaths start [] commits') (Alike mls start)
    (fun path => (path.tried commits).length) (fun path => (path.tried commits').length)
    (fun _ _ alike => alike.children laws stored stored' copies)
    (fun _ _ alike => (alike.tried copies).length_eq) (commits.length + 1) _ _ root
  rw [endedPaths, endedPaths, replayCost, replayCost, ← copies.length_eq]
  refine ⟨rel_filter ?_ leaves, costs⟩
  intro path path' alike
  have length := congrArg length alike.2.1
  rw [length_map, length_map] at length
  show decide (path.messages ≠ []) = true ↔ decide (path'.messages ≠ []) = true
  rw [decide_eq_true_eq, decide_eq_true_eq, ne_eq, ne_eq, ← length_eq_zero_iff, length,
    length_eq_zero_iff]

end Order

/-! ### Exactness -/

section Exact

/-- The paths of a search, read as branch ids and commit bytes. -/
def StoredOpenMlsCandidatePathResult.contents (result : StoredOpenMlsCandidatePathResult) :
    List (String × List Bytes) :=
  result.candidatePaths.map fun path =>
    (path.branchId, path.messages.map TransportMessage.payload)

variable {start : Group} {commits commits' : List StoredCommitMessage}
  {pendingMessages : List TransportMessage}

/-- **The outcome of the search does not depend on the order of the stored commits**, as far as
branch ids and commit bytes go. -/
theorem build_contents_perm (laws : mls.EpochLaws) (stored : StoredMessages mls [] commits)
    (pending : mls.pendingProposalMessages pendingMessages = .ok []) (maxRewindCommits : Nat)
    (same : commits.Perm commits') :
    (mls.buildStoredOpenmlsCandidatePaths start commits' pendingMessages (mls.epoch start)
        maxRewindCommits).map contents =
      (mls.buildStoredOpenmlsCandidatePaths start commits pendingMessages (mls.epoch start)
        maxRewindCommits).map contents := by
  have stored' := stored.perm same
  obtain ⟨alike, cost⟩ := @endedPaths_alike _ mls start _ _ laws
    (stored.perm (sortBy_perm commits).symm) (stored'.perm (sortBy_perm commits').symm)
    (sorted_contents same)
  have paths : ∀ {paths paths' : List CandidatePathProbe},
      List.Forall₂ (Alike mls start) paths paths' →
      paths'.map (fun path => (mls.branchIdForPathDigests path.digests,
          path.messages.map TransportMessage.payload)) =
        paths.map fun path => (mls.branchIdForPathDigests path.digests,
          path.messages.map TransportMessage.payload) := by
    intro paths _ related
    induction related with
    | nil => rfl
    | cons here _ ih => rw [map_cons, map_cons, here.1, here.2.1, ih]
  rcases @build_eq _ mls start [] commits stored _ pending (mls.epoch start) maxRewindCommits with
    ⟨within, drops, _, built⟩ | ⟨beyond, built⟩ <;>
  rcases @build_eq _ mls start [] commits' stored' _ pending (mls.epoch start) maxRewindCommits with
    ⟨within', drops', _, built'⟩ | ⟨beyond', built'⟩
  · rw [built, built']
    simp only [Except.map, contents, map_map, Except.ok.injEq]
    exact paths alike
  · rw [← cost, ← same.length_eq] at beyond'
    omega
  · rw [← cost, ← same.length_eq] at within'
    omega
  · rw [built, built']

theorem Chain.front {chain : List StoredCommitMessage} {group : Group}
    (isChain : Chain mls [] commits start chain group) {digests : List Bytes}
    (begins : digests <+: chain.map StoredCommitMessage.digest) :
    ∃ front group, Chain mls [] commits start front group ∧
      front.map StoredCommitMessage.digest = digests := by
  induction isChain with
  | nil =>
    rw [map_nil, prefix_nil] at begins
    exact ⟨[], start, .nil, begins.symm⟩
  | @snoc chain group merged commit before member fresh applies ih =>
    rw [map_append, map_singleton, prefix_concat_iff] at begins
    rcases begins with whole | shorter
    · exact ⟨chain ++ [commit], merged, before.snoc member fresh applies, by
        rw [whole, map_append, map_singleton]⟩
    · exact ih shorter

open StoredOpenMlsCandidatePathResult (contents candidatePaths)

/-- **The search for candidate paths is exact.** It replays at most as often as its budget allows
and ends by itself. It fails on the budget or returns, each once, the maximal chains of commits that
apply one after another, and every beginning of such a chain replays. For any other order of the
stored commits it returns the same branch ids and commit bytes in the same order, and the same
result when no two of them have the same bytes. -/
theorem paths_exact (laws : mls.EpochLaws) (stored : StoredMessages mls [] commits)
    (digest : ∀ commit ∈ commits, commit.digest = mls.sha256 commit.message.payload)
    (collisionFree : ∀ commit ∈ commits, ∀ other ∈ commits, commit.digest = other.digest →
      commit.message.payload = other.message.payload)
    (pending : mls.pendingProposalMessages pendingMessages = .ok []) (maxRewindCommits : Nat) :
    mls.buildReplays start commits pendingMessages (mls.epoch start) maxRewindCommits ≤
        (ReplayBudget.forPass commits.length maxRewindCommits).remaining ∧
      (∀ more, mls.searchLevels start [] (sortBy compareStoredCommits commits)
          (commits.length + 1 + more) [rootPath (mls.epoch start)]
          (.start commits.length maxRewindCommits) =
        mls.searchLevels start [] (sortBy compareStoredCommits commits) (commits.length + 1)
          [rootPath (mls.epoch start)] (.start commits.length maxRewindCommits)) ∧
      (mls.buildStoredOpenmlsCandidatePaths start commits pendingMessages (mls.epoch start)
            maxRewindCommits = .error .replayBudgetExceeded ∨
        ∃ result, mls.buildStoredOpenmlsCandidatePaths start commits pendingMessages
              (mls.epoch start) maxRewindCommits = .ok result ∧
          (result.candidatePaths.map mls.pathDigests).Nodup ∧
          (∀ digests, digests ∈ result.candidatePaths.map mls.pathDigests ↔
            ∃ chain, MaximalChain mls [] commits start chain ∧ chain ≠ [] ∧
              chain.map StoredCommitMessage.digest = digests) ∧
          ∀ path ∈ result.candidatePaths, ∀ front, front <+: mls.pathDigests path →
            ∃ chain group, Chain mls [] commits start chain group ∧
              chain.map StoredCommitMessage.digest = front) ∧
      ∀ commits', commits.Perm commits' →
        (mls.buildStoredOpenmlsCandidatePaths start commits' pendingMessages (mls.epoch start)
            maxRewindCommits).map contents =
          (mls.buildStoredOpenmlsCandidatePaths start commits pendingMessages (mls.epoch start)
            maxRewindCommits).map contents ∧
        ((∀ commit ∈ commits, ∀ other ∈ commits,
            commit.message.payload = other.message.payload → commit = other) →
          mls.buildStoredOpenmlsCandidatePaths start commits' pendingMessages (mls.epoch start)
              maxRewindCommits =
            mls.buildStoredOpenmlsCandidatePaths start commits pendingMessages (mls.epoch start)
              maxRewindCommits) := by
  have same : ∀ commit, commit ∈ sortBy compareStoredCommits commits ↔ commit ∈ commits :=
    fun commit => mem_sortBy
  have sorted : StoredMessages mls [] (sortBy compareStoredCommits commits) :=
    stored.perm (sortBy_perm commits).symm
  have length : (sortBy compareStoredCommits commits).length = commits.length :=
    (sortBy_perm commits).length_eq
  have known : ∀ commit ∈ sortBy compareStoredCommits commits,
      commit.digest = mls.sha256 commit.message.payload :=
    fun commit member => digest commit ((same commit).mp member)
  refine ⟨buildReplays_le _ _ _, fun more => ?_, ?_, fun commits' perm => ⟨?_, fun once => ?_⟩⟩
  · exact searchLevels_stable sorted _ more (isLevel_root _ _ _) (by omega)
  · rcases @build_eq _ mls start [] commits stored _ pending (mls.epoch start)
      maxRewindCommits with ⟨_, drops, _, built⟩ | ⟨_, built⟩
    · refine Or.inr ⟨_, built, ?_⟩
      have digests : ((mls.endedPaths start [] (sortBy compareStoredCommits commits)
          (mls.epoch start)).map fun path =>
            (⟨mls.branchIdForPathDigests path.digests, path.messages⟩ :
              OpenMlsCandidatePath)).map mls.pathDigests =
          (mls.endedPaths start [] (sortBy compareStoredCommits commits)
            (mls.epoch start)).map CandidatePathProbe.digests := by
        rw [map_map]
        exact map_congr_left fun path ended => endedPaths_digests known ended
      have maximal : ∀ list, list ∈ (mls.endedPaths start [] (sortBy compareStoredCommits commits)
          (mls.epoch start)).map CandidatePathProbe.digests ↔
            ∃ chain, MaximalChain mls [] commits start chain ∧ chain ≠ [] ∧
              chain.map StoredCommitMessage.digest = list := by
        intro list
        have unsorted : ∀ chain, MaximalChain mls [] (sortBy compareStoredCommits commits) start
            chain ↔ MaximalChain mls [] commits start chain :=
          fun chain => ⟨.congr same, .congr fun commit => (same commit).symm⟩
        rw [mem_map, endedPaths_iff_maximal laws sorted
          (fun _ member => absurd member not_mem_nil) (fun commit member other member' =>
            collisionFree commit ((same commit).mp member) other ((same other).mp member'))
          reaches_root]
        simp only [unsorted]
      refine ⟨by rw [digests]; exact endedPaths_digests_nodup _,
        fun list => by rw [digests]; exact maximal list, fun path member front begins => ?_⟩
      have listed := mem_map_of_mem (f := mls.pathDigests) member
      rw [digests, maximal] at listed
      obtain ⟨chain, ⟨group, isChain, _⟩, _, whole⟩ := listed
      exact isChain.front (whole ▸ begins)
    · exact Or.inl built
  · exact build_contents_perm laws stored pending maxRewindCommits perm
  · have lists : sortBy compareStoredCommits commits' = sortBy compareStoredCommits commits := by
      refine (sortBy_eq_of_perm perm fun commit member other member' equal => ?_).symm
      have content : commit.content = other.content :=
        @LawfulEqCmp.eq_of_compare _ compareContents _ _ _ equal
      exact once commit member other member' (congrArg (fun content => content.2.2) content)
    rw [OpenMls.buildStoredOpenmlsCandidatePaths, OpenMls.buildStoredOpenmlsCandidatePaths, lists]

end Exact

/-! ### Two copies of a commit -/

/-- The commit that applies on the start state, stored under another message id. -/
def commitCopy : StoredCommitMessage := symbolicStoredCommit "copy" [0, 7]

/-- **Which copy of a commit stands in a path depends on the order**: it is the first one. -/
theorem copies_by_order :
    ((symbolicMls []).buildStoredOpenmlsCandidatePaths [] [firstCommit, commitCopy] [] 0 5).map
        candidatePaths =
      .ok [⟨(symbolicMls []).branchIdForPathDigests [[0, 7]], [firstCommit.message]⟩] ∧
    ((symbolicMls []).buildStoredOpenmlsCandidatePaths [] [commitCopy, firstCommit] [] 0 5).map
        candidatePaths =
      .ok [⟨(symbolicMls []).branchIdForPathDigests [[0, 7]], [commitCopy.message]⟩] ∧
    firstCommit.message ≠ commitCopy.message := by
  decide

/-- The two copies are one commit to the search, in either order. -/
theorem copies_found_alike :
    (symbolicMls []).buildReplays [] [firstCommit, commitCopy] [] 0 5 ≤
        (ReplayBudget.forPass 2 5).remaining ∧
      ((symbolicMls []).buildStoredOpenmlsCandidatePaths [] [commitCopy, firstCommit] [] 0 5).map
          contents =
        ((symbolicMls []).buildStoredOpenmlsCandidatePaths [] [firstCommit, commitCopy] [] 0 5).map
          contents := by
  have stored : StoredMessages (symbolicMls []) [] [firstCommit, commitCopy] :=
    ⟨by decide, fun _ member => absurd member not_mem_nil, by decide⟩
  have exact := @paths_exact _ (symbolicMls []) [] _ [] (symbolicMls_epochLaws []) stored
    (by decide) (by decide) rfl 5
  exact ⟨exact.1, (exact.2.2.2 _ (List.Perm.swap _ _ _)).1⟩

end Darkmatter
