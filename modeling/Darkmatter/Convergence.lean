/-
**Branch selection for distributed convergence.**

Several devices may commit from one epoch. Every candidate branch is scored under a group policy,
and the canonical branch is the greatest eligible one:

* `BranchCandidate.score` — depth, witness quorum, witness score and the tip's ordering metadata;
* `compareScores` — the seven rules in order; it is a transitive comparator that separates every two
  scores;
* `selectCanonicalBranch` — the greatest eligible candidate (`selectCanonicalBranch_mem`,
  `selectCanonicalBranch_eligible`, `le_selectCanonicalBranch`);
* `selectCanonicalBranchTraced` — the same choice with its audit trace.

A score reads the witnesses as a set of senders for each epoch, so it does not see their order
(`score_eq_of_similar`).
-/

import Darkmatter.Lib.Ordering

namespace Darkmatter

open Std Lib List

/-- A byte string, ordered lexicographically. -/
abbrev Bytes := List UInt8

instance : LawfulBEq Bytes := inferInstanceAs (LawfulBEq (List UInt8))

/-- The two lower-case hexadecimal digits of a byte. -/
def hexByte (b : UInt8) : List Char :=
  [Nat.digitChar (b.toNat / 16), Nat.digitChar (b.toNat % 16)]

def hexEncode (bytes : Bytes) : String :=
  String.ofList (bytes.flatMap hexByte)

theorem digitChar_inj : ∀ m < 16, ∀ n < 16, Nat.digitChar m = Nat.digitChar n → m = n := by
  decide

theorem hexByte_injective : Function.Injective hexByte := by
  intro a b same
  obtain ⟨high, low⟩ : Nat.digitChar (a.toNat / 16) = Nat.digitChar (b.toNat / 16) ∧
      Nat.digitChar (a.toNat % 16) = Nat.digitChar (b.toNat % 16) := by
    simpa [hexByte] using same
  have byteA := a.toNat_lt
  have byteB := b.toNat_lt
  have sameHigh := digitChar_inj _ (by omega) _ (by omega) high
  have sameLow := digitChar_inj _ (by omega) _ (by omega) low
  exact UInt8.toNat_inj.mp (by omega)

theorem hexEncode_injective : Function.Injective hexEncode := by
  intro a b same
  have digits : a.flatMap hexByte = b.flatMap hexByte := String.ofList_injective same
  clear same
  induction a generalizing b with
  | nil =>
    cases b with
    | nil => rfl
    | cons => simp [hexByte] at digits
  | cons byte rest ih =>
    cases b with
    | nil => simp [hexByte] at digits
    | cons =>
      rw [List.flatMap_cons, List.flatMap_cons] at digits
      obtain ⟨first, later⟩ := List.append_inj digits rfl
      rw [hexByte_injective first, ih later]

/-- The white space that is trimmed from texts. -/
def isWhiteSpace (char : Char) : Bool :=
  (9 ≤ char.toNat && char.toNat ≤ 13) || (0x2000 ≤ char.toNat && char.toNat ≤ 0x200a) ||
    char.toNat ∈ [0x20, 0x85, 0xa0, 0x1680, 0x2028, 0x2029, 0x202f, 0x205f, 0x3000]

/-- Unsigned 64-bit addition that stops at the largest value. -/
def saturatingAdd (a b : Nat) : Nat := min (a + b) (2 ^ 64 - 1)

/-! ### The policy -/

structure ConvergencePolicy where
  maxRewindCommits : Nat
  witnessQuorumSendersPerEpoch : Nat
  witnessQuorumEpochs : Nat
  maxWitnessOverrideDepth : Nat
deriving DecidableEq, Repr

def ConvergencePolicy.default : ConvergencePolicy where
  maxRewindCommits := 5
  witnessQuorumSendersPerEpoch := 2
  witnessQuorumEpochs := 1
  maxWitnessOverrideDepth := 1

inductive ConvergencePolicyError
  | witnessOverrideExceedsRewind (maxWitnessOverrideDepth maxRewindCommits : Nat)
deriving DecidableEq, Repr

/-- The witness boost must not reach past the rollback horizon. -/
def ConvergencePolicy.validate (policy : ConvergencePolicy) : Except ConvergencePolicyError Unit :=
  if policy.maxWitnessOverrideDepth > policy.maxRewindCommits then
    .error (.witnessOverrideExceedsRewind policy.maxWitnessOverrideDepth policy.maxRewindCommits)
  else
    .ok ()

/-! ### Candidates and scores -/

/-- The class of a commit in the ordering of same-epoch commits: privileged sorts first. -/
inductive CommitOrderingPriority
  | privileged
  | ordinary
deriving DecidableEq, Repr, Ord

instance : TransOrd CommitOrderingPriority where
  eq_swap {a b} := by cases a <;> cases b <;> rfl
  isLE_trans {a b c} := by cases a <;> cases b <;> cases c <;> decide

instance : LawfulEqOrd CommitOrderingPriority where
  eq_of_compare {a b} := by cases a <;> cases b <;> decide

structure AppWitness where
  epoch : Nat
  sender : Bytes
deriving DecidableEq, Repr

structure BranchCandidate where
  id : String
  forkEpoch : Nat
  tipEpoch : Nat
  tipPriority : CommitOrderingPriority
  tipCommitter : Bytes
  tipDigest : Bytes
  appWitnesses : List AppWitness
deriving DecidableEq, Repr

structure BranchScore where
  validCommitDepth : Nat
  effectiveCommitDepth : Nat
  witnessQuorumMet : Bool
  appWitnessScore : Nat
  tipPriority : CommitOrderingPriority
  tipCommitter : Bytes
  tipDigest : Bytes
deriving DecidableEq, Repr

/-- The senders that witnessed each epoch. -/
def witnessesByEpoch (witnesses : List AppWitness) : ExtTreeMap Nat (ExtTreeSet Bytes) :=
  witnesses.foldl
    (fun byEpoch witness =>
      byEpoch.alter witness.epoch fun senders => some ((senders.getD ∅).insert witness.sender))
    ∅

def witnessQuorumMet (witnesses : List AppWitness) (policy : ConvergencePolicy) : Bool :=
  if policy.witnessQuorumSendersPerEpoch == 0 || policy.witnessQuorumEpochs == 0 then
    false
  else
    policy.witnessQuorumEpochs ≤
      ((witnessesByEpoch witnesses).values.filter fun senders =>
        policy.witnessQuorumSendersPerEpoch ≤ senders.size).length

def appWitnessScore (witnesses : List AppWitness) (policy : ConvergencePolicy) : Nat :=
  ((witnessesByEpoch witnesses).values.map fun senders =>
    min senders.size policy.witnessQuorumSendersPerEpoch).sum

def witnessDepthBoost (branch : BranchCandidate) (policy : ConvergencePolicy) : Nat :=
  if witnessQuorumMet branch.appWitnesses policy then policy.maxWitnessOverrideDepth else 0

def BranchCandidate.score (branch : BranchCandidate) (policy : ConvergencePolicy) :
    BranchScore where
  validCommitDepth := branch.tipEpoch - branch.forkEpoch
  effectiveCommitDepth :=
    saturatingAdd (branch.tipEpoch - branch.forkEpoch) (witnessDepthBoost branch policy)
  witnessQuorumMet := Darkmatter.witnessQuorumMet branch.appWitnesses policy
  appWitnessScore := Darkmatter.appWitnessScore branch.appWitnesses policy
  tipPriority := branch.tipPriority
  tipCommitter := branch.tipCommitter
  tipDigest := branch.tipDigest

/-- **The seven rules of branch order.** The last three prefer the smaller value. -/
def compareScores (a b : BranchScore) : Ordering :=
  (compare a.effectiveCommitDepth b.effectiveCommitDepth).then <|
  (compare a.witnessQuorumMet b.witnessQuorumMet).then <|
  (compare a.validCommitDepth b.validCommitDepth).then <|
  (compare a.appWitnessScore b.appWitnessScore).then <|
  (compare b.tipPriority a.tipPriority).then <|
  (compare b.tipCommitter a.tipCommitter).then <|
  compare b.tipDigest a.tipDigest

instance : TransCmp compareScores :=
  inferInstanceAs <| TransCmp <|
    compareLex (compareOn BranchScore.effectiveCommitDepth) <|
    compareLex (compareOn BranchScore.witnessQuorumMet) <|
    compareLex (compareOn BranchScore.validCommitDepth) <|
    compareLex (compareOn BranchScore.appWitnessScore) <|
    compareLex (fun a b => compareOn BranchScore.tipPriority b a) <|
    compareLex (fun a b => compareOn BranchScore.tipCommitter b a) <|
    fun a b => compareOn BranchScore.tipDigest b a

/-- The rules separate every two scores. -/
instance : LawfulEqCmp compareScores where
  eq_of_compare {a b} same := by
    obtain ⟨_, _, _, _, _, _, _⟩ := a
    simp only [compareScores, Ordering.then_eq_eq, LawfulEqCmp.compare_eq_iff_eq] at same
    obtain ⟨rfl, rfl, rfl, rfl, rfl, rfl, rfl⟩ := same
    rfl

/-- The order of two candidates by their scores under a policy. -/
def compareCandidates (policy : ConvergencePolicy) (a b : BranchCandidate) : Ordering :=
  compareScores (a.score policy) (b.score policy)

instance (policy : ConvergencePolicy) : TransCmp (compareCandidates policy) where
  eq_swap {a b} := @OrientedCmp.eq_swap _ compareScores _ (a.score policy) (b.score policy)
  isLE_trans {a b c} := @TransCmp.isLE_trans _ compareScores _ (a.score policy) (b.score policy)
    (c.score policy)

/-! ### Selection -/

variable (currentTipEpoch : Nat)

def isBranchEligible (branch : BranchCandidate) (policy : ConvergencePolicy) : Bool :=
  currentTipEpoch - branch.forkEpoch ≤ policy.maxRewindCommits

/-- **The canonical branch**: the greatest eligible candidate. -/
def selectCanonicalBranch (candidates : List BranchCandidate)
    (policy : ConvergencePolicy) : Option BranchCandidate :=
  maxBy (compareCandidates policy)
    (candidates.filter fun candidate => isBranchEligible currentTipEpoch candidate policy)

section Selection

variable {tip : Nat} {candidates : List BranchCandidate} {policy : ConvergencePolicy}
  {selected : BranchCandidate}

theorem selectCanonicalBranch_mem
    (chosen : selectCanonicalBranch tip candidates policy = some selected) :
    selected ∈ candidates :=
  (mem_filter.mp (maxBy_mem chosen)).1

theorem selectCanonicalBranch_eligible
    (chosen : selectCanonicalBranch tip candidates policy = some selected) :
    isBranchEligible tip selected policy :=
  (mem_filter.mp (maxBy_mem chosen)).2

/-- **No eligible candidate outranks the canonical branch.** -/
theorem le_selectCanonicalBranch
    (chosen : selectCanonicalBranch tip candidates policy = some selected) :
    ∀ candidate ∈ candidates, isBranchEligible tip candidate policy →
      (compareCandidates policy candidate selected).isLE :=
  fun candidate member eligible =>
    le_maxBy chosen candidate (mem_filter.mpr ⟨member, eligible⟩)

variable {R : BranchCandidate → BranchCandidate → Prop}

/-- Related candidates that have the same forks and scores are selected together. -/
theorem selectCanonicalBranch_rel {others : List BranchCandidate}
    (related : List.Forall₂ R candidates others) (forks : ∀ a b, R a b → a.forkEpoch = b.forkEpoch)
    (scores : ∀ a b, R a b → a.score policy = b.score policy) :
    Option.Rel R (selectCanonicalBranch tip candidates policy)
      (selectCanonicalBranch tip others policy) := by
  refine maxBy_rel (fun _ _ _ _ first second => ?_) (rel_filter (fun _ _ same => ?_) related)
  · rw [compareCandidates, compareCandidates, scores _ _ first, scores _ _ second]
  · simp only [isBranchEligible, forks _ _ same]

theorem map_eq_of_rel {γ : Type} {f : BranchCandidate → γ} {chosen other : Option BranchCandidate}
    (respects : ∀ a b, R a b → f a = f b) (same : Option.Rel R chosen other) :
    chosen.map f = other.map f := by
  cases same with
  | none => rfl
  | some here => exact congrArg some (respects _ _ here)

end Selection

/-! ### The audit trace -/

structure CandidateEvaluation where
  branchId : String
  forkEpoch : Nat
  tipEpoch : Nat
  tipPriority : CommitOrderingPriority
  tipCommitter : Bytes
  tipDigest : Bytes
  appWitnesses : List AppWitness
  eligible : Bool
  rejectionReasons : List String
  score : BranchScore
deriving DecidableEq, Repr

structure RuleEvaluation where
  ruleName : String
  winnerBranchId : String
  otherBranchId : String
  winnerValue : String
  otherValue : String
  decisive : Bool
deriving DecidableEq, Repr

structure BranchSelectionTrace where
  selectedBranchId : Option String
  candidates : List CandidateEvaluation
  ruleTrace : List RuleEvaluation
  losingBranchIds : List String
deriving DecidableEq, Repr

def tipPriorityStr : CommitOrderingPriority → String
  | .ordinary => "ordinary"
  | .privileged => "privileged"

/-- The order in which a trace lists witnesses. -/
def compareWitnesses (a b : AppWitness) : Ordering :=
  (compare a.epoch b.epoch).then (compare a.sender b.sender)

instance : TransCmp compareWitnesses :=
  inferInstanceAs <| TransCmp <|
    compareLex (compareOn AppWitness.epoch) (compareOn AppWitness.sender)

instance : LawfulEqCmp compareWitnesses where
  eq_of_compare {a b} same := by
    obtain ⟨epoch, sender⟩ := a
    simp only [compareWitnesses, Ordering.then_eq_eq, LawfulEqCmp.compare_eq_iff_eq] at same
    rw [same.1, same.2]

/-- The seven rules between the winner and the runner-up, with the order and the two texts of
each. -/
def ruleEntries (winner other : BranchScore) : List (String × Ordering × String × String) :=
  [("effective_commit_depth", compare winner.effectiveCommitDepth other.effectiveCommitDepth,
      toString winner.effectiveCommitDepth, toString other.effectiveCommitDepth),
    ("witness_quorum_met", compare winner.witnessQuorumMet other.witnessQuorumMet,
      toString winner.witnessQuorumMet, toString other.witnessQuorumMet),
    ("valid_commit_depth", compare winner.validCommitDepth other.validCommitDepth,
      toString winner.validCommitDepth, toString other.validCommitDepth),
    ("app_witness_score", compare winner.appWitnessScore other.appWitnessScore,
      toString winner.appWitnessScore, toString other.appWitnessScore),
    ("tip_priority", compare other.tipPriority winner.tipPriority,
      tipPriorityStr winner.tipPriority, tipPriorityStr other.tipPriority),
    ("tip_committer", compare other.tipCommitter winner.tipCommitter,
      hexEncode winner.tipCommitter, hexEncode other.tipCommitter),
    ("tip_digest", compare other.tipDigest winner.tipDigest,
      hexEncode winner.tipDigest, hexEncode other.tipDigest)]

/-- Each rule with its values, the first that separates the two branches marked decisive. -/
def buildRuleTrace (winner other : BranchScore) (winnerId otherId : String) : List RuleEvaluation :=
  ((ruleEntries winner other).foldl
    (fun (decided, trace) (ruleName, ordering, winnerValue, otherValue) =>
      let decisive := !decided && ordering != .eq
      (decided || decisive,
        trace ++ [⟨ruleName, winnerId, otherId, winnerValue, otherValue, decisive⟩]))
    (false, [])).2

def BranchCandidate.evaluation (policy : ConvergencePolicy)
    (candidate : BranchCandidate) : CandidateEvaluation where
  branchId := candidate.id
  forkEpoch := candidate.forkEpoch
  tipEpoch := candidate.tipEpoch
  tipPriority := candidate.tipPriority
  tipCommitter := candidate.tipCommitter
  tipDigest := candidate.tipDigest
  appWitnesses := sortBy compareWitnesses candidate.appWitnesses
  eligible := isBranchEligible currentTipEpoch candidate policy
  rejectionReasons :=
    if isBranchEligible currentTipEpoch candidate policy then [] else ["beyond_rewind_horizon"]
  score := candidate.score policy

/-- The best eligible candidate other than the winner, of a list in branch-id order. -/
def runnerUp (ordered : List BranchCandidate) (policy : ConvergencePolicy)
    (winner : BranchCandidate) : Option BranchCandidate :=
  maxBy (compareCandidates policy)
    ((ordered.filter fun candidate => isBranchEligible currentTipEpoch candidate policy).filter
      fun candidate => candidate.id != winner.id)

/-- The comparison of the selected branch with its runner-up. -/
def selectionRuleTrace (ordered : List BranchCandidate)
    (policy : ConvergencePolicy) : Option BranchCandidate → List RuleEvaluation
  | none => []
  | some winner =>
    match runnerUp currentTipEpoch ordered policy winner with
    | none => []
    | some other => buildRuleTrace (winner.score policy) (other.score policy) winner.id other.id

/-- **Selection with its audit trace**, listed in branch-id order. -/
def selectCanonicalBranchTraced (candidates : List BranchCandidate)
    (policy : ConvergencePolicy) : BranchSelectionTrace :=
  let ordered := sortBy (compareOn BranchCandidate.id) candidates
  let evaluations := ordered.map (BranchCandidate.evaluation currentTipEpoch policy)
  let selected := selectCanonicalBranch currentTipEpoch candidates policy
  let selectedBranchId := selected.map BranchCandidate.id
  { selectedBranchId
    candidates := evaluations
    ruleTrace := selectionRuleTrace currentTipEpoch ordered policy selected
    losingBranchIds :=
      (evaluations.filter fun evaluation => some evaluation.branchId != selectedBranchId).map
        CandidateEvaluation.branchId }

/-! ### The order of the witnesses does not matter -/

/-- Two candidates that differ at most in the order of their witnesses. -/
structure BranchCandidate.Similar (a b : BranchCandidate) : Prop where
  id : a.id = b.id
  forkEpoch : a.forkEpoch = b.forkEpoch
  tipEpoch : a.tipEpoch = b.tipEpoch
  tipPriority : a.tipPriority = b.tipPriority
  tipCommitter : a.tipCommitter = b.tipCommitter
  tipDigest : a.tipDigest = b.tipDigest
  appWitnesses : a.appWitnesses.Perm b.appWitnesses

variable {witnesses witnesses' : List AppWitness}

theorem witnessesByEpoch_perm (same : witnesses.Perm witnesses') :
    witnessesByEpoch witnesses = witnessesByEpoch witnesses' := by
  refine same.foldl_eq' (fun first _ second _ byEpoch => ?_) _
  refine ExtTreeMap.ext_getElem? fun epoch => ?_
  simp only [ExtTreeMap.getElem?_alter, LawfulEqCmp.compare_eq_iff_eq]
  by_cases one : first.epoch = epoch <;> by_cases two : second.epoch = epoch
  · subst one
    simp only [two, if_true]
    refine congrArg some (ExtTreeSet.ext_mem fun sender => ?_)
    simp only [Option.getD_some, ExtTreeSet.mem_insert]
    tauto
  · subst one
    simp [two]
  · subst two
    simp [one]
  · simp [one, two]

section Similar

variable {a b : BranchCandidate} {tip : Nat} {policy : ConvergencePolicy}

/-- **A score does not see the order of the witnesses.** -/
theorem score_eq_of_similar (similar : a.Similar b) : a.score policy = b.score policy := by
  unfold BranchCandidate.score witnessDepthBoost witnessQuorumMet appWitnessScore
  rw [witnessesByEpoch_perm similar.appWitnesses, similar.forkEpoch, similar.tipEpoch,
    similar.tipPriority, similar.tipCommitter, similar.tipDigest]

theorem isBranchEligible_eq_of_similar (similar : a.Similar b) :
    isBranchEligible tip a policy = isBranchEligible tip b policy := by
  simp only [isBranchEligible, similar.forkEpoch]

theorem evaluation_eq_of_similar (similar : a.Similar b) :
    a.evaluation tip policy = b.evaluation tip policy := by
  simp only [BranchCandidate.evaluation, isBranchEligible_eq_of_similar similar,
    score_eq_of_similar similar, sortBy_congr similar.appWitnesses, similar.id,
    similar.forkEpoch, similar.tipEpoch, similar.tipPriority, similar.tipCommitter,
    similar.tipDigest]

variable {candidates candidates' : List BranchCandidate}
  {selected selected' : Option BranchCandidate}

section Related

variable (related : List.Forall₂ BranchCandidate.Similar candidates candidates')

include related

theorem eligible_similar :
    List.Forall₂ BranchCandidate.Similar
      (candidates.filter fun candidate => isBranchEligible tip candidate policy)
      (candidates'.filter fun candidate => isBranchEligible tip candidate policy) :=
  rel_filter (fun _ _ similar => by simp only [isBranchEligible_eq_of_similar similar]) related

theorem selectCanonicalBranch_similar :
    Option.Rel BranchCandidate.Similar (selectCanonicalBranch tip candidates policy)
      (selectCanonicalBranch tip candidates' policy) :=
  selectCanonicalBranch_rel related (fun _ _ similar => similar.forkEpoch)
    fun _ _ => score_eq_of_similar

theorem runnerUp_similar (winner : a.Similar b) :
    Option.Rel BranchCandidate.Similar (runnerUp tip candidates policy a)
      (runnerUp tip candidates' policy b) := by
  refine maxBy_rel ?_ ?_
  · intro _ _ _ _ first second
    rw [compareCandidates, score_eq_of_similar first, score_eq_of_similar second, compareCandidates]
  exact rel_filter (fun _ _ similar => by simp only [similar.id, winner.id])
    (eligible_similar related)

theorem selectionRuleTrace_similar (same : Option.Rel BranchCandidate.Similar selected selected') :
    selectionRuleTrace tip candidates policy selected =
      selectionRuleTrace tip candidates' policy selected' := by
  cases same with
  | none => rfl
  | some winner =>
    rw [selectionRuleTrace, selectionRuleTrace]
    have other := @runnerUp_similar _ _ tip policy _ _ related winner
    generalize runnerUp tip candidates policy _ = runner at other ⊢
    generalize runnerUp tip candidates' policy _ = runner' at other ⊢
    cases other with
    | none => rfl
    | some here =>
      show buildRuleTrace _ _ _ _ = buildRuleTrace _ _ _ _
      rw [score_eq_of_similar winner, score_eq_of_similar here, winner.id, here.id]

theorem map_evaluation_similar :
    candidates.map (BranchCandidate.evaluation tip policy) =
      candidates'.map (BranchCandidate.evaluation tip policy) := by
  induction related with
  | nil => rfl
  | cons here _ ih => rw [map_cons, map_cons, ih, evaluation_eq_of_similar here]

/-- **Selection and its trace do not see the order of the witnesses.** -/
theorem selectCanonicalBranchTraced_similar :
    selectCanonicalBranchTraced tip candidates policy =
      selectCanonicalBranchTraced tip candidates' policy := by
  have ordered : List.Forall₂ BranchCandidate.Similar
      (sortBy (compareOn BranchCandidate.id) candidates)
      (sortBy (compareOn BranchCandidate.id) candidates') :=
    sortBy_rel (fun _ _ _ _ first second => by rw [compareOn, compareOn, first.id, second.id])
      related
  have selected : Option.Rel BranchCandidate.Similar (selectCanonicalBranch tip candidates policy)
      (selectCanonicalBranch tip candidates' policy) := selectCanonicalBranch_similar related
  have selectedId := map_eq_of_rel (fun _ _ similar => similar.id) selected
  simp only [selectCanonicalBranchTraced, map_evaluation_similar ordered, selectedId,
    selectionRuleTrace_similar ordered selected]

end Related

end Similar

end Darkmatter
