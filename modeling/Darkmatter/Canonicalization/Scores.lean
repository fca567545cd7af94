/-
**What branch selection rests on.**

* `overridden_only_by_quorum` — the selected branch is eligible, and a deeper branch loses only to a
  witness quorum that it does not have itself, by no more than the override depth of the policy;
* `appWitnessScore_mono`, `witnessQuorumMet_mono` — more witnesses never lower a score, so that only
  the set of the witnesses counts;
* `witnesses_only_help` — a selected branch stays selected when it gains witnesses, and a witness that
  is counted already changes no selection;
* `trace_explains` — the audit trace shows the selection, and its decisive rule is the first one that
  separates the winner from the best of the others.
-/

import Darkmatter.Convergence
import Darkmatter.Lib.Table

namespace Darkmatter

open Std Lib List

/-! ### Depth -/

section Depth

variable {policy : ConvergencePolicy} {a b : BranchCandidate}

def BranchCandidate.depth (branch : BranchCandidate) : Nat := branch.tipEpoch - branch.forkEpoch

theorem compareCandidates_isLE (below : (compareCandidates policy a b).isLE) :
    (a.score policy).effectiveCommitDepth ≤ (b.score policy).effectiveCommitDepth ∧
      ((a.score policy).effectiveCommitDepth = (b.score policy).effectiveCommitDepth →
        (a.score policy).witnessQuorumMet = (b.score policy).witnessQuorumMet →
        a.depth ≤ b.depth) := by
  rw [compareCandidates, compareScores, Ordering.isLE_then_iff_and] at below
  refine ⟨Nat.isLE_compare.mp below.1, fun sameDepth sameQuorum => ?_⟩
  obtain less | rest := below.2
  · exact absurd sameDepth (Nat.compare_eq_lt.mp less).ne
  · have tied : compare (a.score policy).witnessQuorumMet (b.score policy).witnessQuorumMet = .eq := by
      rw [sameQuorum]
      exact ReflCmp.compare_self
    rw [tied, Ordering.eq_then, Ordering.isLE_then_iff_and] at rest
    exact Nat.isLE_compare.mp rest.1

/-- **A deeper branch loses only to a quorum that it does not have**, and only within the override
depth of the policy. -/
theorem overridden_only_by_quorum (policy : ConvergencePolicy) (tip : Nat)
    (candidates : List BranchCandidate) (selected : BranchCandidate)
    (machineWords : ∀ candidate ∈ candidates, candidate.tipEpoch < 2 ^ 64)
    (chosen : selectCanonicalBranch tip candidates policy = some selected) :
    isBranchEligible tip selected policy ∧
      (∀ candidate ∈ candidates, isBranchEligible tip candidate policy →
        candidate.depth ≤ selected.depth + policy.maxWitnessOverrideDepth ∧
        (selected.depth < candidate.depth →
          witnessQuorumMet selected.appWitnesses policy ∧
            ¬ witnessQuorumMet candidate.appWitnesses policy)) ∧
      ((∀ candidate ∈ candidates, ¬ witnessQuorumMet candidate.appWitnesses policy) →
        ∀ candidate ∈ candidates, isBranchEligible tip candidate policy →
          candidate.depth ≤ selected.depth) := by
  have bound : ∀ candidate ∈ candidates, isBranchEligible tip candidate policy →
      candidate.depth ≤ selected.depth + policy.maxWitnessOverrideDepth ∧
      (selected.depth < candidate.depth → witnessQuorumMet selected.appWitnesses policy ∧
        ¬ witnessQuorumMet candidate.appWitnesses policy) := by
    intro candidate member eligible
    have small : candidate.depth ≤ 2 ^ 64 - 1 :=
      (Nat.sub_le _ _).trans (Nat.le_sub_one_of_lt (machineWords candidate member))
    obtain ⟨effective, deeper⟩ :=
      compareCandidates_isLE (le_selectCanonicalBranch chosen candidate member eligible)
    simp only [BranchCandidate.score, saturatingAdd, witnessDepthBoost, BranchCandidate.depth]
      at effective deeper small ⊢
    refine ⟨by split_ifs at effective <;> omega, fun below => ⟨?_, fun candidateQuorum => ?_⟩⟩
    · by_contra noQuorum
      rw [if_neg noQuorum] at effective
      split_ifs at effective <;> omega
    · rw [if_pos candidateQuorum] at effective deeper
      by_cases selectedQuorum : witnessQuorumMet selected.appWitnesses policy
      · -- depths that saturate tie, and then the third rule decides between two quorums
        rw [if_pos selectedQuorum] at effective deeper
        have tied := deeper (by omega) (candidateQuorum.trans selectedQuorum.symm)
        omega
      · rw [if_neg selectedQuorum] at effective
        omega
  refine ⟨selectCanonicalBranch_eligible chosen, bound, fun noQuorum candidate member eligible => ?_⟩
  by_contra deeper
  exact noQuorum selected (selectCanonicalBranch_mem chosen)
    ((bound candidate member eligible).2 (Nat.lt_of_not_le deeper)).1

/-- A branch from epoch 0 without witnesses. -/
def plainBranch (id : String) (tipEpoch : Nat) : BranchCandidate :=
  ⟨id, 0, tipEpoch, .ordinary, [], [], []⟩

/-- The deeper of two plain branches is selected. -/
theorem deeper_plain_branch : isBranchEligible 2 (plainBranch "b" 2) .default = true ∧
    (plainBranch "a" 1).depth ≤ (plainBranch "b" 2).depth := by
  obtain ⟨eligible, _, deepest⟩ := overridden_only_by_quorum .default 2
    [plainBranch "a" 1, plainBranch "b" 2] (plainBranch "b" 2) (by decide) (by decide +kernel)
  exact ⟨eligible, deepest (by decide +kernel) _ mem_cons_self (by decide)⟩

end Depth

/-! ### Witnesses -/

section Witnesses

variable {witnesses more : List AppWitness} {policy : ConvergencePolicy}

/-- The senders that witnessed an epoch. -/
def sendersAt (witnesses : List AppWitness) (epoch : Nat) : ExtTreeSet Bytes :=
  (witnessesByEpoch witnesses)[epoch]?.getD ∅

theorem mem_sendersAt {epoch : Nat} {sender : Bytes} :
    sender ∈ sendersAt witnesses epoch ↔ ⟨epoch, sender⟩ ∈ witnesses := by
  induction witnesses using reverseRecOn with
  | nil => simp [sendersAt, witnessesByEpoch]
  | append_singleton earlier last ih =>
    rw [sendersAt, witnessesByEpoch, foldl_concat, ← witnessesByEpoch, mem_append, ← ih,
      mem_singleton]
    simp only [ExtTreeMap.getElem?_alter, LawfulEqCmp.compare_eq_iff_eq]
    by_cases same : last.epoch = epoch
    · subst same
      rw [if_pos rfl, Option.getD_some, ExtTreeSet.mem_insert, ← sendersAt,
        LawfulEqCmp.compare_eq_iff_eq, or_comm]
      exact or_congr_right ⟨fun same => by rw [← same], fun same => by rw [← same]⟩
    · rw [if_neg same, ← sendersAt, or_iff_left]
      rintro rfl
      exact same rfl

theorem sendersAt_size_mono (fewer : witnesses ⊆ more) (epoch : Nat) :
    (sendersAt witnesses epoch).size ≤ (sendersAt more epoch).size := by
  rw [← ExtTreeSet.length_toList, ← ExtTreeSet.length_toList]
  refine (Nodup.subperm ?_ fun sender member => ?_).length_le
  · exact ExtTreeSet.distinct_toList.imp fun differ same =>
      differ (LawfulEqCmp.compare_eq_iff_eq.mpr same)
  · rw [ExtTreeSet.mem_toList, mem_sendersAt] at member ⊢
    exact fewer member

variable (weight : Nat → Nat)

/-- A weight of the epochs by their numbers of senders. -/
def epochWeight (witnesses : List AppWitness) : Nat :=
  ((witnessesByEpoch witnesses).values.map fun senders => weight senders.size).sum

theorem epochWeight_eq_sum (nothing : weight 0 = 0) {epochs : Finset Nat}
    (covers : (witnessesByEpoch witnesses).keys.toFinset ⊆ epochs) :
    epochWeight weight witnesses = ∑ epoch ∈ epochs, weight (sendersAt witnesses epoch).size := by
  have listed : (witnessesByEpoch witnesses).values.map (fun senders => weight senders.size) =
      (witnessesByEpoch witnesses).keys.map fun epoch =>
        weight (sendersAt witnesses epoch).size :=
    map_values fun epoch senders found => by rw [sendersAt, found, Option.getD_some]
  rw [epochWeight, listed, ← sum_toFinset _ (nodup_keys _)]
  refine Finset.sum_subset covers fun epoch _ absent => ?_
  rw [mem_toFinset, ExtTreeMap.mem_keys, ← ExtTreeMap.isSome_getElem?_iff_mem,
    Option.not_isSome_iff_eq_none] at absent
  rw [sendersAt, absent, Option.getD_none, ExtTreeSet.size_empty, nothing]

/-- **More witnesses never weigh less.** -/
theorem epochWeight_mono (nothing : weight 0 = 0) (grows : Monotone weight)
    (fewer : witnesses ⊆ more) : epochWeight weight witnesses ≤ epochWeight weight more := by
  rw [epochWeight_eq_sum weight nothing Finset.subset_union_left,
    epochWeight_eq_sum weight nothing Finset.subset_union_right]
  exact Finset.sum_le_sum fun epoch _ => grows (sendersAt_size_mono fewer epoch)

theorem appWitnessScore_mono (fewer : witnesses ⊆ more) :
    appWitnessScore witnesses policy ≤ appWitnessScore more policy :=
  epochWeight_mono (min · policy.witnessQuorumSendersPerEpoch) (Nat.zero_min _)
    (fun _ _ fewer => min_le_min_right _ fewer) fewer

theorem witnessQuorumMet_mono (fewer : witnesses ⊆ more) (met : witnessQuorumMet witnesses policy) :
    witnessQuorumMet more policy := by
  have counted : ∀ witnesses : List AppWitness,
      ((witnessesByEpoch witnesses).values.filter fun senders =>
        policy.witnessQuorumSendersPerEpoch ≤ senders.size).length =
      epochWeight (fun size => if policy.witnessQuorumSendersPerEpoch ≤ size then 1 else 0)
        witnesses := by
    intro witnesses
    rw [epochWeight, ← countP_eq_length_filter]
    induction (witnessesByEpoch witnesses).values with
    | nil => rfl
    | cons senders rest ih => simp [countP_cons, ih, Nat.add_comm]
  rw [witnessQuorumMet] at met ⊢
  split_ifs at met ⊢ with off
  rw [decide_eq_true_eq, counted] at met ⊢
  refine met.trans (epochWeight_mono _ ?_ ?_ fewer)
  · rw [Bool.or_eq_true, beq_iff_eq, not_or] at off
    exact if_neg fun zero => off.1 (Nat.le_zero.mp zero)
  · intro _ _ below
    dsimp only
    split_ifs with enough fails
    · exact le_rfl
    · exact absurd (enough.trans below) fails
    · exact Nat.zero_le _
    · exact le_rfl

/-- A candidate with further witnesses. -/
def BranchCandidate.witnessedBy (candidate : BranchCandidate) (witnesses : List AppWitness) :
    BranchCandidate :=
  { candidate with appWitnesses := candidate.appWitnesses ++ witnesses }

/-- **More witnesses never lower a score.** -/
theorem score_le_of_subset (candidate : BranchCandidate) (fewer : witnesses ⊆ more) :
    (compareScores (({ candidate with appWitnesses := witnesses } : BranchCandidate).score policy)
      (({ candidate with appWitnesses := more } : BranchCandidate).score policy)).isLE := by
  have score := @appWitnessScore_mono _ _ policy fewer
  have quorum := @witnessQuorumMet_mono _ _ policy fewer
  simp only [compareScores, BranchCandidate.score, witnessDepthBoost, saturatingAdd,
    Ordering.isLE_then_iff_and, Nat.isLE_compare, ReflCmp.compare_self]
  cases met : witnessQuorumMet witnesses policy with
  | false =>
    cases metMore : witnessQuorumMet more policy with
    | false => simp [score]
    | true => exact ⟨by simp, .inr ⟨by decide, .inl (by decide)⟩⟩
  | true =>
    rw [quorum met]
    simp [score]

/-- Two candidates that selection does not tell apart. -/
structure SameRank (policy : ConvergencePolicy) (a b : BranchCandidate) : Prop where
  id : a.id = b.id
  forkEpoch : a.forkEpoch = b.forkEpoch
  score : a.score policy = b.score policy

theorem selectCanonicalBranch_sameRank {candidates others : List BranchCandidate} (tip : Nat)
    (related : Forall₂ (SameRank policy) candidates others) :
    (selectCanonicalBranch tip candidates policy).map BranchCandidate.id =
      (selectCanonicalBranch tip others policy).map BranchCandidate.id :=
  map_eq_of_rel (fun _ _ same => same.id) (selectCanonicalBranch_rel related
    (fun _ _ same => same.forkEpoch) fun _ _ same => same.score)

theorem sameRank_replaced {a b : BranchCandidate} (same : SameRank policy a b)
    (before after : List BranchCandidate) :
    Forall₂ (SameRank policy) (before ++ a :: after) (before ++ b :: after) :=
  rel_append (forall₂_same.mpr fun _ _ => ⟨rfl, rfl, rfl⟩)
    (.cons same (forall₂_same.mpr fun _ _ => ⟨rfl, rfl, rfl⟩))

/-- **Witnesses are counted as a set and only help**: a selected branch that gains witnesses stays
selected, and a witness that is there already changes no selection. -/
theorem witnesses_only_help (policy : ConvergencePolicy) (tip : Nat)
    (before after : List BranchCandidate) (candidate : BranchCandidate) :
    (∀ witnesses others : List AppWitness, (∀ witness, witness ∈ witnesses ↔ witness ∈ others) →
      ({ candidate with appWitnesses := witnesses } : BranchCandidate).score policy =
        ({ candidate with appWitnesses := others } : BranchCandidate).score policy) ∧
    (∀ gained, (compareScores (candidate.score policy)
      ((candidate.witnessedBy gained).score policy)).isLE) ∧
    (∀ gained, selectCanonicalBranch tip (before ++ candidate :: after) policy = some candidate →
      (selectCanonicalBranch tip (before ++ candidate.witnessedBy gained :: after) policy).map
        BranchCandidate.id = some candidate.id) ∧
    ∀ repeated, repeated ⊆ candidate.appWitnesses →
      (selectCanonicalBranch tip (before ++ candidate.witnessedBy repeated :: after) policy).map
          BranchCandidate.id =
        (selectCanonicalBranch tip (before ++ candidate :: after) policy).map BranchCandidate.id := by
  have asSet : ∀ witnesses others : List AppWitness, witnesses ⊆ others → others ⊆ witnesses →
      ({ candidate with appWitnesses := witnesses } : BranchCandidate).score policy =
        ({ candidate with appWitnesses := others } : BranchCandidate).score policy := by
    intro witnesses others fewer more
    refine (LawfulEqCmp.eq_of_compare : compareScores _ _ = .eq → _)
      (Ordering.eq_eq_of_isLE_of_isLE_swap (score_le_of_subset candidate fewer) ?_)
    rw [← OrientedCmp.eq_swap]
    exact score_le_of_subset candidate more
  have grows : ∀ gained, (compareScores (candidate.score policy)
      ((candidate.witnessedBy gained).score policy)).isLE := fun gained =>
    score_le_of_subset candidate (subset_append_left _ _)
  refine ⟨fun witnesses others same => asSet _ _ (fun _ => (same _).mp) fun _ => (same _).mpr,
    grows, fun gained chosen => ?_, fun repeated known => ?_⟩
  · cases order : compareScores (candidate.score policy)
      ((candidate.witnessedBy gained).score policy) with
    | gt => exact absurd (grows gained) (by rw [order]; decide)
    | eq =>
      have same : SameRank policy candidate (candidate.witnessedBy gained) :=
        ⟨rfl, rfl, LawfulEqCmp.eq_of_compare order⟩
      rw [← selectCanonicalBranch_sameRank tip (sameRank_replaced same before after), chosen]
      rfl
    | lt =>
      have eligible := selectCanonicalBranch_eligible chosen
      have top : selectCanonicalBranch tip (before ++ candidate.witnessedBy gained :: after) policy =
          some (candidate.witnessedBy gained) := by
        refine maxBy_eq_some_of_lt (mem_filter.mpr ⟨by simp, eligible⟩) ?_
        intro other isOther apart
        obtain ⟨listed, isEligible⟩ := mem_filter.mp isOther
        have below := le_selectCanonicalBranch chosen other (by
          rw [mem_append, mem_cons] at listed ⊢
          exact listed.imp_right fun rest => .inr (rest.resolve_left apart)) isEligible
        exact TransCmp.lt_of_isLE_of_lt below order
      rw [top]
      rfl
  · have same : SameRank policy candidate (candidate.witnessedBy repeated) :=
      ⟨rfl, rfl, asSet _ _ (subset_append_left _ _)
        (append_subset.mpr ⟨Subset.refl _, known⟩)⟩
    rw [← selectCanonicalBranch_sameRank tip (sameRank_replaced same before after)]

end Witnesses

/-! ### The trace -/

section Trace

variable {winner other : BranchScore} {winnerId otherId : String}

/-- A rule between two branches, as a trace lists it. -/
def RuleEvaluation.ofEntry (winnerId otherId : String) (decisive : Bool)
    (entry : String × Ordering × String × String) : RuleEvaluation :=
  ⟨entry.1, winnerId, otherId, entry.2.2.1, entry.2.2.2, decisive⟩

/-- **The rules tell why the winner is ahead**: no rule is decisive between equal scores, and
otherwise the one that is decisive favours the winner and comes after rules that tie. -/
inductive Explains (winner other : BranchScore) (winnerId otherId : String) :
    List RuleEvaluation → Prop
  | tied (same : winner = other) : Explains winner other winnerId otherId
      ((ruleEntries winner other).map (.ofEntry winnerId otherId false))
  | decided (differ : winner ≠ other) {before after : List (String × Ordering × String × String)}
      {entry : String × Ordering × String × String}
      (rules : ruleEntries winner other = before ++ entry :: after)
      (ties : ∀ rule ∈ before, rule.2.1 = .eq) (ahead : entry.2.1 = .gt) :
      Explains winner other winnerId otherId
        (before.map (.ofEntry winnerId otherId false) ++ .ofEntry winnerId otherId true entry ::
          after.map (.ofEntry winnerId otherId false))

/-- One rule is added to a trace. -/
def traceRule (winnerId otherId : String) (traced : Bool × List RuleEvaluation)
    (entry : String × Ordering × String × String) : Bool × List RuleEvaluation :=
  (traced.1 || (!traced.1 && entry.2.1 != .eq),
    traced.2 ++ [.ofEntry winnerId otherId (!traced.1 && entry.2.1 != .eq) entry])

theorem foldl_traceRule (entries : List (String × Ordering × String × String))
    (trace : List RuleEvaluation) :
    (entries.foldl (traceRule winnerId otherId) (true, trace)).2 =
      trace ++ entries.map (.ofEntry winnerId otherId false) := by
  induction entries generalizing trace with
  | nil => simp
  | cons entry rest ih =>
    rw [foldl_cons]
    exact (ih _).trans (by simp)

theorem foldl_traceRule_cases (entries : List (String × Ordering × String × String))
    (trace : List RuleEvaluation) :
    (∀ rule ∈ entries, rule.2.1 = .eq) ∧
        (entries.foldl (traceRule winnerId otherId) (false, trace)).2 =
          trace ++ entries.map (.ofEntry winnerId otherId false) ∨
      ∃ before entry after, entries = before ++ entry :: after ∧
        (∀ rule ∈ before, rule.2.1 = .eq) ∧ entry.2.1 ≠ .eq ∧
        (entries.foldl (traceRule winnerId otherId) (false, trace)).2 =
          trace ++ (before.map (.ofEntry winnerId otherId false) ++
            .ofEntry winnerId otherId true entry :: after.map (.ofEntry winnerId otherId false)) := by
  induction entries generalizing trace with
  | nil => exact .inl ⟨by simp, by simp⟩
  | cons entry rest ih =>
    rw [foldl_cons]
    by_cases ties : entry.2.1 = .eq
    · have stepped : traceRule winnerId otherId (false, trace) entry =
          (false, trace ++ [.ofEntry winnerId otherId false entry]) := by simp [traceRule, ties]
      rw [stepped]
      obtain ⟨all, traced⟩ | ⟨before, found, after, rfl, earlier, differs, traced⟩ := ih _
      · exact .inl ⟨forall_mem_cons.mpr ⟨ties, all⟩, by rw [traced]; simp⟩
      · exact .inr ⟨entry :: before, found, after, rfl, forall_mem_cons.mpr ⟨ties, earlier⟩,
          differs, by rw [traced]; simp⟩
    · have stepped : traceRule winnerId otherId (false, trace) entry =
          (true, trace ++ [.ofEntry winnerId otherId true entry]) := by
        simp [traceRule, bne_iff_ne.mpr ties]
      refine .inr ⟨[], entry, rest, rfl, by simp, ties, ?_⟩
      rw [stepped, foldl_traceRule]
      simp

theorem compareScores_eq (winner other : BranchScore) : compareScores winner other =
    ((ruleEntries winner other).map fun entry => entry.2.1).foldr Ordering.then .eq := by
  simp [compareScores, ruleEntries]

theorem foldr_then_eq {orders : List Ordering} (ties : ∀ order ∈ orders, order = .eq)
    (rest : Ordering) : orders.foldr Ordering.then rest = rest := by
  induction orders with
  | nil => rfl
  | cons order orders ih =>
    rw [forall_mem_cons] at ties
    rw [foldr_cons, ih ties.2, ties.1, Ordering.eq_then]

theorem buildRuleTrace_explains (below : (compareScores other winner).isLE) :
    Explains winner other winnerId otherId (buildRuleTrace winner other winnerId otherId) := by
  have folded : buildRuleTrace winner other winnerId otherId =
      ((ruleEntries winner other).foldl (traceRule winnerId otherId) (false, [])).2 := rfl
  rw [folded]
  obtain ⟨ties, traced⟩ | ⟨_, entry, after, rules, ties, differs, traced⟩ :=
    @foldl_traceRule_cases winnerId otherId (ruleEntries winner other) []
  · rw [traced, nil_append]
    refine .tied (LawfulEqCmp.eq_of_compare (?_ : compareScores winner other = .eq))
    rw [compareScores_eq]
    exact foldr_then_eq (forall_mem_map.mpr ties) .eq
  · have order : compareScores winner other =
        entry.2.1.then ((after.map fun entry => entry.2.1).foldr Ordering.then .eq) := by
      rw [compareScores_eq, rules, map_append, map_cons, foldr_append,
        foldr_then_eq (forall_mem_map.mpr ties), foldr_cons]
    rw [traced, nil_append]
    have swapped : compareScores other winner = (compareScores winner other).swap :=
      OrientedCmp.eq_swap
    rw [swapped, order] at below
    refine .decided (fun same => ?_) rules ties ?_
    · have equal : compareScores winner other = .eq := by
        rw [same]
        exact ReflCmp.compare_self
      rw [order] at equal
      exact differs (Ordering.then_eq_eq.mp equal).1
    · cases ahead : entry.2.1 with
      | lt => rw [ahead] at below; cases below
      | eq => exact absurd ahead differs
      | gt => rfl

/-- **The trace explains the selection.** -/
theorem trace_explains (policy : ConvergencePolicy) (tip : Nat) (candidates : List BranchCandidate)
    (distinct : (candidates.map BranchCandidate.id).Nodup) :
    (selectCanonicalBranchTraced tip candidates policy).selectedBranchId =
        (selectCanonicalBranch tip candidates policy).map BranchCandidate.id ∧
      (selectCanonicalBranchTraced tip candidates policy).losingBranchIds.Nodup ∧
      (∀ id, id ∈ (selectCanonicalBranchTraced tip candidates policy).losingBranchIds ↔
        id ∈ candidates.map BranchCandidate.id ∧
          some id ≠ (selectCanonicalBranch tip candidates policy).map BranchCandidate.id) ∧
      (selectCanonicalBranch tip candidates policy = none →
        (selectCanonicalBranchTraced tip candidates policy).ruleTrace = []) ∧
      ∀ winner, selectCanonicalBranch tip candidates policy = some winner →
        (∀ candidate ∈ candidates, isBranchEligible tip candidate policy →
            candidate.id = winner.id) ∧
          (selectCanonicalBranchTraced tip candidates policy).ruleTrace = [] ∨
        ∃ other ∈ candidates, other.id ≠ winner.id ∧ isBranchEligible tip other policy ∧
          (∀ candidate ∈ candidates, isBranchEligible tip candidate policy →
            candidate.id ≠ winner.id → (compareCandidates policy candidate other).isLE) ∧
          Explains (winner.score policy) (other.score policy) winner.id other.id
            (selectCanonicalBranchTraced tip candidates policy).ruleTrace := by
  have losing : (selectCanonicalBranchTraced tip candidates policy).losingBranchIds =
      ((sortBy (compareOn BranchCandidate.id) candidates).map BranchCandidate.id).filter fun id =>
        some id != (selectCanonicalBranch tip candidates policy).map BranchCandidate.id := by
    simp only [selectCanonicalBranchTraced, filter_map, map_map]
    rfl
  have others : ∀ winner candidate, candidate ∈ ((sortBy (compareOn BranchCandidate.id)
      candidates).filter fun candidate => isBranchEligible tip candidate policy).filter
        (fun candidate => candidate.id != winner) ↔
      candidate ∈ candidates ∧ isBranchEligible tip candidate policy ∧ candidate.id ≠ winner := by
    intro winner candidate
    rw [mem_filter, mem_filter, mem_sortBy, bne_iff_ne, and_assoc]
  refine ⟨rfl, ?_, fun id => ?_, fun none => ?_, fun winner chosen => ?_⟩
  · rw [losing]
    exact (((sortBy_perm candidates).map _).nodup_iff.mpr distinct).filter _
  · rw [losing, mem_filter, bne_iff_ne, ((sortBy_perm candidates).map _).mem_iff]
  · simp only [selectCanonicalBranchTraced, none, selectionRuleTrace]
  · simp only [selectCanonicalBranchTraced, chosen, selectionRuleTrace]
    cases found : runnerUp tip (sortBy (compareOn BranchCandidate.id) candidates) policy winner with
    | none =>
      refine .inl ⟨fun candidate member eligible => ?_, rfl⟩
      by_contra apart
      refine ne_nil_of_mem ((others winner.id candidate).mpr ⟨member, eligible, apart⟩) ?_
      exact maxBy_eq_none.mp found
    | some other =>
      obtain ⟨member, eligible, apart⟩ := (others winner.id other).mp (maxBy_mem found)
      refine .inr ⟨other, member, apart, eligible, fun candidate isCandidate isEligible differs => ?_,
        buildRuleTrace_explains (le_selectCanonicalBranch chosen other member eligible)⟩
      exact le_maxBy found candidate ((others winner.id candidate).mpr
        ⟨isCandidate, isEligible, differs⟩)

def plainBranches : List BranchCandidate :=
  [plainBranch "a" 1, plainBranch "b" 2, plainBranch "c" 1]

/-- The trace of three branches: two of them lose, and it says why. -/
theorem plain_trace :
    (selectCanonicalBranchTraced 2 plainBranches .default).selectedBranchId = some "b" ∧
    (selectCanonicalBranchTraced 2 plainBranches .default).losingBranchIds.Nodup ∧
    (∀ id, id ∈ (selectCanonicalBranchTraced 2 plainBranches .default).losingBranchIds ↔
      id ∈ ["a", "b", "c"] ∧ some id ≠ some "b") ∧
    ∃ other ∈ plainBranches, other.id ≠ "b" ∧
      Explains ((plainBranch "b" 2).score .default) (other.score .default) "b" other.id
        (selectCanonicalBranchTraced 2 plainBranches .default).ruleTrace := by
  have chosen : selectCanonicalBranch 2 plainBranches .default = some (plainBranch "b" 2) := by
    decide +kernel
  obtain ⟨selected, distinct, losing, -, explained⟩ :=
    trace_explains .default 2 plainBranches (by decide)
  rw [chosen] at selected losing
  refine ⟨selected, distinct, losing, ?_⟩
  rcases explained _ chosen with ⟨alone, -⟩ | ⟨other, listed, apart, -, -, explains⟩
  · exact absurd (alone (plainBranch "a" 1) mem_cons_self (by decide)) (by decide)
  · exact ⟨other, listed, apart, explains⟩

end Trace

end Darkmatter
