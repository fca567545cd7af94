/-
**Branches of commits.**

A group state is known by its branch, the commits merged so far. `OpenMls.Branching` says that a
commit of another client applies on no branch but the one it was made on, and that nothing but a commit
changes the branch. `Branching.ProposalLaws` says that a commit applies on every state of its branch
that holds the proposals it consumes:

* `Branching.replayed` — **a replay extends the branch by the commits it replays**, and none of them is
  refused;
* `ProposalLaws.replayed_leads` — **what replays from a state replays from every state of the same
  branch that holds its proposals**;
* `symbolicBranching` — the symbolic OpenMLS is of this kind;
* `holdingMls`, `holdingLaws` — a symbolic OpenMLS whose commits consume proposals.
-/

import Darkmatter.Projection.Candidates

namespace Darkmatter

open Std Lib List

/-! ### Branches -/

/-- **An OpenMLS whose states are branches of commits.** A commit has one parent branch, and it is
accepted on no other. From the wire it is never accepted if it is `refused`, as the commits of the
client itself are. Priority and committer are said by the commit alone. -/
structure OpenMls.Branching {Group : Type} (mls : OpenMls Group) where
  base : Nat
  branch : Group → List Bytes
  parent : Bytes → List Bytes
  refused : Bytes → Prop
  priority : Bytes → CommitOrderingPriority
  committer : Bytes → Bytes
  epoch : ∀ group, mls.epoch group = base + (branch group).length
  made : ∀ {group : Group} {before after : List Bytes} {bytes : Bytes},
    branch group = before ++ bytes :: after →
      parent bytes = before ∧ ∃ epoch, mls.decode bytes = .ok (some ⟨.commit, epoch⟩)
  source : ∀ {bytes : Bytes} {epoch : Nat}, mls.decode bytes = .ok (some ⟨.commit, epoch⟩) →
    epoch = base + (parent bytes).length
  staged : ∀ {group merged : Group} {bytes sender : Bytes} {class_ : CommitOrderingPriority}
    {refs : List String}, mls.processCommit group bytes = .staged class_ sender refs merged →
      ¬ refused bytes ∧ branch group = parent bytes ∧ branch merged = branch group ++ [bytes] ∧
        class_ = priority bytes ∧ sender = committer bytes
  proposalStored : ∀ {group next : Group} {bytes : Bytes} {proposalRef : String},
    mls.processProposal group bytes = .stored proposalRef next → branch next = branch group
  proposalJoin : ∀ {group next : Group} {bytes : Bytes},
    mls.processProposal group bytes = .externalJoin next → branch next = branch group
  applicationProcessed : ∀ {group next : Group} {bytes sender payload : Bytes},
    mls.processApplication group bytes = .processed sender payload next → branch next = branch group
  applicationIgnored : ∀ {group next : Group} {bytes : Bytes},
    mls.processApplication group bytes = .ignored next → branch next = branch group
  merged : ∀ {group merged : Group} {bytes : Bytes},
    mls.mergePendingCommit group bytes = some merged →
      refused bytes ∧ branch group = parent bytes ∧ branch merged = branch group ++ [bytes] ∧
        mls.decode bytes = .ok (some ⟨.commit, mls.epoch group⟩)

section Branches

variable {Group : Type} {mls : OpenMls Group} (branching : mls.Branching)

namespace OpenMls.Branching

include branching in
theorem epochLaws : mls.EpochLaws where
  commit := by
    intro group _ bytes _ _ _ staged
    rw [branching.epoch, branching.epoch, (branching.staged staged).2.2.1, length_append]
    rfl
  proposalStored := by
    intro group next bytes _ stored
    rw [branching.epoch, branching.epoch, branching.proposalStored stored]
  proposalJoin := by
    intro group next bytes joined
    rw [branching.epoch, branching.epoch, branching.proposalJoin joined]
  applicationProcessed := by
    intro group _ bytes _ _ processed
    rw [branching.epoch, branching.epoch, branching.applicationProcessed processed]
  applicationIgnored := by
    intro _ _ _ ignored
    rw [branching.epoch, branching.epoch, branching.applicationIgnored ignored]
  pendingMerged := by
    intro _ _ _ made
    rw [branching.epoch, branching.epoch, (branching.merged made).2.2.1, length_append]
    rfl

theorem processed {group next : Group} {message : TransportMessage}
    {observation : OpenMlsReplayObservation}
    (processed : mls.processOpenmlsMessage group message = .ok (observation, next)) :
    branching.branch next =
        branching.branch group ++ (mls.commitsOf [message]).map TransportMessage.payload ∧
      ∀ commit ∈ mls.commitsOf [message], ¬ branching.refused commit.payload := by
  rw [commitsOf, filter_cons, filter_nil, kindOf]
  cases Processed.of_ok processed with
  | welcome decoded => simp [decoded]
  | commit decoded staged =>
    simpa [decoded] using ⟨(branching.staged staged).2.2.1, (branching.staged staged).1⟩
  | proposal decoded stored => simpa [decoded] using branching.proposalStored stored
  | externalJoin decoded joined => simpa [decoded] using branching.proposalJoin joined
  | application decoded decrypted => simpa [decoded] using branching.applicationProcessed decrypted
  | undecrypted decoded ignored => simpa [decoded] using branching.applicationIgnored ignored

/-- **A replay extends the branch by its commits.** -/
theorem replayed {group : Group} {messages : List TransportMessage}
    {output : OpenMlsReplayOutput Group}
    (replayed : mls.processOpenmlsMessagesInner group messages = .ok output) :
    branching.branch output.group =
        branching.branch group ++ (mls.commitsOf messages).map TransportMessage.payload ∧
      ∀ commit ∈ mls.commitsOf messages, ¬ branching.refused commit.payload := by
  induction messages generalizing group output with
  | nil =>
    cases replayed
    simp [commitsOf]
  | cons message rest ih =>
    obtain ⟨_, _, _, here, after, rfl⟩ :=
      processOpenmlsMessagesInner_cons_ok.mp replayed
    obtain ⟨branch, accepted⟩ := branching.processed here
    obtain ⟨branch', accepted'⟩ := ih after
    rw [show mls.commitsOf (message :: rest) = mls.commitsOf [message] ++ mls.commitsOf rest from
      commitsOf_append [message] rest]
    refine ⟨?_, fun commit member => ?_⟩
    · rw [branch', branch, append_assoc, map_append]
    · exact (mem_append.mp member).elim (accepted commit) (accepted' commit)

end OpenMls.Branching

/-! ### Replays from other states of a branch -/

/-- **What decides whether a handshake message is taken in**: the branch of a state and the proposals
that it holds. A commit consumes proposals that are held, and leaves none. -/
structure OpenMls.Branching.ProposalLaws where
  held : Group → Set String
  consumed : ∀ {group merged : Group} {bytes sender : Bytes} {class_ : CommitOrderingPriority}
    {refs : List String}, mls.processCommit group bytes = .staged class_ sender refs merged →
      ∀ ref ∈ refs, ref ∈ held group
  emptied : ∀ {group merged : Group} {bytes sender : Bytes} {class_ : CommitOrderingPriority}
    {refs : List String}, mls.processCommit group bytes = .staged class_ sender refs merged →
      held merged = ∅
  commitAgain : ∀ {group merged other : Group} {bytes sender : Bytes}
    {class_ : CommitOrderingPriority} {refs : List String},
      mls.processCommit group bytes = .staged class_ sender refs merged →
      branching.branch other = branching.branch group → (∀ ref ∈ refs, ref ∈ held other) →
        ∃ merged, mls.processCommit other bytes = .staged class_ sender refs merged
  stored : ∀ {group next : Group} {bytes : Bytes} {proposalRef : String},
    mls.processProposal group bytes = .stored proposalRef next →
      held next = insert proposalRef (held group)
  proposalAgain : ∀ {group next other : Group} {bytes : Bytes} {proposalRef : String},
    mls.processProposal group bytes = .stored proposalRef next →
      branching.branch other = branching.branch group →
        ∃ next, mls.processProposal other bytes = .stored proposalRef next
  joined : ∀ {group next : Group} {bytes : Bytes},
    mls.processProposal group bytes = .externalJoin next → held next = held group
  processed : ∀ {group next : Group} {bytes sender payload : Bytes},
    mls.processApplication group bytes = .processed sender payload next → held next = held group
  ignored : ∀ {group next : Group} {bytes : Bytes},
    mls.processApplication group bytes = .ignored next → held next = held group

namespace OpenMls.Branching.ProposalLaws

variable {branching} (laws : branching.ProposalLaws) {group other target last : Group}
  {messages : List TransportMessage} {message : TransportMessage} {output : OpenMlsReplayOutput Group}

/-- The other state is of the same branch, and holds at least the proposals. -/
structure Covers (group other : Group) : Prop where
  branch : branching.branch other = branching.branch group
  held : laws.held group ⊆ laws.held other

/-- **Commits and proposals lead from a state** to one that covers another. -/
def Leads (group target : Group) : Prop :=
  ∃ messages output, (∀ message ∈ messages, mls.kindOf message = some .commit ∨
      mls.kindOf message = some .proposal) ∧
    mls.processOpenmlsMessagesInner group messages = .ok output ∧ laws.Covers target output.group

variable {laws}

theorem Covers.refl : laws.Covers group group := ⟨rfl, Set.Subset.rfl⟩

theorem Covers.leads (covers : laws.Covers target group) : laws.Leads group target :=
  ⟨[], ⟨[], group⟩, fun _ listed => absurd listed not_mem_nil, rfl, covers⟩

theorem leads_of_processed {observation : OpenMlsReplayObservation}
    (handshake : mls.kindOf message = some .commit ∨ mls.kindOf message = some .proposal)
    (processed : mls.processOpenmlsMessage group message = .ok (observation, other))
    (covers : laws.Covers target other) : laws.Leads group target := by
  refine ⟨[message], ⟨[observation], other⟩, ?_, ?_, covers⟩
  · rintro _ listed
    rwa [mem_singleton.mp listed]
  · exact processOpenmlsMessagesInner_cons_ok.mpr ⟨_, _, ⟨[], other⟩, processed, rfl, rfl⟩

/-- **One message from another state.** Messages that are no handshake are left out. -/
theorem processed_leads {observation : OpenMlsReplayObservation} (covers : laws.Covers group other)
    (processed : mls.processOpenmlsMessage group message = .ok (observation, target)) :
    laws.Leads other target := by
  cases Processed.of_ok processed with
  | welcome => exact covers.leads
  | commit decoded staged =>
    obtain ⟨merged, again⟩ := laws.commitAgain staged covers.branch fun ref listed =>
      covers.held (laws.consumed staged ref listed)
    refine leads_of_processed (.inl (by rw [kindOf, decoded]))
      (by rw [processOpenmlsMessage, decoded]; simp only [again]; rfl)
      ⟨?_, (laws.emptied staged).subset.trans (Set.empty_subset _)⟩
    rw [(branching.staged staged).2.2.1, (branching.staged again).2.2.1, covers.branch]
  | proposal decoded stored =>
    obtain ⟨next, again⟩ := laws.proposalAgain stored covers.branch
    refine leads_of_processed (.inr (by rw [kindOf, decoded]))
      (by rw [processOpenmlsMessage, decoded]; simp only [again]; rfl) ⟨?_, ?_⟩
    · rw [branching.proposalStored stored, branching.proposalStored again, covers.branch]
    · rw [laws.stored stored, laws.stored again]
      exact Set.insert_subset_insert covers.held
  | externalJoin decoded joined =>
    exact Covers.leads ⟨by rw [branching.proposalJoin joined, covers.branch],
      by rw [laws.joined joined]; exact covers.held⟩
  | application decoded decrypted =>
    exact Covers.leads ⟨by rw [branching.applicationProcessed decrypted, covers.branch],
      by rw [laws.processed decrypted]; exact covers.held⟩
  | undecrypted decoded ignored =>
    exact Covers.leads ⟨by rw [branching.applicationIgnored ignored, covers.branch],
      by rw [laws.ignored ignored]; exact covers.held⟩

/-- Handshakes before those that lead to a state lead to it. -/
theorem Leads.prepend (handshakes : ∀ message ∈ messages, mls.kindOf message = some .commit ∨
      mls.kindOf message = some .proposal)
    (replayed : mls.processOpenmlsMessagesInner group messages = .ok output)
    (leads : laws.Leads output.group target) : laws.Leads group target := by
  obtain ⟨more, final, others, later, covers⟩ := leads
  refine ⟨messages ++ more, ⟨output.observations ++ final.observations, final.group⟩, ?_,
    processOpenmlsMessagesInner_append_ok.mpr ⟨output, final, replayed, later, rfl⟩, covers⟩
  exact fun message listed => (mem_append.mp listed).elim (handshakes message) (others message)

/-- **What replays from a state replays from every state that covers it.** -/
theorem replayed_leads (covers : laws.Covers group other)
    (replayed : mls.processOpenmlsMessagesInner group messages = .ok output) :
    laws.Leads other output.group := by
  induction messages generalizing group other output with
  | nil =>
    cases replayed
    exact covers.leads
  | cons message rest ih =>
    obtain ⟨_, next, _, here, after, rfl⟩ :=
      processOpenmlsMessagesInner_cons_ok.mp replayed
    obtain ⟨first, reached, handshakes, begun, covers⟩ := processed_leads covers here
    have later := ih covers after
    exact Leads.prepend handshakes begun later

theorem Leads.trans (first : laws.Leads group target) (second : laws.Leads target last) :
    laws.Leads group last := by
  obtain ⟨messages, output, handshakes, replayed, covers⟩ := first
  obtain ⟨more, final, _, later, covers'⟩ := second
  refine Leads.prepend handshakes replayed ?_
  obtain ⟨again, reached, others, begun, covers''⟩ := replayed_leads covers later
  exact ⟨again, reached, others, begun, covers''.branch.trans covers'.branch,
    covers'.held.trans covers''.held⟩

/-- **A replay passes through the states its commits lead to**: after any of its commits nothing is
held, and the rest replays from there. -/
theorem replayed_through (laws : branching.ProposalLaws) (count : Nat)
    (replayed : mls.processOpenmlsMessagesInner group messages = .ok output)
    (some : 0 < count) (few : count ≤ (mls.commitsOf messages).length) :
    ∃ middle rest after, branching.branch middle = branching.branch group ++
        ((mls.commitsOf messages).map TransportMessage.payload).take count ∧
      laws.held middle = ∅ ∧ mls.processOpenmlsMessagesInner middle rest = .ok after ∧
      after.group = output.group := by
  induction messages generalizing group output count with
  | nil => exact absurd few (by simp [commitsOf]; omega)
  | cons message rest ih =>
    obtain ⟨_, next, later, here, after, rfl⟩ :=
      processOpenmlsMessagesInner_cons_ok.mp replayed
    have branch := (branching.processed here).1
    rw [show mls.commitsOf (message :: rest) = mls.commitsOf [message] ++ mls.commitsOf rest from
      commitsOf_append [message] rest] at few ⊢
    by_cases isCommit : mls.kindOf message = Option.some .commit
    · have only : mls.commitsOf [message] = [message] := by
        rw [commitsOf, filter_cons, if_pos (decide_eq_true isCommit), filter_nil]
      rw [only] at branch few ⊢
      obtain rfl | more : count = 1 ∨ 1 < count := by omega
      · refine ⟨next, rest, later, branch, ?_, after, rfl⟩
        cases Processed.of_ok here with
        | commit _ staged => exact laws.emptied staged
        | welcome decoded | proposal decoded | externalJoin decoded | application decoded
        | undecrypted decoded => simp [kindOf, decoded] at isCommit
      · obtain ⟨middle, rest, after, reached, empty, replays, ends⟩ :=
          ih (count - 1) after (by omega) (by simp at few; omega)
        refine ⟨middle, rest, after, ?_, empty, replays, ends⟩
        obtain ⟨fewer, rfl⟩ : ∃ fewer, count = fewer + 1 := ⟨count - 1, by omega⟩
        rw [reached, branch, append_assoc]
        rfl
    · have none : mls.commitsOf [message] = [] := by
        rw [commitsOf, filter_cons, if_neg (by simpa using isCommit), filter_nil]
      rw [none, map_nil, append_nil] at branch
      rw [none, nil_append] at few ⊢
      rw [← branch]
      have through := ih count after some few
      exact through

end OpenMls.Branching.ProposalLaws

end Branches

/-! ### The branches of the symbolic OpenMLS -/

/-- The commits a symbolic state was made by. -/
def symbolicBranch : SymbolicGroup → List Bytes
  | [] => []
  | name :: state => symbolicBranch state ++ [0 :: name :: state]

theorem symbolicBranch_length (group : SymbolicGroup) :
    (symbolicBranch group).length = group.length := by
  induction group with
  | nil => rfl
  | cons name state ih => rw [symbolicBranch, length_append, ih]; rfl

theorem symbolicBranch_injective {first second : SymbolicGroup}
    (same : symbolicBranch first = symbolicBranch second) : first = second := by
  cases first with
  | nil =>
    have length := congrArg length same
    rw [symbolicBranch_length, symbolicBranch_length] at length
    exact (length_eq_zero_iff.mp length.symm).symm
  | cons =>
    cases second with
    | nil =>
      have length := congrArg length same
      rw [symbolicBranch_length, symbolicBranch_length] at length
      cases length
    | cons =>
      have last := (append_inj' same rfl).2
      rw [singleton_inj, cons.injEq] at last
      exact last.2

theorem symbolicBranch_made {group : SymbolicGroup} {before after : List Bytes} {bytes : Bytes}
    (onBranch : symbolicBranch group = before ++ bytes :: after) :
    ∃ name state, bytes = 0 :: name :: state ∧ before = symbolicBranch state := by
  induction group generalizing after with
  | nil =>
    have length := congrArg length onBranch
    simp [symbolicBranch] at length
  | cons name state ih =>
    rw [symbolicBranch] at onBranch
    rcases eq_nil_or_concat after with rfl | ⟨_, _, rfl⟩
    · obtain ⟨rfl, same⟩ := append_inj' onBranch rfl
      exact ⟨name, state, (singleton_inj.mp same).symm, rfl⟩
    · rw [concat_eq_append, ← cons_append, ← append_assoc] at onBranch
      exact ih (append_inj' onBranch rfl).1

def symbolicParent : Bytes → List Bytes
  | 0 :: _ :: state => symbolicBranch state
  | _ => []

variable (own : List UInt8)

def symbolicRefused : Bytes → Prop
  | 0 :: name :: _ => name ∈ own
  | _ => False

/-- **The branches of the symbolic OpenMLS.** -/
def symbolicBranching : (symbolicMls own).Branching where
  base := 0
  branch := symbolicBranch
  parent := symbolicParent
  refused := symbolicRefused own
  priority := fun _ => .ordinary
  committer := fun _ => []
  epoch := by
    intro group
    rw [symbolicBranch_length, Nat.zero_add]
    rfl
  made := by
    intro group before after bytes onBranch
    obtain ⟨name, state, rfl, rfl⟩ := symbolicBranch_made onBranch
    exact ⟨rfl, state.length, rfl⟩
  source := by
    intro bytes epoch decoded
    simp only [symbolicMls, symbolicDecode] at decoded
    split at decoded <;> cases decoded
    rw [symbolicParent, symbolicBranch_length, Nat.zero_add]
  staged := by
    intro group merged bytes sender class_ refs staged
    simp only [symbolicMls, symbolicCommit] at staged
    split at staged <;> [split at staged; skip] <;> cases staged
    rename_i made
    obtain ⟨foreign, rfl⟩ := made
    exact ⟨foreign, rfl, rfl, rfl, rfl⟩
  proposalStored := by
    intro group next bytes proposalRef stored
    simp only [symbolicMls, symbolicProposal] at stored
    split at stored <;> [split at stored; skip] <;> cases stored
    rfl
  proposalJoin := by
    intro group next bytes joined
    simp only [symbolicMls, symbolicProposal] at joined
    split at joined <;> [split at joined; skip] <;> cases joined
  applicationProcessed := by
    intro group next bytes sender payload processed
    simp only [symbolicMls, symbolicApplication] at processed
    split at processed <;> [split at processed; skip] <;> cases processed
    rfl
  applicationIgnored := by
    intro group next bytes ignored
    simp only [symbolicMls, symbolicApplication] at ignored
    split at ignored <;> [split at ignored; skip] <;> cases ignored
    rfl
  merged := by
    intro group merged bytes made
    simp only [symbolicMls, symbolicPendingCommit] at made
    split at made <;> [split at made; skip] <;> cases made
    rename_i isOwn
    obtain ⟨own, rfl⟩ := isOwn
    exact ⟨own, rfl, rfl, rfl⟩

theorem symbolicMls_epochLaws : (symbolicMls own).EpochLaws :=
  (symbolicBranching own).epochLaws

/-! ### A symbolic OpenMLS that holds proposals -/

/-- A symbolic state with the names of the proposals that it holds. -/
structure HoldingGroup where
  state : SymbolicGroup
  held : List UInt8
deriving DecidableEq, Repr

variable (needs : UInt8 → List UInt8)

/-- A commit applies on the state it was made on, once the proposals that it needs are held. -/
def holdingCommit (group : HoldingGroup) : Bytes → CommitOutcome HoldingGroup
  | 0 :: name :: state =>
    if state = group.state ∧ needs name ⊆ group.held then
      .staged .ordinary [] ((needs name).map fun need => hexEncode [need]) ⟨name :: state, []⟩
    else
      .failed
  | _ => .failed

def holdingProposal (group : HoldingGroup) : Bytes → ProposalOutcome HoldingGroup
  | 1 :: name :: state =>
    if state = group.state then .stored (hexEncode [name]) ⟨state, name :: group.held⟩ else .failed
  | _ => .failed

def holdingApplication (group : HoldingGroup) : Bytes → ApplicationOutcome HoldingGroup
  | 2 :: name :: state =>
    if state <:+ group.state then .processed [name] [name] group else .ignored group
  | _ => .failed

/-- **OpenMLS with commits that consume proposals**, for a client that makes none itself. -/
def holdingMls : OpenMls HoldingGroup where
  sha256 := id
  pathHash := (symbolicMls []).pathHash
  decode := symbolicDecode
  epoch := fun group => group.state.length
  processCommit := holdingCommit needs
  processProposal := holdingProposal
  processApplication := holdingApplication
  mergePendingCommit := fun _ _ => none

def holdingBranching : (holdingMls needs).Branching where
  base := 0
  branch := fun group => symbolicBranch group.state
  parent := symbolicParent
  refused := fun _ => False
  priority := fun _ => .ordinary
  committer := fun _ => []
  epoch := fun group => (symbolicBranching []).epoch group.state
  made := fun onBranch => (symbolicBranching []).made onBranch
  source := fun decoded => (symbolicBranching []).source decoded
  staged := by
    intro group merged bytes sender class_ refs staged
    simp only [holdingMls, holdingCommit] at staged
    split at staged <;> [split at staged; skip] <;> cases staged
    rename_i made
    obtain ⟨rfl, _⟩ := made
    exact ⟨not_false, rfl, rfl, rfl, rfl⟩
  proposalStored := by
    intro group next bytes proposalRef stored
    simp only [holdingMls, holdingProposal] at stored
    split at stored <;> [split at stored; skip] <;> cases stored
    rename_i made
    rw [made]
  proposalJoin := by
    intro group next bytes joined
    simp only [holdingMls, holdingProposal] at joined
    split at joined <;> [split at joined; skip] <;> cases joined
  applicationProcessed := by
    intro group next bytes sender payload processed
    simp only [holdingMls, holdingApplication] at processed
    split at processed <;> [split at processed; skip] <;> cases processed
    rfl
  applicationIgnored := by
    intro group next bytes ignored
    simp only [holdingMls, holdingApplication] at ignored
    split at ignored <;> [split at ignored; skip] <;> cases ignored
    rfl
  merged := by
    intro group merged bytes made
    cases made

/-- **The proposals of a state decide what it takes in.** -/
def holdingLaws : (holdingBranching needs).ProposalLaws where
  held := fun group => {ref | ∃ name ∈ group.held, ref = hexEncode [name]}
  consumed := by
    intro group merged bytes sender class_ refs staged ref listed
    simp only [holdingMls, holdingCommit] at staged
    split at staged <;> [split at staged; skip] <;> cases staged
    rename_i made
    obtain ⟨need, needed, rfl⟩ := mem_map.mp listed
    exact ⟨need, made.2 needed, rfl⟩
  emptied := by
    intro group merged bytes sender class_ refs staged
    simp only [holdingMls, holdingCommit] at staged
    split at staged <;> [split at staged; skip] <;> cases staged
    simp
  commitAgain := by
    intro group merged other bytes sender class_ refs staged same holds
    simp only [holdingMls, holdingCommit] at staged ⊢
    split at staged <;> [split at staged; skip] <;> cases staged
    rename_i name state made
    obtain rfl := made.1.trans (symbolicBranch_injective same).symm
    refine ⟨_, if_pos ⟨rfl, fun need needed => ?_⟩⟩
    obtain ⟨held, listed, named⟩ := holds _ (mem_map_of_mem needed)
    rwa [singleton_inj.mp (hexEncode_injective named)]
  stored := by
    intro group next bytes proposalRef stored
    simp only [holdingMls, holdingProposal] at stored
    split at stored <;> [split at stored; skip] <;> cases stored
    ext ref
    simp
  proposalAgain := by
    intro group next other bytes proposalRef stored same
    simp only [holdingMls, holdingProposal] at stored ⊢
    split at stored <;> [split at stored; skip] <;> cases stored
    rename_i name state made
    obtain rfl := made.trans (symbolicBranch_injective same).symm
    exact ⟨_, if_pos rfl⟩
  joined := by
    intro group next bytes joined
    simp only [holdingMls, holdingProposal] at joined
    split at joined <;> [split at joined; skip] <;> cases joined
  processed := by
    intro group next bytes sender payload processed
    simp only [holdingMls, holdingApplication] at processed
    split at processed <;> [split at processed; skip] <;> cases processed
    rfl
  ignored := by
    intro group next bytes ignored
    simp only [holdingMls, holdingApplication] at ignored
    split at ignored <;> [split at ignored; skip] <;> cases ignored
    rfl

end Darkmatter
