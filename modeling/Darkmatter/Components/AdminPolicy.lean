/-
**The admins of a group over the history of its commits.**

A commit is merged when it passes the checks on its component updates, the admin check, the coupling
of admins and leaves, and the identity proofs. The checks on the component updates read the list of
required components as it was before the commit; the coupling is vacuous when the resulting dictionary
has no admin policy.

* `MlsGroup`, `StagedCommit` — the group and the commits, as far as the checks read them;
* `acceptCommit`, `acceptAll` — one commit, and a history of commits;
* `MlsGroup.AdminSafe` — the policy is there, it has an admin, and every admin has a leaf;
* `Accepted.adminSafe` — **a merged commit that keeps the policy is safe**;
* `required_policy_safe` — **a history is safe as long as the group requires the policy**.
-/

import Darkmatter.Components.Codec
import Darkmatter.Lib.Table

namespace Darkmatter

open Std Lib Option

/-! ### Groups and commits -/

inductive Credential
  | basic (identity : Bytes)
  | other (credentialType : Nat)
deriving DecidableEq, Repr

/-- A leaf node: the credential, the signature key and the raw proof of the account identity. -/
structure LeafNode where
  credential : Credential
  signatureKey : Bytes
  identityProof : Option Bytes
deriving DecidableEq, Repr

abbrev AppDataDictionary := Table AppComponentId Bytes

/-- A group: the leaves that are taken, under their index, and the dictionary of its context. -/
structure MlsGroup where
  groupId : Bytes
  members : Table Nat LeafNode
  appDataDictionary : Option AppDataDictionary

inductive Sender
  | member (index : Nat)
  | external
deriving DecidableEq, Repr

inductive AppDataUpdateOperation
  | update (data : Bytes)
  | remove
deriving DecidableEq, Repr

/-- A proposal. An addition has the leaf of its key package; the extensions of a group context have
the dictionary they carry; the proposals that the checks treat alike are `other`. -/
inductive Proposal
  | add (leaf : LeafNode)
  | remove (index : Nat)
  | update (leaf : LeafNode)
  | selfRemove
  | appDataUpdate (componentId : AppComponentId) (operation : AppDataUpdateOperation)
  | groupContextExtensions (dictionary : Option AppDataDictionary)
  | other

structure QueuedProposal where
  sender : Sender
  proposal : Proposal

structure StagedCommit where
  sender : Sender
  queuedProposals : List QueuedProposal
  updatePathLeafNode : Option LeafNode

/-- The errors of the checks, with their texts. -/
inductive CommitRejection
  | wrongWireFormat
  | attemptedSelfRemoval
  | notGroupAdmin (groupId : Bytes)
  | adminCannotSelfRemove (groupId : Bytes)
  | invalidCredentialIdentity (text : String)
  | invalidAccountIdentityProof (text : String)
  | serialize (text : String)
  | backend (text : String)
  | other (text : String)
deriving DecidableEq, Repr

/-- **The checks that are left open**: the decoders of the other components, the curve check on an
identity, and the signature of an identity proof. -/
structure CommitChecks where
  validComponent : AppComponentId → Bytes → Except String Unit
  isXOnlyKey : Bytes → Bool
  provesIdentity : LeafNode → Except String Unit

/-! ### Reading a group -/

section Reading

variable (group : MlsGroup)

def appComponentBytes (componentId : AppComponentId) : Option Bytes :=
  group.appDataDictionary.bind fun dictionary => dictionary[componentId]?

def requiredAppComponentsOfGroup : Except CommitRejection (List AppComponentId) :=
  match appComponentBytes group appComponentsComponentId with
  | none => .ok []
  | some bytes => (decodeComponentsList bytes).mapError
      fun error => .serialize s!"group app_components decode failed: {error}"

def adminsOfGroup : Except CommitRejection (List Bytes) :=
  match appComponentBytes group groupAdminPolicyComponentId with
  | none => .ok []
  | some bytes => (decodeAdminPolicy bytes).mapError .serialize

def basicIdentity : Credential → Option Bytes
  | .basic identity => some identity
  | .other _ => none

/-- The member behind a sender, as the admin checks read it. -/
def memberIdOfSender : Sender → Option Bytes
  | .member index => do basicIdentity (← group.members[index]?).credential
  | .external => none

/-- The account of a leaf. -/
def credentialAccountPubkey (credential : Credential) : Option Bytes :=
  (basicIdentity credential).filter fun identity => identity.length = 32

end Reading

/-! ### The checks -/

section Checks

variable (checks : CommitChecks) (group : MlsGroup) (commit : StagedCommit)

def validateCredentialIdentity (identity : Bytes) : Except CommitRejection Unit :=
  if identity.length ≠ 32 then
    .error (.invalidCredentialIdentity
      s!"credential identity must be exactly 32 bytes; got {identity.length}")
  else if checks.isXOnlyKey identity then
    .ok ()
  else
    .error (.invalidCredentialIdentity
      "credential identity is not a valid x-only secp256k1 public key")

def validatedMemberId (credential : Credential) : Except CommitRejection Bytes :=
  match basicIdentity credential with
  | none => .error (.invalidCredentialIdentity "not a BasicCredential")
  | some identity => do
    validateCredentialIdentity checks identity
    pure identity

/-- The authenticated member behind a sender. -/
def senderMemberId : Sender → Option Bytes
  | .member index => do (validatedMemberId checks (← group.members[index]?).credential).toOption
  | .external => none

/-- An update has to decode. -/
def validateAppComponentUpdate (componentId : AppComponentId) (data : Bytes) :
    Except CommitRejection Unit :=
  if componentId = appComponentsComponentId then
    match decodeComponentsList data with
    | .ok _ => .ok ()
    | .error error => .error (.serialize s!"invalid app_components component: {error}")
  else if componentId = groupAdminPolicyComponentId then
    match decodeAdminPolicy data with
    | .ok _ => .ok ()
    | .error error => .error (.serialize error)
  else
    (checks.validComponent componentId data).mapError .serialize

/-- A removal is refused for the list itself and for what the list of the group names. -/
def validateAppComponentRemove (componentId : AppComponentId) : Except CommitRejection Unit := do
  if componentId = appComponentsComponentId then
    .error (.other "app_components component cannot be removed")
  else if componentId ∈ (← requiredAppComponentsOfGroup group) then
    .error (.other "required Marmot app components cannot be removed")
  else
    .ok ()

/-- One component operation of a commit. The error is reported as a wire format. -/
def validateAppDataUpdate : Proposal → Except CommitRejection Unit
  | .appDataUpdate componentId (.update data) =>
    (validateAppComponentUpdate checks componentId data).mapError fun _ => .wrongWireFormat
  | .appDataUpdate componentId .remove =>
    (validateAppComponentRemove group componentId).mapError fun _ => .wrongWireFormat
  | _ => .ok ()

/-- The updater takes the component operations in the order of the commit. -/
def updatedDictionary : AppDataDictionary → List QueuedProposal → AppDataDictionary :=
  List.foldl fun dictionary queued =>
    match queued.proposal with
    | .appDataUpdate componentId (.update data) => dictionary.insert componentId data
    | .appDataUpdate componentId .remove => dictionary.erase componentId
    | _ => dictionary

/-- The dictionary that the component operations start from: the extensions of the group context
replace the one of the group. -/
def baseDictionary : Option AppDataDictionary :=
  commit.queuedProposals.foldl (fun dictionary queued =>
    match queued.proposal with
    | .groupContextExtensions replacement => replacement
    | _ => dictionary) group.appDataDictionary

def Proposal.isAppDataUpdate : Proposal → Bool
  | .appDataUpdate _ _ => true
  | _ => false

/-- The dictionary of the resulting group context. -/
def resultingDictionary : Option AppDataDictionary :=
  if commit.queuedProposals.any (·.proposal.isAppDataUpdate) then
    some (updatedDictionary ((baseDictionary group commit).getD ∅) commit.queuedProposals)
  else
    baseDictionary group commit

def removedLeaves : List Nat :=
  commit.queuedProposals.filterMap fun queued =>
    match queued.proposal, queued.sender with
    | .remove index, _ => some index
    | .selfRemove, .member index => some index
    | _, _ => none

def addedLeaves : List LeafNode :=
  commit.queuedProposals.filterMap fun queued =>
    match queued.proposal with
    | .add leaf => some leaf
    | _ => none

def Proposal.isSelfRemove : Proposal → Bool
  | .selfRemove => true
  | _ => false

/-- The two shapes a member without admin rights may commit: an update of the own leaf, and
self-removals only. -/
def isAllowedNonAdminCommit : Bool :=
  let isSelfUpdateOnly := commit.queuedProposals.isEmpty && commit.updatePathLeafNode.isSome
  let isSelfRemoveOnly := !commit.queuedProposals.isEmpty &&
    commit.queuedProposals.all (·.proposal.isSelfRemove)
  isSelfUpdateOnly ^^ isSelfRemoveOnly

def stagedCommitRequiresAdmin : Bool := !isAllowedNonAdminCommit commit

def adminPubkeyFromMemberId (id : Bytes) : Except CommitRejection Bytes :=
  if id.length ≠ 32 then
    .error (.backend s!"Marmot admin policy requires 32-byte member identities; got {id.length}")
  else
    .ok id

/-- A self-removal of an admin is refused. -/
def rejectAdminSelfRemove (admins : List Bytes) (queued : QueuedProposal) :
    Except CommitRejection Unit :=
  match queued.proposal, memberIdOfSender group queued.sender with
  | .selfRemove, some sender => do
    if (← adminPubkeyFromMemberId sender) ∈ admins then
      .error (.adminCannotSelfRemove group.groupId)
  | _, _ => .ok ()

def rejectAdminSelfRemoveProposals : Except CommitRejection Unit := do
  let admins ← adminsOfGroup group
  if admins = [] then
    .ok ()
  else
    commit.queuedProposals.forM (rejectAdminSelfRemove group admins)

def requireAdmin (member : Bytes) : Except CommitRejection Unit := do
  let pubkey ← adminPubkeyFromMemberId member
  if pubkey ∈ (← adminsOfGroup group) then
    .ok ()
  else
    .error (.notGroupAdmin group.groupId)

def requireAdminForStagedCommit (sender : Option Bytes) : Except CommitRejection Unit := do
  rejectAdminSelfRemoveProposals group commit
  if stagedCommitRequiresAdmin commit then
    match sender with
    | none => .error (.notGroupAdmin group.groupId)
    | some sender => requireAdmin group sender

/-- The accounts of the resulting epoch: those of the leaves that stay, and the added ones. -/
def resultingAccounts : List Bytes :=
  (group.members.filter fun index _ => index ∉ removedLeaves commit).toList.filterMap
      (fun member => credentialAccountPubkey member.2.credential) ++
    (addedLeaves commit).filterMap fun leaf => credentialAccountPubkey leaf.credential

/-- **The coupling of admins and leaves** in the resulting epoch. -/
def validateAdminLeafCouplingForStagedCommit : Except CommitRejection Unit :=
  match (resultingDictionary group commit).bind fun dictionary =>
      dictionary[groupAdminPolicyComponentId]? with
  | none => .ok ()
  | some bytes => do
    let admins ← (decodeAdminPolicy bytes).mapError .serialize
    if admins = [] then
      .ok ()
    else if admins.all (· ∈ resultingAccounts group commit) then
      .ok ()
    else
      .error (.other ("admin-policy update is invalid: " ++
        "an admin key has no member leaf in the resulting epoch"))

def validateLeafAccountIdentityProof (leaf : LeafNode) : Except CommitRejection Unit := do
  let _ ← validatedMemberId checks leaf.credential
  (checks.provesIdentity leaf).mapError .invalidAccountIdentityProof

def validateLeafAccountIdentityProofForMember (leaf : LeafNode) (expected : Bytes)
    (context : String) : Except CommitRejection Unit := do
  let actual ← validatedMemberId checks leaf.credential
  validateLeafAccountIdentityProof checks leaf
  if actual ≠ expected then
    .error (.invalidAccountIdentityProof
      s!"{context} credential identity does not match existing member identity")

/-- An added or updated leaf proves its account; an update keeps the account of its sender. -/
def validateProposalIdentity (queued : QueuedProposal) : Except CommitRejection Unit :=
  match queued.proposal with
  | .add leaf => validateLeafAccountIdentityProof checks leaf
  | .update leaf =>
    match senderMemberId checks group queued.sender with
    | none => .error (.invalidAccountIdentityProof
        "Update proposal has no authenticated member sender")
    | some expected =>
      validateLeafAccountIdentityProofForMember checks leaf expected "Update proposal"
  | _ => .ok ()

def validateStagedCommitAccountIdentityProofs (committer : Bytes) : Except CommitRejection Unit := do
  commit.queuedProposals.forM (validateProposalIdentity checks group)
  match commit.updatePathLeafNode with
  | none => .ok ()
  | some leaf =>
    validateLeafAccountIdentityProofForMember checks leaf committer "commit update path"

/-! ### Merging -/

variable (members : Table Nat LeafNode)

def replaceLeaf (index : Nat) (leaf : LeafNode) : Table Nat LeafNode :=
  if index ∈ members then members.insert index leaf else members

/-- The first index without a leaf. -/
def freeIndex : Nat :=
  ((List.range (members.size + 1)).find? fun index => index ∉ members).getD members.size

def addLeaf (leaf : LeafNode) : Table Nat LeafNode :=
  members.insert (freeIndex members) leaf

/-- An update takes the leaf of its sender. -/
def applyUpdate (queued : QueuedProposal) : Table Nat LeafNode :=
  match queued.proposal, queued.sender with
  | .update leaf, .member index => replaceLeaf members index leaf
  | _, _ => members

/-- The leaves after the proposals of a commit: updates, removals, additions. -/
def proposedMembers : Table Nat LeafNode :=
  (addedLeaves commit).foldl addLeaf
    ((commit.queuedProposals.foldl applyUpdate group.members).filter fun index _ =>
      index ∉ removedLeaves commit)

/-- The update path takes the leaf of the committer. -/
def mergedMembers : Table Nat LeafNode :=
  match commit.sender, commit.updatePathLeafNode with
  | .member index, some leaf => replaceLeaf (proposedMembers group commit) index leaf
  | _, _ => proposedMembers group commit

def mergeStagedCommit : MlsGroup :=
  { group with
    members := mergedMembers group commit
    appDataDictionary := resultingDictionary group commit }

/-- OpenMLS does not stage a commit that removes its own committer. -/
def removesCommitter : Bool :=
  match commit.sender with
  | .member index => index ∈ removedLeaves commit
  | .external => false

/-- **One commit**: staged, checked and merged. -/
def acceptCommit : Except CommitRejection MlsGroup := do
  commit.queuedProposals.forM fun queued => validateAppDataUpdate checks group queued.proposal
  if removesCommitter commit then
    .error .attemptedSelfRemoval
  let sender := senderMemberId checks group commit.sender
  requireAdminForStagedCommit group commit sender
  validateAdminLeafCouplingForStagedCommit group commit
  match sender with
  | none => .error (.backend "commit has no authenticated member sender")
  | some committer =>
    validateStagedCommitAccountIdentityProofs checks group commit committer
    pure (mergeStagedCommit group commit)

end Checks

/-- **A history of commits**, with the group after each. -/
def acceptAll (checks : CommitChecks) : MlsGroup → List StagedCommit →
    Except CommitRejection (List MlsGroup)
  | _, [] => .ok []
  | group, commit :: rest => do
    let after ← acceptCommit checks group commit
    let later ← acceptAll checks after rest
    pure (after :: later)

/-! ### The accounts of a group -/

def accountAt (members : Table Nat LeafNode) (index : Nat) : Option Bytes :=
  members[index]?.bind fun leaf => credentialAccountPubkey leaf.credential

def HasLeaf (members : Table Nat LeafNode) (account : Bytes) : Prop :=
  ∃ index, accountAt members index = some account

section Accounts

variable {members : Table Nat LeafNode} {index : Nat} {leaf : LeafNode}

theorem replaceLeaf_accountAt
    (kept : ∀ old, members[index]? = some old →
      credentialAccountPubkey leaf.credential = credentialAccountPubkey old.credential)
    (place : Nat) : accountAt (replaceLeaf members index leaf) place = accountAt members place := by
  rw [replaceLeaf]
  split_ifs with taken
  · by_cases here : index = place
    · subst here
      obtain ⟨old, found⟩ := isSome_iff_exists.mp
        ((ExtTreeMap.isSome_getElem?_iff_mem).mpr taken)
      rw [accountAt, ExtTreeMap.getElem?_insert_self, accountAt, found]
      exact kept old found
    · rw [accountAt, accountAt, ExtTreeMap.getElem?_insert,
        if_neg fun same => here (LawfulEqOrd.compare_eq_iff_eq.mp same)]
  · rfl

theorem freeIndex_notMem (members : Table Nat LeafNode) : freeIndex members ∉ members := by
  rw [freeIndex]
  cases search : (List.range (members.size + 1)).find? fun index => index ∉ members with
  | some => simpa using List.find?_some search
  | none =>
    -- more indices than leaves cannot all be taken
    have taken : List.range (members.size + 1) ⊆ members.keys := by
      intro index listed
      have := List.find?_eq_none.mp search index listed
      simpa using this
    have short := (List.nodup_range.subperm taken).length_le
    rw [List.length_range, ExtTreeMap.length_keys] at short
    omega

variable {old : LeafNode}

theorem addLeaf_keeps (found : members[index]? = some old) (leaf : LeafNode) :
    (addLeaf members leaf)[index]? = some old := by
  have apart : freeIndex members ≠ index := by
    rintro rfl
    rw [ExtTreeMap.getElem?_eq_none (freeIndex_notMem members)] at found
    cases found
  rw [addLeaf, ExtTreeMap.getElem?_insert,
    if_neg fun same => apart (LawfulEqOrd.compare_eq_iff_eq.mp same), found]

theorem addLeaves_keep (leaves : List LeafNode) {members : Table Nat LeafNode}
    (found : members[index]? = some old) : (leaves.foldl addLeaf members)[index]? = some old := by
  induction leaves generalizing members with
  | nil => exact found
  | cons leaf rest ih => exact ih (addLeaf_keeps found leaf)

theorem addLeaves_has {leaves : List LeafNode} (added : leaf ∈ leaves)
    (members : Table Nat LeafNode) :
    ∃ index : Nat, (leaves.foldl addLeaf members)[index]? = some leaf := by
  induction leaves generalizing members with
  | nil => cases added
  | cons first rest ih =>
    obtain rfl | later := List.mem_cons.mp added
    · exact ⟨_, addLeaves_keep rest ExtTreeMap.getElem?_insert_self⟩
    · exact ih later _

end Accounts

/-! ### What the checks leave -/

variable {proposals : List QueuedProposal}

section Kept

variable {checks : CommitChecks} {group : MlsGroup} {commit : StagedCommit}
  {id : Bytes} {index : Nat} {members : Table Nat LeafNode} {account : Bytes}

theorem validatedMemberId_account {credential : Credential}
    (valid : validatedMemberId checks credential = .ok id) :
    credentialAccountPubkey credential = some id := by
  rw [validatedMemberId] at valid
  split at valid
  · cases valid
  · rename_i identity basic
    obtain ⟨_, checked, same⟩ := bind_eq_ok.mp valid
    cases same
    rw [validateCredentialIdentity] at checked
    split_ifs at checked with short curve
    rw [credentialAccountPubkey, basic, filter_some, if_pos (decide_eq_true (not_not.mp short))]

theorem checkedLeaf_account {leaf : LeafNode} {expected : Bytes} {context : String}
    (valid : validateLeafAccountIdentityProofForMember checks leaf expected context = .ok ()) :
    credentialAccountPubkey leaf.credential = some expected := by
  obtain ⟨_, read, rest⟩ := bind_eq_ok.mp valid
  obtain ⟨_, _, compared⟩ := bind_eq_ok.mp rest
  split_ifs at compared with differs
  exact not_not.mp differs ▸ validatedMemberId_account read

theorem senderMemberId_accountAt (sent : senderMemberId checks group (.member index) = some id) :
    accountAt group.members index = some id := by
  obtain ⟨leaf, found, member⟩ := bind_eq_some_iff.mp sent
  rw [accountAt, found, bind_some]
  cases valid : validatedMemberId checks leaf.credential with
  | error => simp [valid, Except.toOption] at member
  | ok id' =>
    cases (show some id' = some id by rw [← member, valid]; rfl)
    exact validatedMemberId_account valid

theorem applyUpdate_accountAt {queued : QueuedProposal}
    (valid : validateProposalIdentity checks group queued = .ok ())
    (same : ∀ place, accountAt members place = accountAt group.members place) (place : Nat) :
    accountAt (applyUpdate members queued) place = accountAt group.members place := by
  rw [applyUpdate]
  split
  · rename_i leaf index isUpdate sender
    rw [← same place]
    apply replaceLeaf_accountAt
    intro old found
    rw [validateProposalIdentity, isUpdate, sender] at valid
    dsimp only at valid
    split at valid
    · cases valid
    · rename_i expected sent
      calc credentialAccountPubkey leaf.credential
          = some expected := checkedLeaf_account valid
        _ = accountAt members index := by rw [same, senderMemberId_accountAt sent]
        _ = credentialAccountPubkey old.credential := by rw [accountAt, found, bind_some]
  · exact same place

theorem applyUpdates_accountAt
    (valid : ∀ queued ∈ proposals, validateProposalIdentity checks group queued = .ok ())
    (same : ∀ place, accountAt members place = accountAt group.members place) (place : Nat) :
    accountAt (proposals.foldl applyUpdate members) place = accountAt group.members place := by
  induction proposals generalizing members with
  | nil => exact same place
  | cons first rest ih =>
    rw [List.forall_mem_cons] at valid
    exact ih valid.2 (applyUpdate_accountAt valid.1 same)

theorem proposedMembers_accountAt
    (valid : ∀ queued ∈ commit.queuedProposals, validateProposalIdentity checks group queued = .ok ())
    (stays : index ∉ removedLeaves commit) (held : accountAt group.members index = some account) :
    accountAt (proposedMembers group commit) index = some account := by
  rw [← applyUpdates_accountAt valid (fun _ => rfl), accountAt] at held
  obtain ⟨leaf, found, own⟩ := bind_eq_some_iff.mp held
  have kept : ((commit.queuedProposals.foldl applyUpdate group.members).filter fun index _ =>
      index ∉ removedLeaves commit)[index]? = some leaf := by
    rw [getElem?_filter, found, filter_some, if_pos (decide_eq_true stays)]
  rw [accountAt, proposedMembers, addLeaves_keep _ kept, bind_some, own]

/-- **The accounts that the coupling counts have a leaf after the merge.** -/
theorem resultingAccounts_hasLeaf {committer : Bytes}
    (sent : senderMemberId checks group commit.sender = some committer)
    (staysIn : removesCommitter commit = false)
    (valid : validateStagedCommitAccountIdentityProofs checks group commit committer = .ok ())
    (counted : account ∈ resultingAccounts group commit) :
    HasLeaf (mergedMembers group commit) account := by
  obtain ⟨_, proposals, path⟩ := bind_eq_ok.mp valid
  have identities := forM_eq_ok.mp proposals
  have proposed : HasLeaf (proposedMembers group commit) account := by
    rw [resultingAccounts, List.mem_append] at counted
    obtain surviving | added := counted
    · obtain ⟨⟨index, leaf⟩, listed, own⟩ := List.mem_filterMap.mp surviving
      have found := ExtTreeMap.mem_toList_iff_getElem?_eq_some.mp listed
      rw [getElem?_filter, filter_eq_some_iff] at found
      refine ⟨index, proposedMembers_accountAt identities (of_decide_eq_true found.2) ?_⟩
      rw [accountAt, found.1, bind_some, own]
    · obtain ⟨leaf, listed, own⟩ := List.mem_filterMap.mp added
      obtain ⟨index, found⟩ := addLeaves_has listed
        ((commit.queuedProposals.foldl applyUpdate group.members).filter fun index _ =>
          index ∉ removedLeaves commit)
      refine ⟨index, ?_⟩
      rw [accountAt, proposedMembers, found, bind_some, own]
  obtain ⟨place, held⟩ := proposed
  refine ⟨place, ?_⟩
  rw [mergedMembers]
  split
  · rename_i index leaf sender update
    rw [replaceLeaf_accountAt, held]
    intro _ found
    rw [sender] at sent
    rw [update] at path
    have stays : index ∉ removedLeaves commit := by
      simpa [removesCommitter, sender] using staysIn
    have own := proposedMembers_accountAt identities stays (senderMemberId_accountAt sent)
    rw [accountAt, found, bind_some] at own
    rw [own, checkedLeaf_account path]
  · exact held

end Kept

/-! ### Admin safety -/

/-- **The admins of a group are safe**: the policy is there, it has an admin, and every admin has a
leaf. -/
structure MlsGroup.AdminSafe (group : MlsGroup) : Prop where
  present : (appComponentBytes group groupAdminPolicyComponentId).isSome
  led : ∃ admins, adminsOfGroup group = .ok admins ∧ admins ≠ [] ∧
    ∀ admin ∈ admins, HasLeaf group.members admin

/-- The list of the group names the admin policy. -/
def requiresAdminPolicy (group : MlsGroup) : Bool :=
  match requiredAppComponentsOfGroup group with
  | .ok required => groupAdminPolicyComponentId ∈ required
  | .error _ => false

/-- The proposal puts no extensions without the admin policy in place. -/
def Proposal.keepsAdminPolicy : Proposal → Bool
  | .groupContextExtensions dictionary =>
    (dictionary.bind fun dictionary => dictionary[groupAdminPolicyComponentId]?).isSome
  | _ => true

section Safety

variable {checks : CommitChecks} {group after : MlsGroup} {commit : StagedCommit}

/-- **What a merged commit has passed.** -/
structure Accepted (checks : CommitChecks) (group : MlsGroup) (commit : StagedCommit)
    (after : MlsGroup) : Prop where
  updates : ∀ queued ∈ commit.queuedProposals,
    validateAppDataUpdate checks group queued.proposal = .ok ()
  staysIn : removesCommitter commit = false
  coupled : validateAdminLeafCouplingForStagedCommit group commit = .ok ()
  committed : ∃ committer, senderMemberId checks group commit.sender = some committer ∧
    validateStagedCommitAccountIdentityProofs checks group commit committer = .ok ()
  merged : after = mergeStagedCommit group commit

theorem acceptCommit_accepted (accepted : acceptCommit checks group commit = .ok after) :
    Accepted checks group commit after := by
  obtain ⟨_, updates, rest⟩ := bind_eq_ok.mp accepted
  dsimp only at rest
  split_ifs at rest with removes
  · cases rest
  · obtain ⟨_, _, rest⟩ := bind_eq_ok.mp rest
    obtain ⟨_, coupled, rest⟩ := bind_eq_ok.mp rest
    split at rest
    · cases rest
    · rename_i committer sent
      obtain ⟨_, proofs, merged⟩ := bind_eq_ok.mp rest
      cases merged
      exact ⟨forM_eq_ok.mp updates, by simpa using removes, coupled, ⟨committer, sent, proofs⟩, rfl⟩

/-- **A merged commit that keeps the policy is safe.** -/
theorem Accepted.adminSafe (accepted : Accepted checks group commit after)
    (kept : (appComponentBytes after groupAdminPolicyComponentId).isSome) : after.AdminSafe := by
  refine ⟨kept, ?_⟩
  obtain ⟨bytes, found⟩ := isSome_iff_exists.mp kept
  have coupled := accepted.coupled
  obtain ⟨_, sent, proofs⟩ := accepted.committed
  obtain rfl := accepted.merged
  have resulting : (resultingDictionary group commit).bind
      (fun dictionary => dictionary[groupAdminPolicyComponentId]?) = some bytes := found
  simp only [validateAdminLeafCouplingForStagedCommit, resulting] at coupled
  obtain ⟨admins, decoded, compared⟩ := bind_eq_ok.mp coupled
  have led := decodeAdminPolicy_ne_nil (mapError_eq_ok.mp decoded)
  rw [if_neg led] at compared
  split_ifs at compared with counted
  refine ⟨admins, ?_, led, fun admin listed => ?_⟩
  · rw [adminsOfGroup, found]
    exact decoded
  · exact resultingAccounts_hasLeaf sent accepted.staysIn proofs
      (by simpa using List.all_eq_true.mp counted admin listed)

/-- A required policy is not removed by the component operations. -/
theorem updatedDictionary_keeps {dictionary : AppDataDictionary}
    (required : requiresAdminPolicy group)
    (updates : ∀ queued ∈ proposals, validateAppDataUpdate checks group queued.proposal = .ok ())
    (present : groupAdminPolicyComponentId ∈ dictionary) :
    groupAdminPolicyComponentId ∈ updatedDictionary dictionary proposals := by
  induction proposals generalizing dictionary with
  | nil => exact present
  | cons first rest ih =>
    rw [List.forall_mem_cons] at updates
    refine ih updates.2 ?_
    have valid := updates.1
    dsimp only
    split
    · exact ExtTreeMap.mem_insert.mpr (.inr present)
    · rename_i componentId removes
      rw [removes, validateAppDataUpdate, mapError_eq_ok, validateAppComponentRemove] at valid
      -- the removal of a component that the list names was refused
      have other : componentId ≠ groupAdminPolicyComponentId := by
        rintro rfl
        rw [if_neg (by decide)] at valid
        obtain ⟨_, read, absent⟩ := bind_eq_ok.mp valid
        rw [requiresAdminPolicy, read] at required
        rw [if_pos (of_decide_eq_true required)] at absent
        cases absent
      exact ExtTreeMap.mem_erase.mpr
        ⟨fun same => other (LawfulEqOrd.compare_eq_iff_eq.mp same), present⟩
    · exact present

theorem baseDictionary_keeps
    (context : ∀ queued ∈ commit.queuedProposals, queued.proposal.keepsAdminPolicy)
    (present : (appComponentBytes group groupAdminPolicyComponentId).isSome) :
    ((baseDictionary group commit).bind fun dictionary =>
      dictionary[groupAdminPolicyComponentId]?).isSome := by
  rw [baseDictionary]
  rw [appComponentBytes] at present
  generalize group.appDataDictionary = dictionary at present
  generalize commit.queuedProposals = proposals at context
  induction proposals generalizing dictionary with
  | nil => exact present
  | cons first rest ih =>
    rw [List.forall_mem_cons] at context
    refine ih _ ?_ context.2
    dsimp only
    split
    · rename_i replacement replaces
      rw [replaces] at context
      exact context.1
    · exact present

/-- **A commit keeps the policy that its group requires.** -/
theorem Accepted.keeps_policy (accepted : Accepted checks group commit after)
    (present : (appComponentBytes group groupAdminPolicyComponentId).isSome)
    (required : requiresAdminPolicy group)
    (context : ∀ queued ∈ commit.queuedProposals, queued.proposal.keepsAdminPolicy) :
    (appComponentBytes after groupAdminPolicyComponentId).isSome := by
  obtain rfl := accepted.merged
  have base := baseDictionary_keeps context present
  change ((resultingDictionary group commit).bind fun dictionary =>
    dictionary[groupAdminPolicyComponentId]?).isSome
  rw [resultingDictionary]
  split_ifs with changes
  · cases start : baseDictionary group commit with
    | none => simp [start] at base
    | some =>
      rw [start, bind_some, ExtTreeMap.isSome_getElem?_iff_mem] at base
      rw [getD_some, bind_some, ExtTreeMap.isSome_getElem?_iff_mem]
      exact updatedDictionary_keeps required accepted.updates base
  · exact base

/-- **A history is safe as long as the group requires the policy**: if every commit finds the policy
in the list of the group, and extensions put in place carry it, then the admins are safe after every
commit. -/
theorem required_policy_safe (checks : CommitChecks) (group : MlsGroup)
    (commits : List StagedCommit) (states : List MlsGroup)
    (present : (appComponentBytes group groupAdminPolicyComponentId).isSome)
    (accepted : acceptAll checks group commits = .ok states)
    (required : ∀ step ∈ (group :: states).zip commits, requiresAdminPolicy step.1 ∧
      ∀ queued ∈ step.2.queuedProposals, queued.proposal.keepsAdminPolicy) :
    ∀ state ∈ states, state.AdminSafe := by
  induction commits generalizing group states with
  | nil =>
    cases accepted
    simp
  | cons commit rest ih =>
    obtain ⟨after, first, more⟩ := bind_eq_ok.mp accepted
    obtain ⟨later, following, joined⟩ := bind_eq_ok.mp more
    cases joined
    rw [List.zip_cons_cons, List.forall_mem_cons] at required
    have step := acceptCommit_accepted first
    have kept := step.keeps_policy present required.1.1 required.1.2
    rw [List.forall_mem_cons]
    exact ⟨step.adminSafe kept, ih after later kept following required.2⟩

end Safety

/-! ### A group whose policy is dropped -/

/-- Checks that accept every component, key and proof. -/
def openChecks : CommitChecks := ⟨fun _ _ => .ok (), fun _ => true, fun _ => .ok ()⟩

def sampleKey : Bytes := List.replicate 32 1

/-- A group of one admin, that requires the admin policy. -/
def ledGroup : MlsGroup where
  groupId := [7]
  members := (∅ : Table Nat LeafNode).insert 0 ⟨.basic sampleKey, [2], none⟩
  appDataDictionary := some (((∅ : AppDataDictionary).insert appComponentsComponentId
    [2, 0x80, 0x03]).insert groupAdminPolicyComponentId (32 :: sampleKey))

def adminCommit (proposal : Proposal) : StagedCommit :=
  ⟨.member 0, [⟨.member 0, proposal⟩], none⟩

/-- The admin empties the list of required components, then removes the policy. -/
def droppingCommits : List StagedCommit :=
  [adminCommit (.appDataUpdate appComponentsComponentId (.update [0])),
    adminCommit (.appDataUpdate groupAdminPolicyComponentId .remove)]

/-- **The policy is dropped by two commits that pass every check**: the first takes it from the list
of required components, the second removes it, and no admin is left. -/
theorem policy_dropped : ∃ states last, acceptAll openChecks ledGroup droppingCommits = .ok states ∧
    requiresAdminPolicy ledGroup ∧
    (appComponentBytes ledGroup groupAdminPolicyComponentId).isSome ∧ last ∈ states ∧
    adminsOfGroup last = .ok [] ∧ ¬ last.AdminSafe := by
  have run : ((acceptAll openChecks ledGroup droppingCommits).map fun states =>
      states.map fun state => appComponentBytes state groupAdminPolicyComponentId) =
      .ok [some (32 :: sampleKey), none] := by
    decide +kernel
  cases accepted : acceptAll openChecks ledGroup droppingCommits with
  | error error =>
    rw [accepted] at run
    cases run
  | ok =>
    rw [accepted] at run
    have listed := Except.ok.inj run
    simp only [List.map_eq_cons_iff, List.map_eq_nil_iff] at listed
    obtain ⟨first, _, rfl, _, last, _, rfl, absent, rfl⟩ := listed
    refine ⟨[first, last], last, rfl, by decide +kernel, by decide +kernel, by simp, ?_, ?_⟩
    · rw [adminsOfGroup, absent]
    · intro safe
      have present := safe.present
      rw [absent] at present
      cases present

def otherKey : Bytes := List.replicate 32 2

/-- A second member is added and becomes an admin, the context of the group is put in place again, and
the second admin removes the first. -/
def handoverCommits : List StagedCommit :=
  let both := [0x40, 0x40] ++ sampleKey ++ otherKey
  [adminCommit (.add ⟨.basic otherKey, [3], some [0]⟩),
    adminCommit (.appDataUpdate groupAdminPolicyComponentId (.update both)),
    adminCommit (.groupContextExtensions (some (((∅ : AppDataDictionary).insert
      appComponentsComponentId [2, 0x80, 0x03]).insert groupAdminPolicyComponentId both))),
    ⟨.member 1, [⟨.member 1, .remove 0⟩,
      ⟨.member 1, .appDataUpdate groupAdminPolicyComponentId (.update (32 :: otherKey))⟩], none⟩]

/-- The admins are safe while one hands over to the other. -/
theorem handover_stays_safe : ∃ states, acceptAll openChecks ledGroup handoverCommits = .ok states ∧
    states.length = 4 ∧ ∀ state ∈ states, state.AdminSafe := by
  have run : ((acceptAll openChecks ledGroup handoverCommits).map fun states =>
      (states.length, ((ledGroup :: states).zip handoverCommits).all fun step =>
        requiresAdminPolicy step.1 && step.2.queuedProposals.all fun queued =>
          queued.proposal.keepsAdminPolicy)) = .ok (4, true) := by decide +kernel
  cases accepted : acceptAll openChecks ledGroup handoverCommits with
  | error error =>
    rw [accepted] at run
    cases run
  | ok states =>
    rw [accepted] at run
    obtain ⟨length, checked⟩ := Prod.mk.inj (Except.ok.inj run)
    refine ⟨states, rfl, length, required_policy_safe openChecks ledGroup handoverCommits states
      (by decide +kernel) accepted fun step listed => ?_⟩
    obtain ⟨required, keeps⟩ :=
      (Bool.and_eq_true _ _).mp (List.all_eq_true.mp checked step listed)
    exact ⟨required, List.all_eq_true.mp keeps⟩

end Darkmatter
