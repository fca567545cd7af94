/-
**The push tokens of a group.**

Members gossip their push tokens and the removals of them, each signed by its owner, and any member
may pass them on. A client keeps the token of a key (a leaf of a member, a platform and a server) in
one table and the removal of it in another. The stamp of a record is the owner's time, and the digest
of the signed bytes.

* `ingestPushGossipMessage`, `upsertGroupPushToken`, `applyRemoval` — the ways in which
  records come in; `removeGroupPushTokensForMember`, `removeStaleGroupPushTokens` — the cleanups;
* `PushTokenStore.register` — the two tables of a key as one register;
* `perform_register` — **every way in is a write of the last writer**, when the local upsert is in
  order;
* `push_tokens_converge` — **a key has its greatest record**, and clients that were given the same
  records agree.
-/

import Mathlib.Data.Prod.Lex
import Mathlib.Data.String.Basic
import Darkmatter.Convergence
import Darkmatter.Lib.Checks
import Darkmatter.Lib.LastWriter
import Darkmatter.Lib.Machine

namespace Darkmatter

open Lib List Function

/-! ### Records -/

inductive PushPlatform
  | apns
  | fcm
deriving DecidableEq, Repr

def PushPlatform.platformByte : PushPlatform → UInt8
  | .apns => 1
  | .fcm => 2

structure PushTokenKey where
  groupIdHex : String
  memberIdHex : String
  leafIndex : Nat
  platform : PushPlatform
  serverPubkeyHex : String
deriving DecidableEq, Repr

structure GroupPushTokenRecord extends PushTokenKey where
  tokenFingerprint : String
  relayHint : Option String
  encryptedToken : Bytes
  ownerTs : Int
  ownerSig : String
deriving DecidableEq, Repr

structure PushTokenRemovalRecord where
  memberIdHex : String
  leafIndex : Nat
  platform : PushPlatform
  tokenFingerprint : String
  serverPubkeyHex : String
  ownerTs : Int
  ownerSig : String
deriving DecidableEq, Repr

def PushTokenRemovalRecord.key (removal : PushTokenRemovalRecord) (groupIdHex : String) :
    PushTokenKey where
  groupIdHex := groupIdHex
  memberIdHex := removal.memberIdHex
  leafIndex := removal.leafIndex
  platform := removal.platform
  serverPubkeyHex := removal.serverPubkeyHex

/-! ### Signed bytes -/

def hexValue (digit : Char) : Option Nat :=
  if '0' ≤ digit ∧ digit ≤ '9' then some (digit.toNat - '0'.toNat)
  else if 'a' ≤ digit ∧ digit ≤ 'f' then some (digit.toNat - 'a'.toNat + 10)
  else if 'A' ≤ digit ∧ digit ≤ 'F' then some (digit.toNat - 'A'.toNat + 10)
  else none

def decodeHexDigits : List Char → Option Bytes
  | [] => some []
  | [_] => none
  | high :: low :: rest => do
    let byte := 16 * (← hexValue high) + (← hexValue low)
    return UInt8.ofNat byte :: (← decodeHexDigits rest)

variable (text : String)

def decodeHex : Option Bytes := decodeHexDigits text.toList

def decodeHex32 : Option Bytes := (decodeHex text).filter (·.length = 32)

def fingerprintMark : List Char := "sha256:".toList

/-- The twelve bytes of a fingerprint. -/
def fingerprintBytes (tokenFingerprint : String) : Option Bytes :=
  if fingerprintMark.isPrefixOf tokenFingerprint.toList then
    (decodeHexDigits (tokenFingerprint.toList.drop 7)).filter (·.length = 12)
  else
    none

def bigEndian (width value : Nat) : Bytes :=
  (range width).map fun place => UInt8.ofNat (value / 256 ^ (width - 1 - place))

def trimText : String :=
  String.ofList
    ((text.toList.dropWhile isWhiteSpace).reverse.dropWhile isWhiteSpace).reverse

/-- Blank hints are signed as none, and the others without the blanks around them. -/
def signedRelay (relayHint : Option String) : String :=
  ((relayHint.map trimText).filter (· ≠ "")).getD ""

def pushRecordDomain : Bytes := "marmot-push-token-record-v1".toUTF8.toList

def pushRemovalDomain : Bytes := "marmot-push-token-removal-v1".toUTF8.toList

def pushSignedRecordBytes (domain : Bytes) (key : PushTokenKey) (tokenFingerprint : String)
    (ownerTs : Int) (relayHint : Option String) (encryptedToken : Option Bytes) : Option Bytes := do
  let groupId ← decodeHex key.groupIdHex
  let memberId ← decodeHex32 key.memberIdHex
  let serverPubkey ← decodeHex32 key.serverPubkeyHex
  let fingerprint ← fingerprintBytes tokenFingerprint
  guard (groupId.length < 2 ^ 16)
  let relay := (signedRelay relayHint).toUTF8.toList
  guard (relay.length < 2 ^ 16)
  return domain ++ bigEndian 2 groupId.length ++ groupId ++ memberId ++ bigEndian 4 key.leafIndex ++
    [key.platform.platformByte] ++ serverPubkey ++ fingerprint ++
    bigEndian 8 (ownerTs % 2 ^ 64).toNat ++ bigEndian 2 relay.length ++ relay ++
    encryptedToken.getD []

/-- The digest of signed bytes as text, and the check of an owner's signature over a digest. -/
structure PushSigning where
  digest : Bytes → String
  verifyPushOwnerSig : String → String → String → Bool

section Signing

variable (signing : PushSigning) (record : GroupPushTokenRecord)

def GroupPushTokenRecord.recordDigest : Option String :=
  (pushSignedRecordBytes pushRecordDomain record.toPushTokenKey record.tokenFingerprint
    record.ownerTs record.relayHint (some record.encryptedToken)).map signing.digest

def GroupPushTokenRecord.verifyOwnerSig : Bool :=
  (record.recordDigest signing).any (signing.verifyPushOwnerSig record.memberIdHex record.ownerSig)

/-- **The blanks around a relay are not signed.** -/
theorem GroupPushTokenRecord.recordDigest_relayHint
    {relayHint : Option String} (same : signedRelay relayHint = signedRelay record.relayHint) :
    { record with relayHint := relayHint }.recordDigest signing = record.recordDigest signing := by
  rw [recordDigest, recordDigest, pushSignedRecordBytes, pushSignedRecordBytes, same]

def PushTokenRemovalRecord.recordDigest (removal : PushTokenRemovalRecord) (groupIdHex : String) :
    Option String :=
  (pushSignedRecordBytes pushRemovalDomain (removal.key groupIdHex) removal.tokenFingerprint
    removal.ownerTs none none).map signing.digest

def PushTokenRemovalRecord.verifyOwnerSig (removal : PushTokenRemovalRecord) (groupIdHex : String) :
    Bool :=
  (removal.recordDigest signing groupIdHex).any
    (signing.verifyPushOwnerSig removal.memberIdHex removal.ownerSig)

end Signing

/-! ### Gossip -/

def pushEncryptedTokenLen : Nat := 1084

structure PushTokenGossipEntry where
  memberIdHex : String
  leafIndex : Nat
  platform : PushPlatform
  tokenFingerprint : String
  serverPubkeyHex : String
  relayHint : Option String
  encryptedToken : Bytes
  ownerTs : Int
  ownerSig : String
deriving DecidableEq, Repr

def validateHex (length : Nat) (text : String) : Bool :=
  (decodeHex text).any (·.length = length) && !text.toList.any fun digit => digit.isUpper

def validateAccountHex (text name : String) : Except String Unit :=
  if validateHex 32 text then .ok () else .error (name ++ " must be 32-byte lowercase hex")

def validateFingerprint : Except String Unit :=
  if fingerprintMark.isPrefixOf text.toList ∧ (text.toList.drop 7).length = 24 ∧
      (text.toList.drop 7).all (fun digit => (hexValue digit).isSome) then
    .ok ()
  else
    .error "token fingerprint must be redacted sha256"

def validateOwnerSigHex : Except String Unit :=
  if validateHex 64 text then .ok () else .error "owner_sig must be 64-byte lowercase hex"

/-- The record of an entry, in the group that carries it. -/
def PushTokenGossipEntry.intoRecord (entry : PushTokenGossipEntry) (groupIdHex : String) :
    Except String GroupPushTokenRecord := do
  if entry.encryptedToken.length ≠ pushEncryptedTokenLen then
    throw "invalid encrypted token length"
  validateAccountHex entry.memberIdHex "member id"
  validateAccountHex entry.serverPubkeyHex "server pubkey"
  validateFingerprint entry.tokenFingerprint
  validateOwnerSigHex entry.ownerSig
  return {
    groupIdHex := groupIdHex
    memberIdHex := entry.memberIdHex
    leafIndex := entry.leafIndex
    platform := entry.platform
    serverPubkeyHex := entry.serverPubkeyHex
    tokenFingerprint := entry.tokenFingerprint
    relayHint := entry.relayHint.filter fun relay => trimText relay ≠ ""
    encryptedToken := entry.encryptedToken
    ownerTs := entry.ownerTs
    ownerSig := entry.ownerSig }

def PushTokenRemovalRecord.validated (removal : PushTokenRemovalRecord) :
    Except String PushTokenRemovalRecord := do
  validateAccountHex removal.memberIdHex "member id"
  validateAccountHex removal.serverPubkeyHex "server pubkey"
  validateFingerprint removal.tokenFingerprint
  validateOwnerSigHex removal.ownerSig
  return removal

inductive PushGossip
  | tokens (entries : List PushTokenGossipEntry)
  | removals (entries : List PushTokenRemovalRecord)
deriving DecidableEq, Repr

inductive PushGossipAction
  | upsert (records : List GroupPushTokenRecord)
  | remove (removals : List PushTokenRemovalRecord)
deriving DecidableEq, Repr

/-- One malformed entry makes the message malformed. -/
def parsePushGossip (groupIdHex : String) : PushGossip → Except String PushGossipAction
  | .tokens entries =>
    (entries.mapM fun entry : PushTokenGossipEntry => entry.intoRecord groupIdHex).map .upsert
  | .removals entries => (entries.mapM PushTokenRemovalRecord.validated).map .remove

/-- Entries that their owner did not sign, or of no member, are dropped. -/
def verifyPushGossip (signing : PushSigning) (groupIdHex : String) (activeMembers : List String) :
    PushGossipAction → PushGossipAction
  | .upsert records => .upsert (records.filter fun record =>
      record.memberIdHex ∈ activeMembers && record.verifyOwnerSig signing)
  | .remove removals => .remove (removals.filter fun removal =>
      removal.memberIdHex ∈ activeMembers && removal.verifyOwnerSig signing groupIdHex)

/-! ### The tables -/

structure PushTokenRow where
  record : GroupPushTokenRecord
  recordDigest : String
  updatedAtMs : Int
deriving DecidableEq, Repr

structure PushTombstone where
  ownerTs : Int
  recordDigest : String
  createdAtMs : Int
deriving DecidableEq, Repr

structure PushTokenStore where
  tokens : PushTokenKey → Option PushTokenRow
  tombstones : PushTokenKey → Option PushTombstone

def PushTokenRow.stamp (row : PushTokenRow) : Int × String := (row.record.ownerTs, row.recordDigest)

def PushTombstone.stamp (tombstone : PushTombstone) : Int × String :=
  (tombstone.ownerTs, tombstone.recordDigest)

/-- A stamp is newer than none, and than one with an earlier time, or the same time and a smaller
digest. -/
def pushStampStrictlyNewer (incoming : Int × String) : Option (Int × String) → Bool
  | none => true
  | some stored => incoming.1 > stored.1 || (incoming.1 = stored.1 && incoming.2 > stored.2)

namespace PushTokenStore

def empty : PushTokenStore := ⟨fun _ => none, fun _ => none⟩

variable (store : PushTokenStore) (key : PushTokenKey)

/-- The incoming stamp is newer than both rows of the key. -/
def strictlyNewer (incoming : Int × String) : Bool :=
  pushStampStrictlyNewer incoming ((store.tombstones key).map PushTombstone.stamp) &&
    pushStampStrictlyNewer incoming ((store.tokens key).map PushTokenRow.stamp)

/-- **The local upsert** writes in any case, and leaves the other table. -/
def upsertGroupPushToken (row : PushTokenRow) : PushTokenStore :=
  { store with tokens := Function.update store.tokens row.record.toPushTokenKey (some row) }

/-- The two rows of a key. -/
def put (token : Option PushTokenRow) (tombstone : Option PushTombstone) : PushTokenStore where
  tokens := Function.update store.tokens key token
  tombstones := Function.update store.tombstones key tombstone

/-- A newer token takes the place of both rows. -/
def applyGroupPushToken (row : PushTokenRow) : PushTokenStore :=
  if store.strictlyNewer row.record.toPushTokenKey row.stamp then
    store.put row.record.toPushTokenKey (some row) none
  else
    store

/-- And so does a newer removal. -/
def applyGroupPushTokenTombstone (tombstone : PushTombstone) : PushTokenStore :=
  if store.strictlyNewer key tombstone.stamp then
    store.put key none (some tombstone)
  else
    store

/-- The rows of some keys are deleted from both tables. -/
def cleared (clears : PushTokenKey → Bool) : PushTokenStore where
  tokens := fun key => if clears key then none else store.tokens key
  tombstones := fun key => if clears key then none else store.tombstones key

def removeGroupPushTokensForMember (groupIdHex memberIdHex : String) : PushTokenStore :=
  store.cleared fun key => key.groupIdHex = groupIdHex && key.memberIdHex = memberIdHex

def removeStaleGroupPushTokens (groupIdHex : String) (activeMembers : List String) :
    PushTokenStore :=
  store.cleared fun key => key.groupIdHex = groupIdHex && key.memberIdHex ∉ activeMembers

end PushTokenStore

/-! ### The ways in -/

variable {records : List GroupPushTokenRecord}

section Ways

variable (signing : PushSigning)

/-- A record without a digest is stored with an empty one. -/
def accountGroupPushTokenFromApp (record : GroupPushTokenRecord) (updatedAtMs : Int) :
    PushTokenRow where
  record := record
  recordDigest := (record.recordDigest signing).getD ""
  updatedAtMs := updatedAtMs

namespace PushTokenStore

variable (store : PushTokenStore)

/-- A removal without a digest is not applied. -/
def applyRemoval (groupIdHex : String) (removal : PushTokenRemovalRecord) (nowMs : Int) :
    PushTokenStore :=
  (removal.recordDigest signing groupIdHex).elim store fun recordDigest =>
    store.applyGroupPushTokenTombstone (removal.key groupIdHex)
      ⟨removal.ownerTs, recordDigest, nowMs⟩

def ingestPushGossipMessage (groupIdHex : String) (gossip : PushGossip)
    (activeMembers : List String) (nowMs : Int) : PushTokenStore :=
  match (parsePushGossip groupIdHex gossip).map
      (verifyPushGossip signing groupIdHex activeMembers) with
  | .error _ => store
  | .ok (.upsert records) =>
    records.foldl (fun store record =>
      store.applyGroupPushToken (accountGroupPushTokenFromApp signing record nowMs)) store
  | .ok (.remove removals) =>
    removals.foldl (fun store removal => store.applyRemoval signing groupIdHex removal nowMs) store

end PushTokenStore

end Ways

inductive PushOperation
  | ingest (groupIdHex : String) (gossip : PushGossip) (activeMembers : List String) (nowMs : Int)
  | localUpsert (record : GroupPushTokenRecord) (updatedAtMs : Int)
  | localRemoval (groupIdHex : String) (removal : PushTokenRemovalRecord) (nowMs : Int)
  | memberLeft (groupIdHex memberIdHex : String)
  | cleanUp (groupIdHex : String) (activeMembers : List String)
deriving DecidableEq, Repr

def PushTokenStore.perform (signing : PushSigning) (store : PushTokenStore) :
    PushOperation → PushTokenStore
  | .ingest groupIdHex gossip activeMembers nowMs =>
    store.ingestPushGossipMessage signing groupIdHex gossip activeMembers nowMs
  | .localUpsert record updatedAtMs =>
    store.upsertGroupPushToken (accountGroupPushTokenFromApp signing record updatedAtMs)
  | .localRemoval groupIdHex removal nowMs => store.applyRemoval signing groupIdHex removal nowMs
  | .memberLeft groupIdHex memberIdHex =>
    store.removeGroupPushTokensForMember groupIdHex memberIdHex
  | .cleanUp groupIdHex activeMembers => store.removeStaleGroupPushTokens groupIdHex activeMembers

/-! ### The two tables of a key as one register -/

inductive PushValue
  | token (record : GroupPushTokenRecord)
  | removal
deriving DecidableEq, Repr

/-- The token that is live. -/
def PushValue.record? : PushValue → Option GroupPushTokenRecord
  | .token record => some record
  | .removal => none

/-- A stamp with what it stamps. -/
abbrev PushEntry := (Int ×ₗ String) × PushValue

def PushTokenRow.entry (row : PushTokenRow) : PushEntry := (toLex row.stamp, .token row.record)

def PushTombstone.entry (tombstone : PushTombstone) : PushEntry := (toLex tombstone.stamp, .removal)

theorem pushStampStrictlyNewer_eq (incoming : Int × String) (stored : Option (Int × String)) :
    pushStampStrictlyNewer incoming stored =
      stored.all fun stamp => decide (toLex stamp < toLex incoming) := by
  cases stored with
  | none => rfl
  | some =>
    rw [pushStampStrictlyNewer, Option.all_some, Bool.eq_iff_iff, decide_eq_true_eq,
      Prod.Lex.toLex_lt_toLex, Bool.or_eq_true, Bool.and_eq_true, decide_eq_true_eq,
      decide_eq_true_eq, decide_eq_true_eq, eq_comm]

namespace PushTokenStore

variable {store : PushTokenStore}

/-- **What the tables say of a key.** -/
def register (store : PushTokenStore) (key : PushTokenKey) : Option PushEntry :=
  ((store.tokens key).map PushTokenRow.entry).or ((store.tombstones key).map PushTombstone.entry)

/-- **No key is both live and removed.** -/
def Single (store : PushTokenStore) : Prop :=
  ∀ key, store.tokens key = none ∨ store.tombstones key = none

theorem strictlyNewer_eq (single : store.Single) (key : PushTokenKey) (incoming : Int × String) :
    store.strictlyNewer key incoming =
      (store.register key).all fun stored => decide (stored.1 < toLex incoming) := by
  rw [strictlyNewer, pushStampStrictlyNewer_eq, pushStampStrictlyNewer_eq, register]
  obtain noToken | noTombstone := single key
  · rw [noToken]
    cases store.tombstones key <;> simp [PushTombstone.entry]
  · rw [noTombstone]
    cases store.tokens key <;> simp [PushTokenRow.entry]

/-- The second store has an entry written under a key, and no key both live and removed. -/
structure Writes (store after : PushTokenStore) (key : PushTokenKey) (entry : PushEntry) : Prop where
  single : after.Single
  register : ∀ other, after.register other =
    if key = other then write (store.register other) entry else store.register other

theorem put_register (key other : PushTokenKey) (token : Option PushTokenRow)
    (tombstone : Option PushTombstone) :
    (store.put key token tombstone).register other =
      if key = other then (token.map PushTokenRow.entry).or (tombstone.map PushTombstone.entry)
      else store.register other := by
  rw [PushTokenStore.register, put]
  dsimp only
  by_cases own : key = other
  · subst own
    rw [if_pos rfl, update_self, update_self]
  · rw [if_neg own, update_of_ne fun same => own same.symm, update_of_ne fun same => own same.symm]
    rfl

variable {key : PushTokenKey} {entry : PushEntry} {row : PushTokenRow}

/-- A key that is live or removed, with the entry that a write leaves under it. -/
theorem put_writes {token : Option PushTokenRow} {tombstone : Option PushTombstone}
    (single : store.Single) (one : token = none ∨ tombstone = none)
    (written : (token.map PushTokenRow.entry).or (tombstone.map PushTombstone.entry) =
      write (store.register key) entry) :
    store.Writes (store.put key token tombstone) key entry := by
  constructor
  · intro other
    rw [put]
    dsimp only
    by_cases own : other = key
    · subst own
      rw [update_self, update_self]
      exact one
    · rw [update_of_ne own, update_of_ne own]
      exact single other
  · intro _
    rw [put_register]
    split_ifs with own
    · rw [written, own]
    · rfl

theorem writes_of_older (single : store.Single)
    (older : ¬ ((store.register key).all fun stored => decide (stored.1 < entry.1)) = true) :
    store.Writes store key entry := by
  refine ⟨single, fun other => ?_⟩
  split_ifs with own
  · rw [← own, write, if_neg older]
  · rfl

theorem applyGroupPushToken_writes (single : store.Single) (row : PushTokenRow) :
    store.Writes (store.applyGroupPushToken row) row.record.toPushTokenKey row.entry := by
  rw [applyGroupPushToken, strictlyNewer_eq single]
  split_ifs with newer
  · refine put_writes single (.inr rfl) ?_
    rw [write, if_pos (by exact newer)]
    rfl
  · exact writes_of_older single newer

theorem applyGroupPushTokenTombstone_writes (single : store.Single) (key : PushTokenKey)
    (tombstone : PushTombstone) :
    store.Writes (store.applyGroupPushTokenTombstone key tombstone) key tombstone.entry := by
  rw [applyGroupPushTokenTombstone, strictlyNewer_eq single]
  split_ifs with newer
  · refine put_writes single (.inl rfl) ?_
    rw [write, if_pos (by exact newer)]
    rfl
  · exact writes_of_older single newer

/-- **Of two tokens with one stamp the first one stays.** -/
theorem applyGroupPushToken_tie {stored : PushTokenRow}
    (live : store.tokens row.record.toPushTokenKey = some stored) (tie : stored.stamp = row.stamp) :
    store.applyGroupPushToken row = store := by
  rw [applyGroupPushToken, if_neg]
  rw [strictlyNewer, live, Option.map_some, pushStampStrictlyNewer_eq, pushStampStrictlyNewer_eq,
    Option.all_some, tie]
  simp

/-- **A local upsert in order**: nothing was removed under the key, and the row that is there is
older, or of the same record. -/
def InOrder (store : PushTokenStore) (row : PushTokenRow) : Prop :=
  store.tombstones row.record.toPushTokenKey = none ∧
    ∀ stored ∈ store.tokens row.record.toPushTokenKey,
      toLex stored.stamp < toLex row.stamp ∨ stored.entry = row.entry

theorem upsertGroupPushToken_writes (single : store.Single) (inOrder : store.InOrder row) :
    store.Writes (store.upsertGroupPushToken row) row.record.toPushTokenKey row.entry := by
  obtain ⟨noTombstone, older⟩ := inOrder
  have puts : store.upsertGroupPushToken row =
      store.put row.record.toPushTokenKey (some row) none := by
    rw [upsertGroupPushToken, put, ← noTombstone, update_eq_self]
  rw [puts]
  refine put_writes single (.inr rfl) ?_
  rw [PushTokenStore.register, noTombstone]
  cases live : store.tokens row.record.toPushTokenKey with
  | none => rfl
  | some stored =>
    rw [Option.map_some, Option.map_some, Option.some_or, Option.some_or, write, Option.all_some]
    obtain newer | same := older stored live
    · rw [if_pos (by exact decide_eq_true newer)]
    · rw [same, if_neg (by simp)]

end PushTokenStore

def entriesFor (key : PushTokenKey) (entries : List (PushTokenKey × PushEntry)) : List PushEntry :=
  (entries.filter (·.1 = key)).map (·.2)

theorem entriesFor_singleton (key : PushTokenKey) (entry : PushTokenKey × PushEntry)
    (register : Option PushEntry) :
    (entriesFor key [entry]).foldl write register =
      if entry.1 = key then write register entry.2 else register := by
  rw [entriesFor, filter_singleton]
  by_cases own : entry.1 = key
  · rw [if_pos own, decide_eq_true own]
    rfl
  · rw [if_neg own, decide_eq_false own]
    rfl

namespace PushTokenStore

theorem foldl_writes {α : Type} {step : PushTokenStore → α → PushTokenStore}
    {entry : α → PushTokenKey × PushEntry} {actions : List α}
    (writes : ∀ store : PushTokenStore, store.Single → ∀ action ∈ actions,
      store.Writes (step store action) (entry action).1 (entry action).2)
    {store : PushTokenStore} (single : store.Single) :
    (actions.foldl step store).Single ∧ ∀ key, (actions.foldl step store).register key =
      (entriesFor key (actions.map entry)).foldl write (store.register key) := by
  induction actions generalizing store with
  | nil => exact ⟨single, fun key => rfl⟩
  | cons first rest ih =>
    rw [foldl_cons]
    have written := writes store single first mem_cons_self
    obtain ⟨singleAfter, registers⟩ := ih (fun store single action listed =>
      writes store single action (mem_cons_of_mem _ listed)) written.single
    refine ⟨singleAfter, fun key => ?_⟩
    rw [registers, written.register, entriesFor, entriesFor, map_cons, filter_cons]
    by_cases own : (entry first).1 = key
    · rw [if_pos own, if_pos (decide_eq_true own), map_cons, foldl_cons]
    · rw [if_neg own, if_neg (by simpa using own)]

end PushTokenStore

/-! ### What a client was given -/

section Given

variable (signing : PushSigning) (members : String → List String)

def GroupPushTokenRecord.entry (record : GroupPushTokenRecord) : PushTokenKey × PushEntry :=
  (record.toPushTokenKey, (accountGroupPushTokenFromApp signing record 0).entry)

def PushTokenRemovalRecord.entry (groupIdHex : String) (removal : PushTokenRemovalRecord) :
    PushTokenKey × PushEntry :=
  (removal.key groupIdHex,
    (toLex (removal.ownerTs, (removal.recordDigest signing groupIdHex).getD ""), .removal))

/-- **The validly signed entries of an operation.** -/
def PushOperation.entries : PushOperation → List (PushTokenKey × PushEntry)
  | .ingest groupIdHex gossip _ _ =>
    match parsePushGossip groupIdHex gossip with
    | .error _ => []
    | .ok (.upsert records) =>
      (records.filter (·.verifyOwnerSig signing)).map (·.entry signing)
    | .ok (.remove removals) =>
      (removals.filter (·.verifyOwnerSig signing groupIdHex)).map (·.entry signing groupIdHex)
  | .localUpsert record _ => [record.entry signing]
  | .localRemoval groupIdHex removal _ =>
    if (removal.recordDigest signing groupIdHex).isSome then [removal.entry signing groupIdHex]
    else []
  | .memberLeft _ _ => []
  | .cleanUp _ _ => []

variable {groupIdHex : String} {gossip : PushGossip} {activeMembers : List String} {nowMs : Int}

/-- What a client was given of a key. -/
def given (operations : List PushOperation) (key : PushTokenKey) : List PushEntry :=
  entriesFor key (operations.flatMap (·.entries signing))

/-- **The condition**: a local upsert is in order. The members are those of the group throughout. -/
def PushOperation.Allowed (store : PushTokenStore) : PushOperation → Prop
  | .ingest groupIdHex _ activeMembers _ => ∀ member ∈ members groupIdHex, member ∈ activeMembers
  | .localUpsert record updatedAtMs =>
    store.InOrder (accountGroupPushTokenFromApp signing record updatedAtMs)
  | .localRemoval _ _ _ => True
  | .memberLeft groupIdHex memberIdHex => memberIdHex ∉ members groupIdHex
  | .cleanUp groupIdHex activeMembers => ∀ member ∈ members groupIdHex, member ∈ activeMembers

end Given

section Runs

variable {signing : PushSigning} {members : String → List String} {store : PushTokenStore}
  {key : PushTokenKey}

theorem intoRecord_groupIdHex {entry : PushTokenGossipEntry} {groupIdHex : String}
    {record : GroupPushTokenRecord} (found : entry.intoRecord groupIdHex = .ok record) :
    record.groupIdHex = groupIdHex := by
  rw [PushTokenGossipEntry.intoRecord] at found
  split_ifs at found
  · cases found
  · obtain ⟨_, _, found⟩ := bind_eq_ok.mp found
    obtain ⟨_, _, found⟩ := bind_eq_ok.mp found
    obtain ⟨_, _, found⟩ := bind_eq_ok.mp found
    obtain ⟨_, _, found⟩ := bind_eq_ok.mp found
    cases found
    rfl

theorem parsePushGossip_groupIdHex {groupIdHex : String} {gossip : PushGossip}
    (parsed : parsePushGossip groupIdHex gossip = .ok (.upsert records)) :
    ∀ record ∈ records, record.groupIdHex = groupIdHex := by
  intro record listed
  cases gossip with
  | tokens entries =>
    rw [parsePushGossip] at parsed
    cases computed : entries.mapM
        (fun entry : PushTokenGossipEntry => entry.intoRecord groupIdHex) with
    | error text =>
      rw [computed] at parsed
      cases parsed
    | ok results =>
      rw [computed] at parsed
      cases parsed
      obtain ⟨_, _, found⟩ := mem_of_mapM_eq_ok computed record listed
      exact intoRecord_groupIdHex found
  | removals entries =>
    rw [parsePushGossip] at parsed
    cases computed : entries.mapM PushTokenRemovalRecord.validated with
    | error =>
      rw [computed] at parsed
      cases parsed
    | ok =>
      rw [computed] at parsed
      cases parsed

/-- Entries that are dropped for their member are of other keys. -/
theorem entriesFor_filter {α : Type} {entry : α → PushTokenKey × PushEntry} {actions : List α}
    {keeps valid : α → Bool}
    (kept : ∀ action ∈ actions, (entry action).1 = key → keeps action = true) :
    entriesFor key ((actions.filter fun action => keeps action && valid action).map entry) =
      entriesFor key ((actions.filter valid).map entry) := by
  rw [entriesFor, entriesFor, filter_map, filter_map, filter_filter, filter_filter]
  refine congrArg (map _) (congrArg (map _) (filter_congr fun action listed => ?_))
  by_cases own : (entry action).1 = key
  · simp [own, kept action listed own]
  · simp [own]

namespace PushTokenStore

theorem applyRemoval_writes (single : store.Single) {groupIdHex : String}
    {removal : PushTokenRemovalRecord} (signed : (removal.recordDigest signing groupIdHex).isSome)
    (nowMs : Int) :
    store.Writes (store.applyRemoval signing groupIdHex removal nowMs)
      (removal.entry signing groupIdHex).1 (removal.entry signing groupIdHex).2 := by
  obtain ⟨_, digested⟩ := Option.isSome_iff_exists.mp signed
  rw [applyRemoval, PushTokenRemovalRecord.entry, digested]
  exact applyGroupPushTokenTombstone_writes single _ _

theorem verifyOwnerSig_isSome {removal : PushTokenRemovalRecord} {groupIdHex : String}
    {isMember : Prop} (verified : isMember ∧ removal.verifyOwnerSig signing groupIdHex = true) :
    (removal.recordDigest signing groupIdHex).isSome := by
  obtain ⟨_, digested, _⟩ := (Option.any_eq_true _ _).mp verified.2
  rw [digested]
  rfl

theorem ingest_register (single : store.Single) (groupIdHex : String) (gossip : PushGossip)
    (activeMembers : List String) (nowMs : Int) :
    (store.ingestPushGossipMessage signing groupIdHex gossip activeMembers nowMs).Single ∧
      ∀ key : PushTokenKey, (key.groupIdHex = groupIdHex → key.memberIdHex ∈ activeMembers) →
        (store.ingestPushGossipMessage signing groupIdHex gossip activeMembers nowMs).register key =
          (entriesFor key ((PushOperation.ingest groupIdHex gossip activeMembers nowMs).entries
            signing)).foldl write (store.register key) := by
  rw [ingestPushGossipMessage, PushOperation.entries]
  cases parsed : parsePushGossip groupIdHex gossip with
  | error => exact ⟨single, fun key _ => rfl⟩
  | ok action =>
    cases action with
    | upsert records =>
      have writes := @foldl_writes _ (fun store record =>
        store.applyGroupPushToken (accountGroupPushTokenFromApp signing record nowMs))
        (·.entry signing) (records.filter fun record =>
          record.memberIdHex ∈ activeMembers && record.verifyOwnerSig signing)
        (fun store single record _ => applyGroupPushToken_writes single _) store single
      refine ⟨writes.1, fun key active => (writes.2 key).trans ?_⟩
      rw [entriesFor_filter]
      intro record listed same
      have inGroup := parsePushGossip_groupIdHex parsed record listed
      subst same
      exact decide_eq_true (active inGroup)
    | remove removals =>
      have writes := @foldl_writes _ (fun store removal =>
        store.applyRemoval signing groupIdHex removal nowMs)
        (·.entry signing groupIdHex) (removals.filter fun removal =>
          removal.memberIdHex ∈ activeMembers && removal.verifyOwnerSig signing groupIdHex)
        (fun store single removal listed => applyRemoval_writes single
          (verifyOwnerSig_isSome (by simpa using (mem_filter.mp listed).2)) nowMs) store single
      refine ⟨writes.1, fun key active => (writes.2 key).trans ?_⟩
      rw [entriesFor_filter]
      intro _ _ same
      subst same
      exact decide_eq_true (active rfl)

theorem cleared_register (single : store.Single) (clears : PushTokenKey → Bool) :
    (store.cleared clears).Single ∧
      ∀ key, ¬ clears key = true → (store.cleared clears).register key = store.register key := by
  constructor
  · intro other
    rw [cleared]
    dsimp only
    split_ifs
    · exact .inl rfl
    · exact single other
  · intro _ kept
    rw [PushTokenStore.register, cleared]
    dsimp only
    rw [if_neg kept, if_neg kept]
    rfl

/-- **Every way in is a write of the last writer.** -/
theorem perform_register {operation : PushOperation} (single : store.Single)
    (allowed : operation.Allowed signing members store) :
    (store.perform signing operation).Single ∧
      ∀ key : PushTokenKey, key.memberIdHex ∈ members key.groupIdHex →
        (store.perform signing operation).register key =
          (entriesFor key (operation.entries signing)).foldl write (store.register key) := by
  cases operation with
  | ingest groupIdHex gossip activeMembers nowMs =>
    have ingested := @ingest_register signing store single groupIdHex gossip activeMembers nowMs
    exact ⟨ingested.1, fun key current =>
      ingested.2 key fun same => allowed _ (same ▸ current)⟩
  | localUpsert =>
    have written := upsertGroupPushToken_writes single allowed
    refine ⟨written.single, fun key _ => (written.register key).trans ?_⟩
    rw [PushOperation.entries, entriesFor_singleton]
    rfl
  | localRemoval groupIdHex removal nowMs =>
    rw [PushOperation.entries, perform]
    split_ifs with signed
    · have written := @applyRemoval_writes signing _ single groupIdHex removal signed nowMs
      refine ⟨written.single, fun key _ => (written.register key).trans ?_⟩
      rw [entriesFor_singleton]
    · rw [Option.not_isSome_iff_eq_none] at signed
      rw [applyRemoval, signed]
      exact ⟨single, fun key _ => rfl⟩
  | memberLeft =>
    refine ⟨(cleared_register single _).1, fun key current => (cleared_register single _).2 key ?_⟩
    rw [Bool.and_eq_true, decide_eq_true_eq, decide_eq_true_eq]
    rintro ⟨rfl, rfl⟩
    exact allowed current
  | cleanUp =>
    refine ⟨(cleared_register single _).1, fun key current => (cleared_register single _).2 key ?_⟩
    rw [Bool.and_eq_true, decide_eq_true_eq, decide_eq_true_eq]
    rintro ⟨rfl, gone⟩
    exact gone (allowed _ current)

/-- **A run writes what it is given.** -/
theorem run_register {operations : List PushOperation}
    (allowed : Along (perform signing) (fun store operation =>
      operation.Allowed signing members store) store operations) (single : store.Single) :
    (operations.foldl (perform signing) store).Single ∧
      ∀ key : PushTokenKey, key.memberIdHex ∈ members key.groupIdHex →
        (operations.foldl (perform signing) store).register key =
          (given signing operations key).foldl write (store.register key) := by
  induction operations generalizing store with
  | nil => exact ⟨single, fun key _ => rfl⟩
  | cons operation rest ih =>
    obtain ⟨singleAfter, registers⟩ := perform_register single allowed.1
    obtain ⟨singleLast, registersLast⟩ := ih allowed.2 singleAfter
    refine ⟨singleLast, fun key current => ?_⟩
    rw [foldl_cons, registersLast key current, registers key current, given, given,
      flatMap_cons, entriesFor, entriesFor, entriesFor, filter_append, map_append,
      foldl_append]

theorem register_record? (key : PushTokenKey) :
    (store.tokens key).map (·.record) = (store.register key).bind (·.2.record?) := by
  rw [PushTokenStore.register]
  cases store.tokens key with
  | none => cases store.tombstones key <;> rfl
  | some => rfl

end PushTokenStore

end Runs

open PushTokenStore

/-- The state of a client after a run. -/
def PushTokenStore.run (signing : PushSigning) (operations : List PushOperation) : PushTokenStore :=
  operations.foldl (perform signing) .empty

/-- **A key has its greatest record, and clients agree.** No key is both live and removed. The
greatest of the entries that a client was given of a member's key is live, or nothing is when it is a
removal. Two clients that were given the same entries of the key have the same. -/
theorem push_tokens_converge {signing : PushSigning} {members : String → List String}
    {operations others : List PushOperation}
    (allowed : Along (perform signing) (fun store operation =>
      operation.Allowed signing members store) .empty operations)
    (allowedToo : Along (perform signing) (fun store operation =>
      operation.Allowed signing members store) .empty others)
    (stamped : ∀ key, ∀ entry ∈ given signing operations key, ∀ other ∈ given signing operations key,
      entry.1 = other.1 → entry = other) :
    let store := run signing operations
    (∀ key, store.tokens key = none ∨ store.tombstones key = none) ∧
      ∀ key : PushTokenKey, key.memberIdHex ∈ members key.groupIdHex →
        (∀ entry ∈ given signing operations key,
          (∀ other ∈ given signing operations key, other.1 ≤ entry.1) →
            (store.tokens key).map (·.record) = entry.2.record?) ∧
          (given signing operations key = [] → store.tokens key = none) ∧
          ((∀ entry, entry ∈ given signing operations key ↔ entry ∈ given signing others key) →
            ((run signing others).tokens key).map (·.record) =
              (store.tokens key).map (·.record)) := by
  intro store
  have emptySingle : empty.Single := fun _ => .inl rfl
  obtain ⟨single, registers⟩ := run_register allowed emptySingle
  obtain ⟨_, registersToo⟩ := run_register allowedToo emptySingle
  refine ⟨single, fun key current => ?_⟩
  have greatest : Greatest (store.register key) (given signing operations key) := by
    rw [show store.register key = _ from registers key current]
    exact greatest_nil.foldl
  have greatestToo : Greatest ((run signing others).register key)
      (given signing others key) := by
    rw [show (run signing others).register key = _ from registersToo key current]
    exact greatest_nil.foldl
  refine ⟨?_, ?_, ?_⟩
  · intro entry listed top
    rw [register_record? key, greatest.eq_some (stamped key) listed top]
    rfl
  · intro nothing
    rw [nothing] at greatest
    have record : (store.tokens key).map (·.record) = (store.register key).bind (·.2.record?) :=
      register_record? key
    rw [greatest.eq_none] at record
    exact Option.map_eq_none_iff.mp record
  · intro same
    rw [register_record?, register_record?, greatest.unique greatestToo (stamped key) same]

namespace PushTokensExample

/-- Signed bytes stand for their digest, and every signature is one. -/
def signing : PushSigning := ⟨hexEncode, fun _ _ _ => true⟩

def digits (digit : Char) (count : Nat) : String := String.ofList (replicate count digit)

def key : PushTokenKey := ⟨"00", digits 'a' 64, 0, .fcm, digits 'b' 64⟩

def members : String → List String := fun _ => [digits 'a' 64]

def fingerprint : String := "sha256:" ++ digits 'c' 24

def token (ownerTs : Int) : GroupPushTokenRecord :=
  { key with
    tokenFingerprint := fingerprint
    relayHint := none
    encryptedToken := []
    ownerTs := ownerTs
    ownerSig := digits 'd' 128 }

def removal (ownerTs : Int) : PushTokenRemovalRecord :=
  ⟨digits 'a' 64, 0, .fcm, fingerprint, digits 'b' 64, ownerTs, digits 'd' 128⟩

def entry (relayHint : String) : PushTokenGossipEntry where
  memberIdHex := digits 'a' 64
  leafIndex := 0
  platform := .fcm
  tokenFingerprint := fingerprint
  serverPubkeyHex := digits 'b' 64
  relayHint := some relayHint
  encryptedToken := replicate 1084 0
  ownerTs := 5
  ownerSig := digits 'd' 128

def gossip (entries : List PushTokenGossipEntry) : List PushOperation :=
  [.ingest "00" (.tokens entries) (members "00") 9]

def shared (relayHint : String) : GroupPushTokenRecord :=
  { token 5 with
    relayHint := some relayHint
    encryptedToken := replicate 1084 0 }

theorem digits_toList (digit : Char) (count : Nat) :
    (digits digit count).toList = replicate count digit := String.toList_ofList

theorem fingerprint_toList : fingerprint.toList = fingerprintMark ++ replicate 24 'c' :=
  String.toList_append.trans (congrArg (fingerprintMark ++ ·) (digits_toList 'c' 24))

/-- The texts of the examples. -/
theorem texts_checked :
    (decodeHex32 (digits 'a' 64) = some (replicate 32 0xaa) ∧
      decodeHex32 (digits 'b' 64) = some (replicate 32 0xbb) ∧
      fingerprintBytes fingerprint = some (replicate 12 0xcc)) ∧
    (trimText "wss://r" ≠ "" ∧ trimText "wss://r " ≠ "") ∧
      signedRelay (some "wss://r") = signedRelay (some "wss://r ") ∧
      (signedRelay (some "wss://r")).toUTF8.toList.length < 2 ^ 16 ∧
      (signedRelay none).toUTF8.toList.length < 2 ^ 16 := by
  rw [decodeHex32, decodeHex32, decodeHex, decodeHex, digits_toList, digits_toList,
    fingerprintBytes, fingerprint_toList]
  decide +kernel

theorem texts_valid :
    validateAccountHex (digits 'a' 64) "member id" = .ok () ∧
      validateAccountHex (digits 'b' 64) "server pubkey" = .ok () ∧
      validateFingerprint fingerprint = .ok () ∧ validateOwnerSigHex (digits 'd' 128) = .ok () := by
  simp only [validateAccountHex, validateOwnerSigHex, validateHex, decodeHex, digits_toList,
    validateFingerprint, fingerprint_toList]
  decide +kernel

theorem signed_isSome (domain : Bytes) (ownerTs : Int) (relayHint : Option String)
    (encryptedToken : Option Bytes)
    (short : (signedRelay relayHint).toUTF8.toList.length < 2 ^ 16) :
    (pushSignedRecordBytes domain key fingerprint ownerTs relayHint encryptedToken).isSome := by
  have group : decodeHex key.groupIdHex = some [0] := rfl
  obtain ⟨member, server, bytes⟩ := texts_checked.1
  rw [pushSignedRecordBytes, group, key, member, server, bytes]
  simp only [Option.bind_eq_bind, Option.bind_some, guard, if_pos short]
  rfl

theorem entry_intoRecord {relayHint : String} (hint : trimText relayHint ≠ "") :
    (entry relayHint).intoRecord "00" = .ok (shared relayHint) := by
  have kept : (some relayHint).filter (fun relay => trimText relay ≠ "") = some relayHint := by
    simp [hint]
  rw [PushTokenGossipEntry.intoRecord, if_neg fun differs => differs length_replicate]
  simp only [entry, texts_valid, kept]
  rfl

theorem gossip_first {first second : String} (hint : trimText first ≠ "")
    (hintToo : trimText second ≠ "") {digest : String}
    (digested : (shared first).recordDigest signing = some digest)
    (same : (shared second).recordDigest signing = some digest) :
    ((run signing (gossip [entry first, entry second])).tokens key).map
      (·.record.relayHint) = some (some first) := by
  have parsed : parsePushGossip "00" (.tokens [entry first, entry second]) =
      .ok (.upsert [shared first, shared second]) := by
    rw [parsePushGossip, mapM_cons, mapM_cons, entry_intoRecord hint, entry_intoRecord hintToo]
    rfl
  have verified : verifyPushGossip signing "00" (members "00")
      (.upsert [shared first, shared second]) = .upsert [shared first, shared second] := by
    refine congrArg PushGossipAction.upsert (filter_eq_self.mpr fun record listed => ?_)
    obtain rfl | listed := mem_cons.mp listed
    · rw [GroupPushTokenRecord.verifyOwnerSig, digested]
      exact Bool.and_eq_true_iff.mpr ⟨decide_eq_true mem_cons_self, rfl⟩
    · obtain rfl := mem_singleton.mp listed
      rw [GroupPushTokenRecord.verifyOwnerSig, same]
      exact Bool.and_eq_true_iff.mpr ⟨decide_eq_true mem_cons_self, rfl⟩
  have live : (empty.put key
      (some (accountGroupPushTokenFromApp signing (shared first) 9)) none).tokens key =
      some (accountGroupPushTokenFromApp signing (shared first) 9) := by
    simp only [PushTokenStore.put, update_self]
  have tie : (accountGroupPushTokenFromApp signing (shared first) 9).stamp =
      (accountGroupPushTokenFromApp signing (shared second) 9).stamp := by
    rw [accountGroupPushTokenFromApp, accountGroupPushTokenFromApp, digested, same]
    rfl
  have ingested : run signing (gossip [entry first, entry second]) =
      (empty.applyGroupPushToken
        (accountGroupPushTokenFromApp signing (shared first) 9)).applyGroupPushToken
          (accountGroupPushTokenFromApp signing (shared second) 9) := by
    rw [run, gossip, foldl_cons, foldl_nil, perform,
      ingestPushGossipMessage, parsed, Except.map, verified]
    rfl
  have firstPut : empty.applyGroupPushToken
      (accountGroupPushTokenFromApp signing (shared first) 9) = empty.put key
        (some (accountGroupPushTokenFromApp signing (shared first) 9)) none := rfl
  rw [ingested, firstPut, applyGroupPushToken_tie live tie, live]
  rfl

/-- A token is shared, and removed. -/
def ownDevice : List PushOperation :=
  [.localUpsert (shared "wss://r") 9, .localRemoval "00" (removal 7) 9]

/-- The removal arrives first. -/
def otherDevice : List PushOperation :=
  [.ingest "00" (.removals [removal 7]) (members "00") 9,
    .ingest "00" (.tokens [entry "wss://r"]) (members "00") 9]

theorem removal_digest : ((removal 7).recordDigest signing "00").isSome := by
  rw [PushTokenRemovalRecord.recordDigest, Option.isSome_map]
  exact signed_isSome _ _ _ _ texts_checked.2.2.2.2

theorem shared_digest : ((shared "wss://r").recordDigest signing).isSome := by
  rw [GroupPushTokenRecord.recordDigest, Option.isSome_map]
  exact signed_isSome _ _ _ _ texts_checked.2.2.2.1

theorem ownDevice_entries : ownDevice.flatMap (·.entries signing) =
    [(shared "wss://r").entry signing, (removal 7).entry signing "00"] := by
  simp only [ownDevice, flatMap_cons, flatMap_nil, PushOperation.entries, removal_digest, if_true]
  rfl

theorem otherDevice_entries : otherDevice.flatMap (·.entries signing) =
    [(removal 7).entry signing "00", (shared "wss://r").entry signing] := by
  have removed : parsePushGossip "00" (.removals [removal 7]) = .ok (.remove [removal 7]) := by
    rw [parsePushGossip, mapM_cons, PushTokenRemovalRecord.validated]
    simp only [removal, texts_valid]
    rfl
  have parsed : parsePushGossip "00" (.tokens [entry "wss://r"]) =
      .ok (.upsert [shared "wss://r"]) := by
    rw [parsePushGossip, mapM_cons, entry_intoRecord texts_checked.2.1.1]
    rfl
  have signed : (removal 7).verifyOwnerSig signing "00" = true := by
    obtain ⟨_, digested⟩ := Option.isSome_iff_exists.mp (removal_digest)
    rw [PushTokenRemovalRecord.verifyOwnerSig, digested]
    rfl
  have signedToo : (shared "wss://r").verifyOwnerSig signing = true := by
    obtain ⟨_, digested⟩ := Option.isSome_iff_exists.mp shared_digest
    rw [GroupPushTokenRecord.verifyOwnerSig, digested]
    rfl
  simp only [otherDevice, flatMap_cons, flatMap_nil, PushOperation.entries, removed, parsed,
    filter_cons, signed, signedToo, if_true, filter_nil, map_singleton]
  rfl

end PushTokensExample

open PushTokensExample in
/-- **Tables that part.** A token that is shared again after its removal is live and removed. A local
upsert with an earlier time takes the place of a later record. And of two records that differ in
blanks around the relay, which the signature does not cover, the first one stays. -/
theorem push_tokens_part :
    (((run signing [.localRemoval "00" (removal 1) 9, .localUpsert (token 2) 9]).tokens
          key).isSome ∧
        ((run signing
          [.localRemoval "00" (removal 1) 9, .localUpsert (token 2) 9]).tombstones key).isSome) ∧
      ((run signing [.localUpsert (token 2) 9, .localUpsert (token 1) 9]).tokens
        key).map (·.record) = some (token 1) ∧
      ((run signing (gossip [entry "wss://r", entry "wss://r "])).tokens key).map
          (·.record.relayHint) ≠
        ((run signing (gossip [entry "wss://r ", entry "wss://r"])).tokens key).map
          (·.record.relayHint) := by
  refine ⟨by decide +kernel, by decide +kernel, ?_⟩
  obtain ⟨digest, digested⟩ := Option.isSome_iff_exists.mp shared_digest
  have same : (shared "wss://r ").recordDigest signing = some digest := by
    rw [← digested]
    exact (shared "wss://r").recordDigest_relayHint signing texts_checked.2.2.1
  obtain ⟨hint, hintToo⟩ := texts_checked.2.1
  rw [gossip_first hint hintToo digested same, gossip_first hintToo hint same digested]
  decide

open PushTokensExample in
theorem later_removal_wins :
    key.memberIdHex ∈ members key.groupIdHex ∧
      ((run signing otherDevice).tokens key).map (·.record) =
        ((run signing ownDevice).tokens key).map (·.record) := by
  have current : key.memberIdHex ∈ members key.groupIdHex := mem_cons_self
  refine ⟨current, ((@push_tokens_converge signing members ownDevice otherDevice
    ⟨⟨rfl, by rintro stored ⟨⟩⟩, trivial, trivial⟩
    ⟨fun _ listed => listed, fun _ listed => listed, trivial⟩ ?_).2 key current).2.2 ?_⟩
  · intro key entry listed other listedToo same
    rw [given, ownDevice_entries, entriesFor, mem_map] at listed listedToo
    obtain ⟨first, isFirst, rfl⟩ := listed
    obtain ⟨second, isSecond, rfl⟩ := listedToo
    have isFirst := mem_of_mem_filter isFirst
    have isSecond := mem_of_mem_filter isSecond
    rw [mem_pair] at isFirst isSecond
    have times := congrArg (fun stamp => (ofLex stamp).1) same
    obtain rfl | rfl := isFirst <;> obtain rfl | rfl := isSecond
    · rfl
    · exact absurd times (by decide : (5 : Int) ≠ 7)
    · exact absurd times (by decide : (7 : Int) ≠ 5)
    · rfl
  · intro entry
    rw [given, given, ownDevice_entries, otherDevice_entries]
    exact (((List.Perm.swap _ _ _).filter _).map _).mem_iff

end Darkmatter
