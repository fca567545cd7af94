/-
**Batches of push gossip.**

Gossip comes as a list of entries in JSON. An entry becomes a record when its texts can be read and its
fields pass the checks; a record is applied when it is signed by a current member.

* `PushTokenText.intoRecord`, `PushRemovalText.intoRecord` — an entry and its record;
* `ingestBatch` — every entry is read before any record is applied;
* `ingestTokens_eq`, `ingestRemovals_eq` — a batch whose texts can be read is a message of gossip;
* `batch_poisoned_iff` — **one malformed entry keeps all the others out**.
-/

import Darkmatter.Account.PushTokens

namespace Darkmatter

open Lib List

/-! ### Entries -/

def PushPlatform.fromStr (text : String) : Except String PushPlatform :=
  if text = "apns" then .ok .apns
  else if text = "fcm" then .ok .fcm
  else .error "unsupported push platform"

/-- A token as it is sent; the texts stand for the platform and the token of the entry. -/
structure PushTokenText where
  platform : String
  encryptedToken : String
  entry : PushTokenGossipEntry

structure PushRemovalText where
  platform : String
  removal : PushTokenRemovalRecord

/-- The entry of the texts. -/
def PushTokenText.parse (base64 : String → Option Bytes) (text : PushTokenText) :
    Except String PushTokenGossipEntry := do
  let platform ← PushPlatform.fromStr text.platform
  match base64 text.encryptedToken with
  | none => throw "invalid encrypted token base64"
  | some encryptedToken => return { text.entry with platform, encryptedToken }

def PushTokenText.intoRecord (base64 : String → Option Bytes) (groupIdHex : String)
    (text : PushTokenText) : Except String GroupPushTokenRecord := do
  let entry ← text.parse base64
  entry.intoRecord groupIdHex

def PushRemovalText.parse (text : PushRemovalText) : Except String PushTokenRemovalRecord := do
  let platform ← PushPlatform.fromStr text.platform
  return { text.removal with platform }

def PushRemovalText.intoRecord (text : PushRemovalText) : Except String PushTokenRemovalRecord := do
  let removal ← text.removal.validated
  let platform ← PushPlatform.fromStr text.platform
  return { removal with platform := platform }

/-! ### Batches -/

section Batches

variable {σ α β ε : Type} (read : α → Except ε β) (keeps : β → Bool) (apply : σ → β → σ)

/-- **A batch**: every entry is read, and the records that are kept are applied. -/
def ingestBatch (state : σ) (entries : List α) : σ :=
  match entries.mapM read with
  | .error _ => state
  | .ok records => (records.filter keeps).foldl apply state

/-- An entry that can be read and is kept. -/
def standsAlone (entry : α) : Bool := (read entry).toOption.any keeps

/-- The records of the entries that can be read, as far as they are kept. -/
def survivors (entries : List α) : List β :=
  (entries.filterMap fun entry => (read entry).toOption).filter keeps

variable {read keeps apply}

theorem mapM_standsAlone (entries : List α) :
    (entries.filter (standsAlone read keeps)).mapM read = .ok (survivors read keeps entries) := by
  rw [survivors]
  induction entries with
  | nil => rfl
  | cons entry rest ih =>
    rw [filter_cons, filterMap_cons]
    cases known : read entry with
    | error => rw [if_neg (by simp [standsAlone, known, Except.toOption]), ih]; rfl
    | ok record =>
      have kept : standsAlone read keeps entry = keeps record := by rw [standsAlone, known]; rfl
      rw [kept, Except.toOption, filter_cons]
      split_ifs
      · rw [mapM_cons, known, ih]
        rfl
      · exact ih

theorem mapM_read (entries : List α) :
    entries.mapM read = .ok (entries.filterMap fun entry => (read entry).toOption) ∧
        (∀ entry ∈ entries, (read entry).isOk) ∨
      (∃ e, entries.mapM read = .error e) ∧ ¬ ∀ entry ∈ entries, (read entry).isOk := by
  induction entries with
  | nil => exact .inl ⟨rfl, by simp⟩
  | cons entry rest ih =>
    rw [mapM_cons, filterMap_cons, forall_mem_cons]
    cases known : read entry with
    | error e => exact .inr ⟨⟨e, rfl⟩, fun readable => Bool.noConfusion readable.1⟩
    | ok =>
      obtain ⟨all, readable⟩ | ⟨⟨e, stopped⟩, unreadable⟩ := ih
      · rw [all]
        exact .inl ⟨rfl, rfl, readable⟩
      · rw [stopped]
        exact .inr ⟨⟨e, rfl⟩, fun readable => unreadable readable.2⟩

theorem toOption_bind {γ : Type} (value : Except ε α) (next : α → Except ε γ) :
    (value >>= next).toOption = value.toOption.bind fun entry => (next entry).toOption := by
  cases value <;> rfl

section Parse

variable {γ : Type} {parse : α → Except ε γ} {validate : γ → Except ε β}
  (same : ∀ entry, (read entry).toOption = (parse entry >>= validate).toOption)

include same

/-- The entries may be parsed first, all of them, before they become records. -/
theorem mapM_parse (entries : List α) : (entries.mapM read).toOption =
    (entries.mapM parse).toOption.bind fun parsed => (parsed.mapM validate).toOption := by
  induction entries with
  | nil => rfl
  | cons entry rest ih =>
    simp only [mapM_cons, toOption_bind, same, ih]
    cases (parse entry).toOption with
    | none => rfl
    | some first =>
      cases (rest.mapM parse).toOption with
      | none => simp
      | some values =>
        change _ = ((first :: values).mapM validate).toOption
        simp only [mapM_cons, toOption_bind, Option.bind_some]

theorem ingestBatch_parse (state : σ) (entries : List α) :
    ingestBatch read keeps apply state entries =
      (entries.mapM parse).toOption.elim state (ingestBatch validate keeps apply state) := by
  have batch {α : Type} (read : α → Except ε β) (entries : List α) :
      ingestBatch read keeps apply state entries =
        (entries.mapM read).toOption.elim state fun records =>
          (records.filter keeps).foldl apply state := by
    rw [ingestBatch]
    cases entries.mapM read <;> rfl
  rw [batch, mapM_parse same]
  cases (entries.mapM parse).toOption with
  | none => rfl
  | some parsed => exact (batch validate parsed).symm

end Parse

/-- **When a batch has the effect of the entries that stand alone**: all of its entries can be read,
or none stands alone. -/
theorem ingestBatch_iff {start : σ} {entries : List α}
    (changes : survivors read keeps entries ≠ [] →
      (survivors read keeps entries).foldl apply start ≠ start) :
    (∀ state, ingestBatch read keeps apply state entries =
        ingestBatch read keeps apply state (entries.filter (standsAlone read keeps))) ↔
      (∀ entry ∈ entries, (read entry).isOk) ∨ survivors read keeps entries = [] := by
  have alone : (survivors read keeps entries).filter keeps = survivors read keeps entries :=
    filter_eq_self.mpr fun record listed => (mem_filter.mp listed).2
  simp only [ingestBatch, mapM_standsAlone, alone]
  obtain ⟨all, readable⟩ | ⟨⟨e, stopped⟩, unreadable⟩ := @mapM_read _ _ _ read entries
  · rw [all]
    exact iff_of_true (fun state => rfl) (.inl readable)
  · rw [stopped]
    refine ⟨fun same => .inr ?_, fun holds state => ?_⟩
    · by_contra some
      exact changes some (same start).symm
    · rw [holds.resolve_left unreadable]
      rfl

end Batches

open PushTokenStore

section Gossip

variable (base64 : String → Option Bytes) (signing : PushSigning) (groupIdHex : String)
  (activeMembers : List String) (nowMs : Int)

def GroupPushTokenRecord.isVerified (record : GroupPushTokenRecord) : Bool :=
  record.memberIdHex ∈ activeMembers && record.verifyOwnerSig signing

def PushTokenRemovalRecord.isVerified (removal : PushTokenRemovalRecord) : Bool :=
  removal.memberIdHex ∈ activeMembers && removal.verifyOwnerSig signing groupIdHex

def PushTokenStore.ingestTokens : PushTokenStore → List PushTokenText → PushTokenStore :=
  ingestBatch (·.intoRecord base64 groupIdHex) (·.isVerified signing activeMembers)
    fun store record => store.applyGroupPushToken (accountGroupPushTokenFromApp signing record nowMs)

def PushTokenStore.ingestRemovals : PushTokenStore → List PushRemovalText → PushTokenStore :=
  ingestBatch PushRemovalText.intoRecord (·.isVerified signing groupIdHex activeMembers)
    fun store removal => store.applyRemoval signing groupIdHex removal nowMs

variable {base64 signing groupIdHex activeMembers nowMs}

/-- **A batch of tokens is a message of gossip** when its texts can be read; otherwise nothing
happens. -/
theorem ingestTokens_eq (store : PushTokenStore) (texts : List PushTokenText) :
    store.ingestTokens base64 signing groupIdHex activeMembers nowMs texts =
      (texts.mapM (PushTokenText.parse base64)).toOption.elim store fun entries =>
        store.ingestPushGossipMessage signing groupIdHex (.tokens entries) activeMembers nowMs := by
  have same (text : PushTokenText) : (text.intoRecord base64 groupIdHex).toOption =
      (text.parse base64 >>= fun entry => entry.intoRecord groupIdHex).toOption := rfl
  rw [ingestTokens, ingestBatch_parse same]
  congr 1
  funext entries
  rw [ingestBatch, ingestPushGossipMessage, parsePushGossip]
  cases entries.mapM fun entry => entry.intoRecord groupIdHex <;> rfl

/-- **And so is a batch of removals.** -/
theorem ingestRemovals_eq (store : PushTokenStore) (texts : List PushRemovalText) :
    store.ingestRemovals signing groupIdHex activeMembers nowMs texts =
      (texts.mapM PushRemovalText.parse).toOption.elim store fun removals =>
        store.ingestPushGossipMessage signing groupIdHex (.removals removals) activeMembers
          nowMs := by
  have same (text : PushRemovalText) : text.intoRecord.toOption =
      (text.parse >>= PushTokenRemovalRecord.validated).toOption := by
    -- The platform is read after the checks, which do not look at it.
    rw [PushRemovalText.intoRecord, PushRemovalText.parse]
    cases PushPlatform.fromStr text.platform with
    | error => cases text.removal.validated <;> rfl
    | ok platform =>
      change (text.removal.validated >>= fun removal => pure { removal with platform }).toOption =
        (PushTokenRemovalRecord.validated { text.removal with platform }).toOption
      rw [PushTokenRemovalRecord.validated, PushTokenRemovalRecord.validated]
      cases validateAccountHex text.removal.memberIdHex "member id" <;>
        cases validateAccountHex text.removal.serverPubkeyHex "server pubkey" <;>
        cases validateFingerprint text.removal.tokenFingerprint <;>
        cases validateOwnerSigHex text.removal.ownerSig <;> rfl
  rw [ingestRemovals, ingestBatch_parse same]
  congr 1
  funext removals
  rw [ingestBatch, ingestPushGossipMessage, parsePushGossip]
  cases removals.mapM PushTokenRemovalRecord.validated <;> rfl

end Gossip

/-- Records that are applied to empty tables leave something there. -/
theorem PushTokenStore.foldl_ne_empty {α : Type} {step : PushTokenStore → α → PushTokenStore}
    {entry : α → PushTokenKey × PushEntry} {actions : List α}
    (writes : ∀ store : PushTokenStore, store.Single → ∀ action ∈ actions,
      store.Writes (step store action) (entry action).1 (entry action).2) (some : actions ≠ []) :
    actions.foldl step .empty ≠ .empty := by
  intro same
  obtain ⟨first, listed⟩ := exists_mem_of_ne_nil actions some
  have registers := (@foldl_writes _ step entry actions writes .empty fun _ => .inl rfl).2
    (entry first).1
  have given : (entry first).2 ∈ entriesFor (entry first).1 (actions.map entry) :=
    mem_map_of_mem (mem_filter.mpr ⟨mem_map_of_mem listed, decide_eq_true rfl⟩)
  obtain ⟨_, held, _⟩ := greatest_nil.foldl.above _ given
  rw [same] at registers
  cases registers.trans held

/-- **One malformed entry keeps all the others out.** A batch has the effect of its well-formed entries
that current members signed, whatever the tables were, exactly when all of its entries are well formed
or none of them is such. -/
theorem batch_poisoned_iff (base64 : String → Option Bytes) (signing : PushSigning)
    (groupIdHex : String) (activeMembers : List String) (nowMs : Int) (texts : List PushTokenText)
    (removals : List PushRemovalText) :
    ((∀ store : PushTokenStore,
        store.ingestTokens base64 signing groupIdHex activeMembers nowMs texts =
          store.ingestTokens base64 signing groupIdHex activeMembers nowMs (texts.filter
            (standsAlone (·.intoRecord base64 groupIdHex) (·.isVerified signing activeMembers)))) ↔
        (∀ text ∈ texts, (text.intoRecord base64 groupIdHex).isOk) ∨
          survivors (·.intoRecord base64 groupIdHex) (·.isVerified signing activeMembers) texts = []) ∧
      ((∀ store : PushTokenStore,
          store.ingestRemovals signing groupIdHex activeMembers nowMs removals =
            store.ingestRemovals signing groupIdHex activeMembers nowMs (removals.filter
              (standsAlone PushRemovalText.intoRecord
                (·.isVerified signing groupIdHex activeMembers)))) ↔
        (∀ removal ∈ removals, removal.intoRecord.isOk) ∨
          survivors PushRemovalText.intoRecord (·.isVerified signing groupIdHex activeMembers)
            removals = []) := by
  constructor
  · refine ingestBatch_iff (@foldl_ne_empty _ _ (·.entry signing) _
      fun store single record _ => ?_)
    exact applyGroupPushToken_writes single _
  · refine ingestBatch_iff (@foldl_ne_empty _ _ (·.entry signing groupIdHex) _
      fun store single removal listed => ?_)
    have verified := Bool.and_eq_true_iff.mp (mem_filter.mp listed).2
    exact applyRemoval_writes single (verifyOwnerSig_isSome verified) _

open PushTokensExample in
/-- A removal by a member stands behind one for no platform. -/
theorem removal_lost :
    ((empty.ingestRemovals signing "00" (members "00") 9
        [⟨"sms", removal 5⟩, ⟨"fcm", removal 7⟩]).tombstones key).isNone ∧
      ((empty.ingestRemovals signing "00" (members "00") 9
        ([⟨"sms", removal 5⟩, ⟨"fcm", removal 7⟩].filter (standsAlone PushRemovalText.intoRecord
          (·.isVerified signing "00" (members "00"))))).tombstones key).isSome := by
  decide +kernel

end Darkmatter
