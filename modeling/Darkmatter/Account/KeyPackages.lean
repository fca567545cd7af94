/-
**Key packages fetched from relays.**

The records that relays return for an account are sorted by time and id. Of the account's key
packages that are not dated too far ahead the last one is taken, and the first malformed one ends the
search with an error.

* `keyPackageFromRecord` — the checks of one record;
* `KeyPackageQuery.selectKeyPackage` — the selection, with the cached package in reserve;
* `KeyPackageQuery.newestKeyPackage` — the newest usable package, which the selection is for;
* `newest_selected_iff` — **when the newest usable key package is selected**.
-/

import Darkmatter.Timeline.Projection

namespace Darkmatter

open Lib Std List

/-! ### Records -/

structure NostrTransportEvent where
  id : String
  pubkey : String
  createdAt : Nat
  kind : Nat
  tags : List (List String)
  content : String

structure RelayEventRecord where
  endpoints : List String
  event : NostrTransportEvent

structure KeyPackageMetadata where
  credentialIdentityHex : String
  keyPackageRefHex : String

/-- The decoders of other crates. -/
structure KeyPackageCodec where
  decodeHex : String → Except String Bytes
  decodeBase64 : String → Except String Bytes
  keyPackageMetadata : Bytes → Except String KeyPackageMetadata

structure FetchedKeyPackage where
  accountIdHex : String
  keyPackage : Bytes
  sourceEventId : Bytes
  keyPackageId : String
  keyPackageRefHex : String
  keyPackageEventId : String
  createdAt : Nat
  sourceRelays : List String
deriving DecidableEq, Repr

inductive KeyPackageError
  | hex (reason : String)
  | invalidKeyPackageEvent (reason : String)
deriving DecidableEq, Repr

open KeyPackageError

/-- The outcome of a check. -/
abbrev Checked := Except KeyPackageError

section Checks

variable (event : NostrTransportEvent) (name : String)

def rejectDuplicateKeyPackageTag : Checked Unit :=
  if 1 < (event.tags.filter fun tag => tag.head? = some name).length then
    throw (invalidKeyPackageEvent s!"duplicate {name} tag")
  else
    return

def requireKeyPackageTag (predicate : String → Bool) : Checked Unit := do
  rejectDuplicateKeyPackageTag event name
  match tagValue event.tags name with
  | some value =>
    if predicate value then return
    else throw (invalidKeyPackageEvent s!"invalid {name} tag: {value}")
  | none => throw (invalidKeyPackageEvent s!"missing {name} tag")

/-- One tag with a value that passes. -/
def requireTagValue (passes : String → Bool) (failure : String) : Checked Unit := do
  rejectDuplicateKeyPackageTag event name
  match event.tags.find? fun tag => tag.head? = some name with
  | some tag =>
    if (tag.drop 1).any passes then return else throw (invalidKeyPackageEvent failure)
  | none => throw (invalidKeyPackageEvent s!"missing {name} tag")

def requireMultiValueKeyPackageTag : Checked Unit :=
  requireTagValue event name (fun value => !value.toList.all isWhiteSpace) s!"empty {name} tag"

def requireMultiValueKeyPackageTagContains (required : String) : Checked Unit :=
  requireTagValue event name
    (fun value => value.toList.map Char.toLower = required.toList.map Char.toLower)
    s!"{name} tag missing required value {required}"

def nonemptyTag : Checked String :=
  match (tagValue event.tags name).filter (· ≠ "") with
  | some value => return value
  | none => throw (invalidKeyPackageEvent s!"missing {name} tag")

end Checks

variable (codec : KeyPackageCodec)

def keyPackageEventIdFromHex (eventIdHex : String) : Checked Bytes := do
  let bytes ← (codec.decodeHex eventIdHex).mapError hex
  if bytes.length ≠ 32 then
    throw (invalidKeyPackageEvent s!"KeyPackage event id must be 32 bytes, got {bytes.length}")
  return bytes

def keyPackageFromRecord (record : RelayEventRecord) : Checked FetchedKeyPackage := do
  let event := record.event
  requireKeyPackageTag event "mls_protocol_version" (· = "1.0")
  let keyPackageId ← nonemptyTag event "d"
  let keyPackageRef ← nonemptyTag event "i"
  requireKeyPackageTag event "mls_ciphersuite" (· ≠ "")
  requireMultiValueKeyPackageTag event "mls_extensions"
  requireMultiValueKeyPackageTagContains event "mls_extensions" "0xf2f1"
  requireMultiValueKeyPackageTag event "mls_proposals"
  requireMultiValueKeyPackageTag event "app_components"
  let keyPackage ← (codec.decodeBase64 event.content).mapError fun reason =>
    invalidKeyPackageEvent s!"invalid base64 content: {reason}"
  if keyPackage.isEmpty then
    throw (invalidKeyPackageEvent "empty key package content")
  let sourceEventId ← keyPackageEventIdFromHex codec event.id
  let metadata ← (codec.keyPackageMetadata keyPackage).mapError invalidKeyPackageEvent
  if metadata.credentialIdentityHex ≠ event.pubkey then
    throw (invalidKeyPackageEvent
      "transport author does not match KeyPackage credential identity")
  if metadata.keyPackageRefHex ≠ keyPackageRef then
    throw (invalidKeyPackageEvent "i tag does not match decoded KeyPackageRef")
  return {
    accountIdHex := event.pubkey
    keyPackage := keyPackage
    sourceEventId := sourceEventId
    keyPackageId := keyPackageId
    keyPackageRefHex := metadata.keyPackageRefHex
    keyPackageEventId := event.id
    createdAt := event.createdAt
    sourceRelays := record.endpoints.reverse.dedup.reverse }

/-! ### The selection -/

inductive KeyPackageFailure
  | missingKeyPackage (account : String)
  | malformed (error : KeyPackageError)
deriving DecidableEq, Repr

structure DirectorySelection where
  value : Option FetchedKeyPackage
  rejectedFuture : Bool

def kindMarmotKeyPackage : Nat := 30443

def compareRecords : RelayEventRecord → RelayEventRecord → Ordering :=
  compareLex (compareOn (·.event.createdAt)) (compareOn (·.event.id))

instance transCmp_compareRecords : TransCmp compareRecords :=
  inferInstanceAs (TransCmp (compareLex _ _))

/-- The account, and the latest time its records may have. -/
structure KeyPackageQuery where
  codec : KeyPackageCodec
  account : String
  maxCreatedAt : Nat

namespace KeyPackageQuery

variable (query : KeyPackageQuery) (records : List RelayEventRecord)

def isOwn (record : RelayEventRecord) : Bool :=
  record.event.kind = kindMarmotKeyPackage && record.event.pubkey = query.account

def accepts (record : RelayEventRecord) : Bool := record.event.createdAt ≤ query.maxCreatedAt

def check (record : RelayEventRecord) : Checked FetchedKeyPackage :=
  keyPackageFromRecord query.codec record

/-- The loop over the sorted records. -/
def latestOf (latest : Option FetchedKeyPackage) :
    List RelayEventRecord → Checked (Option FetchedKeyPackage)
  | [] => return latest
  | record :: rest => do
    if query.isOwn record then
      latestOf (some (← query.check record)) rest
    else
      latestOf latest rest

def latestKeyPackageFromRecords : Checked (Option FetchedKeyPackage) :=
  query.latestOf none (sortBy compareRecords records)

def retainedRecords : List RelayEventRecord :=
  records.filter fun record => !query.isOwn record || query.accepts record

/-- Without a key package, which is no error here, the value is none. -/
def latestFreshKeyPackageFromRecords : Checked DirectorySelection := do
  let value ← query.latestKeyPackageFromRecords (query.retainedRecords records)
  return ⟨value, records.any fun record => query.isOwn record && !query.accepts record⟩

/-- The cached package, where there is one that passes its own checks, is used only when a record was
dated too far ahead. -/
def freshOrCachedKeyPackage (selection : DirectorySelection)
    (cached : Checked (Option FetchedKeyPackage)) :
    Except KeyPackageFailure FetchedKeyPackage :=
  match selection.value with
  | some fetched => .ok fetched
  | none =>
    if selection.rejectedFuture then
      match cached with
      | .error error => .error (.malformed error)
      | .ok (some fetched) => .ok fetched
      | .ok none => .error (.missingKeyPackage query.account)
    else
      .error (.missingKeyPackage query.account)

def selectKeyPackage (cached : Checked (Option FetchedKeyPackage)) :
    Except KeyPackageFailure FetchedKeyPackage :=
  match query.latestFreshKeyPackageFromRecords records with
  | .ok selection => query.freshOrCachedKeyPackage selection cached
  | .error error => .error (.malformed error)

/-! ### The newest usable record -/

/-- A key package of the account that is fresh and passes the checks. -/
def isUsable (record : RelayEventRecord) : Bool :=
  query.isOwn record && query.accepts record && (query.check record).isOk

/-- The usable records by time and id. -/
def usableRecords : List RelayEventRecord :=
  sortBy compareRecords (records.filter query.isUsable)

/-- **What the selection is for**: the package of the newest usable record, whatever the others
are. -/
def newestKeyPackage : Except KeyPackageFailure FetchedKeyPackage :=
  match (query.usableRecords records).getLast? with
  | some record => (query.check record).mapError .malformed
  | none => .error (.missingKeyPackage query.account)

/-- **The loop** ends with the last package of the account, or with the error of a malformed one. -/
theorem latestOf_cases (latest : Option FetchedKeyPackage) :
    (∀ record ∈ records, query.isOwn record → (query.check record).isOk) ∧
        query.latestOf latest records =
          .ok (((records.filter query.isOwn).getLast?.map fun record =>
            (query.check record).toOption).getD latest) ∨
      (∃ record ∈ records, query.isOwn record ∧ (query.check record).isOk = false) ∧
        ∃ error, query.latestOf latest records = .error error := by
  induction records generalizing latest with
  | nil => exact Or.inl ⟨by simp, rfl⟩
  | cons record rest ih =>
    rw [latestOf, filter_cons]
    by_cases own : query.isOwn record
    swap
    · rw [if_neg own, if_neg own]
      refine (ih latest).imp (And.imp_left fun all => ?_) (And.imp_left ?_)
      · exact forall_mem_cons.mpr ⟨fun mine => absurd mine own, all⟩
      · exact fun malformed => exists_mem_cons_of_exists malformed
    rw [if_pos own, if_pos own]
    cases checked : query.check record with
    | error error =>
      exact Or.inr ⟨⟨record, mem_cons_self, own, by rw [checked]; rfl⟩, error, rfl⟩
    | ok package =>
      refine (ih (some package)).imp (fun passes => ⟨?_, passes.2.trans ?_⟩) (And.imp_left ?_)
      · exact forall_mem_cons.mpr ⟨fun _ => by rw [checked]; rfl, passes.1⟩
      · exact fun malformed => exists_mem_cons_of_exists malformed
      · rw [getLast?_cons]
        cases (rest.filter query.isOwn).getLast? <;> simp [checked, Except.toOption]

/-- **The selection** has the last usable record, unless a fresh record is malformed. -/
theorem latestFresh_cases :
    (∀ record ∈ records, query.isOwn record → query.accepts record → (query.check record).isOk) ∧
        query.latestFreshKeyPackageFromRecords records =
          .ok ⟨((query.usableRecords records).getLast?.map fun record =>
            (query.check record).toOption).getD none,
              records.any fun record => query.isOwn record && !query.accepts record⟩ ∨
      (∃ record ∈ records, query.isOwn record ∧ query.accepts record ∧
          (query.check record).isOk = false) ∧
        ∃ error, query.latestFreshKeyPackageFromRecords records = .error error := by
  rw [latestFreshKeyPackageFromRecords, latestKeyPackageFromRecords]
  rcases query.latestOf_cases (sortBy compareRecords (query.retainedRecords records)) none with
    ⟨all, loop⟩ | ⟨⟨record, listed, own, malformed⟩, error, loop⟩
  · have clean (record : RelayEventRecord) (listed : record ∈ records) (own : query.isOwn record)
        (fresh : query.accepts record) : (query.check record).isOk :=
      all record (mem_sortBy.mpr (mem_filter.mpr ⟨listed, by simp [fresh]⟩)) own
    have usable : (sortBy compareRecords (query.retainedRecords records)).filter query.isOwn =
        query.usableRecords records := by
      rw [filter_sortBy, retainedRecords, filter_filter, usableRecords]
      refine congrArg _ (filter_congr fun record listed => ?_)
      have valid := clean record listed
      rw [isUsable]
      cases own : query.isOwn record <;> cases fresh : query.accepts record <;> simp_all
    rw [loop, usable]
    exact Or.inl ⟨clean, rfl⟩
  · obtain ⟨listed, kept⟩ := mem_filter.mp (mem_sortBy.mp listed)
    rw [loop]
    exact Or.inr ⟨⟨record, listed, own, by simpa [own] using kept, malformed⟩, error, rfl⟩

theorem newest_cases :
    (∃ record ∈ records, query.isUsable record ∧ ∃ package, query.check record = .ok package ∧
        (query.usableRecords records).getLast? = some record ∧
        query.newestKeyPackage records = .ok package) ∨
      (∀ record ∈ records, ¬ query.isUsable record) ∧
        (query.usableRecords records).getLast? = none ∧
        query.newestKeyPackage records = .error (.missingKeyPackage query.account) := by
  have member (record : RelayEventRecord) :
      record ∈ query.usableRecords records ↔ record ∈ records ∧ query.isUsable record := by
    rw [usableRecords, mem_sortBy, mem_filter]
  rw [newestKeyPackage]
  cases last : (query.usableRecords records).getLast? with
  | none =>
    refine Or.inr ⟨fun record listed usable => ?_, rfl, rfl⟩
    have here := (member record).mpr ⟨listed, usable⟩
    rw [getLast?_eq_none_iff.mp last] at here
    cases here
  | some record =>
    obtain ⟨listed, usable⟩ := (member record).mp (mem_of_getLast? last)
    have passes := (Bool.and_eq_true_iff.mp usable).2
    cases checked : query.check record with
    | error =>
      rw [checked] at passes
      cases passes
    | ok package =>
      exact Or.inl ⟨record, listed, usable, package, checked, rfl, by simp only [checked]; rfl⟩

/-- **When the newest usable key package is selected**: as long as no fresh record of the account is
malformed, and, where none is usable, none is dated too far ahead or nothing is cached. Other records
never matter. -/
theorem newest_selected_iff (cached : Checked (Option FetchedKeyPackage)) :
    (query.selectKeyPackage records cached = query.newestKeyPackage records ↔
        (∀ record ∈ records, query.isOwn record → query.accepts record →
          (query.check record).isOk) ∧
        ((∀ record ∈ records, ¬ query.isUsable record) →
          (∃ record ∈ records, query.isOwn record ∧ ¬ query.accepts record) → cached = .ok none)) ∧
      ∀ before record after, records = before ++ record :: after → ¬ query.isUsable record →
        query.newestKeyPackage records = query.newestKeyPackage (before ++ after) := by
  refine ⟨?_, ?_⟩
  · rw [selectKeyPackage]
    rcases query.latestFresh_cases records with
      ⟨clean, selected⟩ | ⟨⟨record, listed, own, fresh, malformed⟩, error, failed⟩ <;>
    rcases query.newest_cases records with
      ⟨newer, isListed, usable, package, checked, last, newest⟩ | ⟨none, last, newest⟩
    · rw [selected, last, newest]
      refine iff_of_true ?_ ⟨clean, fun none => absurd usable (none newer isListed)⟩
      simp only [Option.map_some, Option.getD_some, checked]
      rfl
    · rw [selected, last, newest, and_iff_right clean, imp_iff_right none]
      dsimp only [freshOrCachedKeyPackage, Option.map_none, Option.getD_none]
      by_cases rejected : ∃ record ∈ records, query.isOwn record ∧ ¬ query.accepts record
      · rw [if_pos (by simpa using rejected), imp_iff_right rejected]
        rcases cached with error | (_ | package) <;> simp
      · rw [if_neg (by simpa using rejected)]
        exact iff_of_true rfl fun some => absurd some rejected
    all_goals
      rw [failed, newest]
      refine iff_of_false (by simp) fun clean => ?_
      have valid := clean.1 record listed own fresh
      rw [malformed] at valid
      cases valid
  · rintro before record after rfl unusable
    rw [newestKeyPackage, newestKeyPackage, usableRecords, usableRecords, filter_append,
      filter_append, filter_cons_of_neg unusable]

end KeyPackageQuery

/-! ### One malformed record -/

def sampleQuery : KeyPackageQuery where
  codec := ⟨fun _ => .ok (replicate 32 0), fun _ => .ok [1], fun _ => .ok ⟨"account", "ref"⟩⟩
  account := "account"
  maxCreatedAt := 10

def sampleTags : List (List String) :=
  [["mls_protocol_version", "1.0"], ["d", "slot"], ["i", "ref"], ["mls_ciphersuite", "0x0001"],
    ["mls_extensions", "0xf2f1"], ["mls_proposals", "0x000a"], ["app_components", "0x8000"]]

def sampleRecord (createdAt : Nat) (tags : List (List String)) : RelayEventRecord :=
  ⟨[], "id", "account", createdAt, kindMarmotKeyPackage, tags, ""⟩

def cachedPackage : FetchedKeyPackage := ⟨"account", [2], [], "slot", "ref", "", 0, []⟩

/-- **An older malformed record hides a valid one**, and a record that is dated too far ahead brings
back the cached package. -/
theorem malformed_record_hides_newer :
    (sampleQuery.selectKeyPackage [sampleRecord 2 sampleTags] (.ok none)).isOk ∧
      sampleQuery.selectKeyPackage [sampleRecord 1 [], sampleRecord 2 sampleTags] (.ok none) =
        .error (.malformed (.invalidKeyPackageEvent "missing mls_protocol_version tag")) ∧
      sampleQuery.selectKeyPackage [] (.ok (some cachedPackage)) =
        .error (.missingKeyPackage "account") ∧
      sampleQuery.selectKeyPackage [sampleRecord 11 sampleTags] (.ok (some cachedPackage)) =
        .ok cachedPackage := by
  decide +kernel

end Darkmatter
