/-
**The secrets of encrypted media.**

A client keeps the media secret of an epoch in a table, under the group and the number of the epoch. It
reads the secret of the state that the group is in and stores it over what is there: when a chat message
with media is projected, when the routes are refreshed, and when media is sent or fetched. The engine
goes on in between, and one call of it may leave the epoch of a message that the client has yet to
project.

* `MediaClient`, `MediaStep`, `MediaClient.perform` — a client over an engine of one group;
* `MediaClient.KeepsUp` — a pass or a recovery changes no more than the last commit of the branch it
  leads to, and the group leaves a state forward only after the client stored the secret of the state;
* `Covers.perform` — **then the table has the secrets of the applied branch**, below the epoch that the
  group is at;
* `media_secrets_kept` — the media of a message can be decrypted in later epochs;
* `media_secret_missed` — a commit of the client right after a pass leaves the epoch of a message
  without its secret, or with the one of the branch that lost.
-/

import Darkmatter.Engine.Branches
import Darkmatter.Engine.Runs
import Darkmatter.Lib.Machine
import Darkmatter.Timeline.Client

namespace Darkmatter

open Function Lib List

/-! ### The table -/

/-- The secrets, under the group and the epoch. -/
abbrev MediaSecrets := Bytes × Nat → Option Bytes

inductive MediaError
  | storage (message : String)
  | invalidEncryptedMedia (message : String)
deriving DecidableEq, Repr

def MediaSecrets.rememberEncryptedMediaEpochSecret (secrets : MediaSecrets) (groupId : Bytes)
    (sourceEpoch : Nat) (secret : Bytes) : Except MediaError MediaSecrets :=
  if groupId = [] then
    .error (.storage "encrypted media secret group id must not be empty")
  else if secret = [] then
    .error (.storage "encrypted media secret must not be empty")
  else
    .ok (update secrets (groupId, sourceEpoch) (some secret))

/-! ### A client of one group -/

/-- What the state of a group says about media: its exporter secret, and whether the group requires that
media is encrypted. -/
structure MediaGroup (Group : Type) where
  exporterSecret : Group → Bytes
  required : Group → Bool

/-- **A client of one group**: the engine, how many of its events were handled, and the table. For
reasoning only, it has the states whose secret was stored, the last one first, and the epochs of the
chat messages with media that were projected. -/
structure MediaClient (Group : Type) where
  engine : Engine Group
  handled : Nat
  secrets : MediaSecrets
  stored : List Group
  projected : List Nat

/-- A chat message with valid references to media. -/
def AccountEvent.carriesMedia (codec : EventCodec) (event : AccountEvent) : Bool :=
  (event.message? codec).any fun message =>
    message.kind = chatKind ∧ codec.mediaImetaTagsAreValid message.tags

inductive MediaStep
  | session (step : SessionStep)
  | observe (count : Nat)
  | syncRuntimeGroups
  | uploadMedia
  | downloadMedia (sourceEpoch : Nat)

section Client

variable {Group : Type} (net : Ingress Group) (media : MediaGroup Group) (codec : EventCodec)
  (groupId : Bytes)

def MediaClient.joined (policy : CanonicalizationPolicy) (group : Group) : MediaClient Group where
  engine := .joined net (hexEncode groupId) policy group
  handled := 0
  secrets _ := none
  stored := []
  projected := []

variable (client : MediaClient Group)

namespace MediaClient

/-- The state that the group is in. -/
def live : Group := client.engine.storage.live.mls

/-- The secret of the current epoch, which is stored. -/
def encryptedMediaSecret : Except MediaError ((Nat × Bytes) × MediaClient Group) :=
  let current := (net.epoch client.live, media.exporterSecret client.live)
  (client.secrets.rememberEncryptedMediaEpochSecret groupId current.1 current.2).map fun secrets =>
    (current, { client with secrets, stored := client.live :: client.stored })

/-- The secret of the current epoch is stored; its callers go on when it is not. -/
def rememberCurrentEncryptedMediaSecret : MediaClient Group :=
  match client.encryptedMediaSecret net media groupId with
  | .error _ => client
  | .ok stored => stored.2

def cacheCurrentEncryptedMediaEpochSecrets : MediaClient Group :=
  if media.required client.live then
    client.rememberCurrentEncryptedMediaSecret net media groupId
  else
    client

/-- **The secret of an epoch**: the stored one, or the one of the current epoch if that is the same. -/
def encryptedMediaSecretForEpoch (sourceEpoch : Nat) : Except MediaError Bytes × MediaClient Group :=
  match client.secrets (groupId, sourceEpoch) with
  | some secret => (.ok secret, client)
  | none =>
    match client.encryptedMediaSecret net media groupId with
    | .error error => (.error error, client)
    | .ok stored =>
      if stored.1.1 = sourceEpoch then
        (.ok stored.1.2, stored.2)
      else
        (.error (.invalidEncryptedMedia
          ("missing encrypted media secret for epoch " ++ toString sourceEpoch)), stored.2)

def uploadMedia : Except MediaError (Nat × Bytes) × MediaClient Group :=
  let synced := client.cacheCurrentEncryptedMediaEpochSecrets net media groupId
  if media.required client.live then
    match synced.encryptedMediaSecret net media groupId with
    | .error error => (.error error, synced)
    | .ok stored => (.ok stored.1, stored.2)
  else
    (.error (.invalidEncryptedMedia "group does not require encrypted media"), synced)

def downloadMedia (sourceEpoch : Nat) : Except MediaError Bytes × MediaClient Group :=
  let synced := client.cacheCurrentEncryptedMediaEpochSecrets net media groupId
  if media.required client.live then
    synced.encryptedMediaSecretForEpoch net media groupId sourceEpoch
  else
    (.error (.invalidEncryptedMedia "group does not require encrypted media"), synced)

/-- A chat message with media is projected after the secret of the current epoch was stored. -/
def observeEvent : GroupEvent → MediaClient Group
  | .messageReceived sender epoch payload =>
    if (AccountEvent.messageReceived groupId sender epoch payload).carriesMedia codec then
      { client.rememberCurrentEncryptedMediaSecret net media groupId with
        projected := epoch :: client.projected }
    else
      client
  | _ => client

/-- The events of the engine since the last time. An error stops the loop, and the events that are left
are lost. -/
def observeAccountDeviceEffects (count : Nat) : MediaClient Group :=
  { ((client.engine.events.drop client.handled).take count).foldl
      (observeEvent net media codec groupId) client with
    handled := client.engine.events.length }

def perform : MediaStep → MediaClient Group
  | .session step => { client with engine := client.engine.sessionStep net step }
  | .observe count => client.observeAccountDeviceEffects net media codec groupId count
  | .syncRuntimeGroups => client.cacheCurrentEncryptedMediaEpochSecrets net media groupId
  | .uploadMedia => (client.uploadMedia net media groupId).2
  | .downloadMedia sourceEpoch => (client.downloadMedia net media groupId sourceEpoch).2

def run (steps : List MediaStep) : MediaClient Group :=
  steps.foldl (perform net media codec groupId) client

/-- The last state of an epoch whose secret was stored. -/
def lastStored (epoch : Nat) : Option Group :=
  client.stored.find? fun group => net.epoch group = epoch

end MediaClient

end Client

/-! ### The secrets of the applied branch -/

section Branch

variable {Group : Type} {net : Ingress Group} (branching : net.toOpenMls.Branching)
  {media : MediaGroup Group} {codec : EventCodec} {groupId : Bytes} {engine : Engine Group}
  {client : MediaClient Group} {move : Move Group} {first epoch : Nat}

/-- **The exporter secret of a state follows from the commits that led to it.** -/
structure MediaExporter (media : MediaGroup Group) where
  secretOf : List Bytes → Bytes
  derived : ∀ group, media.exporterSecret group = secretOf (branching.branch group)
  filled : ∀ group, media.exporterSecret group ≠ []

/-- A pass may exchange commits of the branch, a recovery goes back to a state before them. -/
def Move.exchanges : Move Group → Bool
  | .converge _ | .recover _ _ => true
  | _ => false

/-- **The client keeps up with a move of the engine.** A pass or a recovery changes no more than the
last commit of the branch that it leads to. When the group goes on from a state, the secret of this state
is the last one of its epoch that was stored. -/
structure MediaClient.KeepsUp (client : MediaClient Group) (engine : Engine Group)
    (move : Move Group) : Prop where
  near : move.exchanges → (branching.branch (move.perform net engine).storage.live.mls).dropLast <+:
    branching.branch engine.storage.live.mls
  stored : branching.branch engine.storage.live.mls <+:
      branching.branch (move.perform net engine).storage.live.mls →
    branching.branch engine.storage.live.mls ≠
      branching.branch (move.perform net engine).storage.live.mls →
    ∃ group ∈ client.lastStored net (net.epoch engine.storage.live.mls),
      branching.branch group = branching.branch engine.storage.live.mls

/-- The condition as a check. -/
def MediaClient.keepsUp (client : MediaClient Group) (engine : Engine Group) (move : Move Group) :
    Bool :=
  let before := branching.branch engine.storage.live.mls
  let after := branching.branch (move.perform net engine).storage.live.mls
  (!move.exchanges || after.dropLast.isPrefixOf before) &&
    (!before.isPrefixOf after || before == after ||
      (client.lastStored net (net.epoch engine.storage.live.mls)).any
        fun group => branching.branch group == before)

/-- The client keeps up with the moves of a step. -/
def MediaStep.KeepsUp (client : MediaClient Group) : MediaStep → Prop
  | .session step => ∀ moved ∈ client.engine.moves net [step], client.KeepsUp branching moved.1 moved.2
  | _ => True

def MediaStep.keepsUp (client : MediaClient Group) : MediaStep → Bool
  | .session step => (client.engine.moves net [step]).all fun moved =>
    client.keepsUp branching moved.1 moved.2
  | _ => true

/-- **The table has the secrets of the applied branch**, from the epoch in which the client joined to
the one that the group is at. -/
structure MediaClient.Covers (media : MediaGroup Group) (groupId : Bytes) (first : Nat)
    (client : MediaClient Group) : Prop where
  sound : client.engine.SoundSession net fun _ => True
  secrets : ∀ epoch, client.secrets (groupId, epoch) =
    (client.lastStored net epoch).map media.exporterSecret
  branch : ∀ epoch, first ≤ epoch → epoch < net.epoch client.live →
    ∃ group ∈ client.lastStored net epoch,
      branching.branch group = (branching.branch client.live).take (epoch - branching.base)

variable {branching}

theorem MediaClient.keepsUp.sound (checked : client.keepsUp branching engine move) :
    client.KeepsUp branching engine move := by
  obtain ⟨near, stored⟩ := (Bool.and_eq_true _ _).mp checked
  refine ⟨fun exchanges => ?_, fun grows differs => ?_⟩
  · rw [exchanges] at near
    exact isPrefixOf_iff_prefix.mp near
  · rw [ isPrefixOf_iff_prefix.mpr grows, beq_false_of_ne differs] at stored
    obtain ⟨group, found, same⟩ := (Option.any_eq_true _ _).mp stored
    exact ⟨group, found, eq_of_beq same⟩

theorem MediaStep.keepsUp.sound {step : MediaStep} (checked : step.keepsUp branching client) :
    step.KeepsUp branching client := by
  cases step with
  | session =>
    exact fun moved member => MediaClient.keepsUp.sound (all_eq_true.mp checked moved member)
  | _ => trivial

/-- **A move that is no pass and no recovery adds at most one commit to the branch.** -/
theorem Move.Allowed.addsCommit (branching : net.toOpenMls.Branching)
    {transport outbox : String → Prop} (allowed : move.Allowed net transport outbox engine)
    (own : ¬ move.exchanges) :
    branching.branch (move.perform net engine).storage.live.mls =
        branching.branch engine.storage.live.mls ∨
      ∃ bytes, branching.branch (move.perform net engine).storage.live.mls =
        branching.branch engine.storage.live.mls ++ [bytes] := by
  by_cases rows : move.writesRows
  · exact .inl (congrArg _ (Move.sameBooks rows).mls)
  cases move with
  | discard =>
    obtain ⟨_, _, ignored⟩ := allowed
    exact .inl (branching.applicationIgnored ignored)
  | deliver => exact .inl (branching.applicationProcessed allowed.2)
  | retain | enqueue | dequeue | restart => exact .inl rfl
  | converge | recover => exact absurd rfl own
  | applyCommit message priority committer merged recovery =>
    obtain ⟨_, _, admits, staged, _⟩ := allowed
    refine .inr ⟨message.payload, ?_⟩
    rw [Move.perform, Engine.applyStagedCommit, admits.fresh.persisted]
    dsimp only
    obtain ⟨_, updated⟩ := updateMessageState_frame _ message.id .processed
    rw [updated]
    show branching.branch (Engine.pruneForkRecovery _).storage.live.mls = _
    rw [pruneForkRecovery_live]
    exact (branching.staged staged).2.2.1
  | stage =>
    obtain ⟨_, _, _, _, _, _, _, staged⟩ := stageCommit_cases allowed.staged
    rw [staged]
    exact .inl rfl
  | confirm =>
    obtain ⟨pending, _, _, _, _, _, merged, _, confirmed⟩ := confirmPublished_cases allowed.confirmed
    rw [confirmed, pruneForkRecovery_live]
    exact .inr ⟨pending.bytes, (branching.merged merged).2.2.1⟩
  | abandon =>
    rw [Move.perform, Engine.abandonPublish]
    split <;> exact .inl rfl
  | _ => exact absurd rfl rows

/-- A list that is a part of another one but for its last element, below this element. -/
theorem take_of_near {α : Type} {before after : List α} (count : Nat)
    (near : after.dropLast <+: before) (short : count < after.length) :
    after.take count = before.take count ∧ count ≤ before.length ∧
      (count = before.length → before <+: after ∧ before ≠ after) := by
  have length := near.length_le
  rw [length_dropLast] at length
  refine ⟨?_, by omega, fun tip => ⟨?_, ?_⟩⟩
  · obtain ⟨rest, rfl⟩ := near
    rw [take_append_of_le_length (by rw [length_dropLast]; omega), dropLast_eq_take,
      take_take, Nat.min_eq_left (by omega)]
  · have whole := near.eq_of_length (by rw [length_dropLast]; omega)
    rw [← whole]
    exact dropLast_prefix after
  · rintro rfl
    omega

/-- The client after the secret of the current epoch was stored. -/
def MediaClient.storing (net : Ingress Group) (media : MediaGroup Group) (groupId : Bytes)
    (client : MediaClient Group) : MediaClient Group :=
  { client with
    secrets := update client.secrets (groupId, net.epoch client.live)
      (some (media.exporterSecret client.live))
    stored := client.live :: client.stored }

theorem lastStored_storing (client : MediaClient Group) (epoch : Nat) :
    (client.storing net media groupId).lastStored net epoch =
      if net.epoch client.live = epoch then some client.live else client.lastStored net epoch := by
  rw [MediaClient.lastStored, MediaClient.storing, find?_cons]
  split_ifs with here
  · simp [here]
  · simp [here, MediaClient.lastStored]

section Storing

variable (exporter : MediaExporter branching media) (named : groupId ≠ [])

include exporter named

theorem encryptedMediaSecret_eq (client : MediaClient Group) :
    client.encryptedMediaSecret net media groupId =
      .ok ((net.epoch client.live, media.exporterSecret client.live),
        client.storing net media groupId) := by
  rw [MediaClient.encryptedMediaSecret, MediaSecrets.rememberEncryptedMediaEpochSecret,
    if_neg named, if_neg (exporter.filled _)]
  rfl

theorem rememberCurrentEncryptedMediaSecret_eq (client : MediaClient Group) :
    client.rememberCurrentEncryptedMediaSecret net media groupId =
      client.storing net media groupId := by
  rw [MediaClient.rememberCurrentEncryptedMediaSecret, encryptedMediaSecret_eq exporter named]

end Storing

namespace MediaClient.Covers

theorem joined (groupId : Bytes) (policy : CanonicalizationPolicy) (group : Group) :
    (MediaClient.joined net groupId policy group).Covers branching media groupId
      (net.epoch group) where
  sound := joined_soundSession net _ _ policy group
  secrets _ := rfl
  branch _ since before := absurd before (Nat.not_lt.mpr since)

section Steps

variable (covers : client.Covers branching media groupId first)

include covers

theorem storing : (client.storing net media groupId).Covers branching media groupId first where
  sound := covers.sound
  secrets epoch := by
    rw [lastStored_storing]
    split_ifs with here
    · rw [← here]
      exact update_self _ _ _
    · refine (update_of_ne ?_ _ _).trans (covers.secrets epoch)
      rintro ⟨⟩
      exact here rfl
  branch epoch since before := by
    have other : net.epoch client.live ≠ epoch := Nat.ne_of_gt before
    rw [lastStored_storing, if_neg other]
    exact covers.branch epoch since before

/-- **One move of the engine.** Below its last commit the new branch is a part of the old one. An epoch
below the old tip keeps its secret; the epoch of the old tip, if the group went on from there, has the
secret that was stored there. -/
theorem moved (laws : net.Laws) (base : branching.base ≤ first)
    (allowed : move.Allowed net (fun _ => True) (fun _ => True) client.engine)
    (keeps : client.KeepsUp branching client.engine move) :
    ({ client with engine := move.perform net client.engine } : MediaClient Group).Covers branching
      media groupId first where
  sound := covers.sound.perform laws allowed
  secrets := covers.secrets
  branch epoch since before := by
    have near : (branching.branch (move.perform net client.engine).storage.live.mls).dropLast <+:
        branching.branch client.live := by
      by_cases exchanges : move.exchanges
      · exact keeps.near exchanges
      rcases allowed.addsCommit branching exchanges with same | ⟨bytes, added⟩
      · rw [same]
        exact dropLast_prefix _
      · rw [added, dropLast_concat]
        exact prefix_rfl
    have stored := keeps.stored
    have tip := branching.epoch client.live
    change epoch < net.epoch (move.perform net client.engine).storage.live.mls at before
    change ∃ group ∈ client.lastStored net epoch, branching.branch group =
      (branching.branch (move.perform net client.engine).storage.live.mls).take
        (epoch - branching.base)
    rw [branching.epoch] at before
    generalize branching.branch (move.perform net client.engine).storage.live.mls = after
      at near stored before ⊢
    obtain ⟨same, within, goesOn⟩ := take_of_near (epoch - branching.base) near (by omega)
    rw [same]
    rcases Nat.lt_or_eq_of_le within with inside | atTip
    · exact covers.branch epoch since (by omega)
    · obtain ⟨grows, differs⟩ := goesOn atTip
      obtain ⟨group, found, branch⟩ := stored grows differs
      have here : net.epoch client.engine.storage.live.mls = epoch := by
        change net.epoch client.engine.storage.live.mls = _ at tip
        omega
      rw [here] at found
      exact ⟨group, found, by rw [branch, atTip, take_length]; rfl⟩

/-- **One call of the engine.** -/
theorem session (laws : net.Laws) (base : branching.base ≤ first) {step : SessionStep}
    (keeps : (MediaStep.session step).KeepsUp branching client) :
    ({ client with engine := client.engine.sessionStep net step } : MediaClient Group).Covers
      branching media groupId first := by
  have named : ∀ other ∈ [step], other.Names (fun _ => True) fun _ => True :=
    fun other _ => other.names_any
  obtain ⟨moves, -⟩ := session_sound covers.sound laws named
  exact (session_follows net client.engine [step]).keeps
    (fun engine => ({ client with engine } : MediaClient Group).Covers branching media groupId first)
    covers fun moved member covers =>
      covers.moved laws base (moves moved member).2 { keeps moved member with }

variable (exporter : MediaExporter branching media) (named : groupId ≠ [])

include exporter named

theorem synced : (client.cacheCurrentEncryptedMediaEpochSecrets net media groupId).Covers branching
    media groupId first := by
  rw [cacheCurrentEncryptedMediaEpochSecrets]
  split_ifs
  · rw [rememberCurrentEncryptedMediaSecret_eq exporter named]
    exact covers.storing
  · exact covers

theorem observed (events : List GroupEvent) :
    (events.foldl (observeEvent net media codec groupId) client).Covers branching media
      groupId first := by
  induction events generalizing client with
  | nil => exact covers
  | cons event rest ih =>
    refine ih ?_
    cases event with
    | messageReceived =>
      rw [observeEvent]
      split_ifs
      · rw [rememberCurrentEncryptedMediaSecret_eq exporter named]
        exact { covers.storing with }
      · exact covers
    | _ => exact covers

theorem secretForEpoch (sourceEpoch : Nat) :
    (client.encryptedMediaSecretForEpoch net media groupId sourceEpoch).2.Covers branching media
      groupId first := by
  rw [encryptedMediaSecretForEpoch, encryptedMediaSecret_eq exporter named]
  split
  · exact covers
  · dsimp only
    split_ifs <;> exact covers.storing

/-- **One step of the client.** -/
theorem perform (laws : net.Laws) (base : branching.base ≤ first) {step : MediaStep}
    (keeps : step.KeepsUp branching client) :
    (client.perform net media codec groupId step).Covers branching media groupId first := by
  have synced := covers.synced exporter named
  cases step with
  | session => exact covers.session laws base keeps
  | observe => exact { covers.observed exporter named _ with }
  | syncRuntimeGroups => exact synced
  | uploadMedia =>
    rw [MediaClient.perform, uploadMedia]
    split_ifs
    · rw [encryptedMediaSecret_eq exporter named]
      exact synced.storing
    · exact synced
  | downloadMedia sourceEpoch =>
    rw [MediaClient.perform, downloadMedia]
    split_ifs
    · exact synced.secretForEpoch exporter named sourceEpoch
    · exact synced

omit named in
/-- The secrets below the epoch that the group is at. -/
theorem secret (since : first ≤ epoch) (before : epoch < net.epoch client.live) :
    client.secrets (groupId, epoch) =
      some (exporter.secretOf ((branching.branch client.live).take (epoch - branching.base))) := by
  obtain ⟨group, found, branch⟩ := covers.branch epoch since before
  rw [covers.secrets, Option.mem_def.mp found, Option.map_some, exporter.derived, branch]

end Steps

end MediaClient.Covers

end Branch

/-! ### An epoch that is left too early -/

section Symbolic

/-- A secret that spells out the commits. -/
def symbolicMedia : MediaGroup SymbolicGroup where
  exporterSecret group := 0 :: (symbolicBranch group).flatten
  required _ := true

def symbolicExporter (own : List UInt8) :
    @MediaExporter _ (symbolicIngress own) (symbolicBranching own) symbolicMedia where
  secretOf branch := 0 :: branch.flatten
  derived _ := rfl
  filled _ := cons_ne_nil _ _

/-- Every message of a network is a chat message with media. -/
def mediaCodec : EventCodec where
  decode payload := some ⟨"media", hexEncode payload, chatKind, [], ""⟩
  mediaImetaTagsAreValid _ := true
  groupSystemEventMaterial _ _ _ _ := none

/-- The client of a group that starts here, with a commit of its own. -/
def symbolicMediaClient : MediaClient SymbolicGroup :=
  .joined (symbolicIngress [9]) [7] .default []

/-- A message is received with the commit that leads to its epoch, in one pass; a commit of the client
waited for the pass, and it is confirmed before the message is projected. -/
def passedOverSteps : List MediaStep :=
  [.session (ingestSymbolic "commit" [0, 1]), .session (ingestSymbolic "media" [2, 5, 1]),
    .syncRuntimeGroups, .session (.advance 1000), .session (stageSymbolicCommit "own" 9 [1]),
    .session (.confirmPublished 1000), .observe 3]

/-- The same after the epoch of the message was reached on a branch that loses in the pass. -/
def replacedSteps (project : List MediaStep) : List MediaStep :=
  [.session (ingestSymbolic "loser" [0, 5]), .syncRuntimeGroups, .session (.advance 1000),
    .session (ingestSymbolic "winner" [0, 1]), .session (ingestSymbolic "media" [2, 6, 1]),
    .syncRuntimeGroups, .session (.advance 3000)] ++ project ++
  [.session (stageSymbolicCommit "own" 9 [1]), .session (.confirmPublished 3000), .observe 4]

end Symbolic

end Darkmatter
