/-
**Whether anchors lie on the applied branch.**

A pass that rewinds writes the anchors of the epoch it leaves from and of the tip it reaches. Anchors
that the abandoned branch left in between stay as they are:

* `OnBranch.step` — a step keeps the anchors on the applied branch when the old and the new branch
  agree up to every tip that is still kept;
* `Replays.step` — commits and proposals lead from every anchor to the later ones and to the live group;
* `anchors_canonical` — **in runs that never abandon a tip but by another one of the same epoch, every
  anchor holds what the applied branch had at its epoch**, and the applied commits replay from it with
  the proposals they consume.
-/

import Darkmatter.Engine.Anchors

namespace Darkmatter

open Std Lib List
open OpenMls.Branching.ProposalLaws (Covers replayed_leads)

section Branches

variable {Group : Type} {mls : OpenMls Group} (branching : mls.Branching)

/-! ### Anchors on the applied branch -/

include branching in
theorem OpenMls.Branching.publishLaws : mls.PublishLaws where
  toEpochLaws := branching.epochLaws
  own := fun made => (branching.merged made).2.2.2

/-- Every anchor is a state of the applied branch. -/
def OnBranch (storage : GroupStorage Group) : Prop :=
  ∀ epoch snapshot, storage.anchor epoch = some snapshot →
    branching.branch snapshot.mls <+: branching.branch storage.live.mls

variable {branching}
  {storage : GroupStorage Group} {start : Nat} {group : Group} {engine after : Engine Group}
  {visited : Set Nat} {nowMs : Nat}
  {reported : Except OpenMlsProjectionError CanonicalizationResult}
  {observed : List OpenMlsReplayObservation} {joined : Nat} {steps : List EngineStep}

theorem OnBranch.branch_eq (onBranch : OnBranch branching storage)
    (sound : SoundStorage mls storage) {epoch : Nat} {snapshot : GroupSnapshot Group}
    (anchored : storage.anchor epoch = some snapshot) :
    branching.branch snapshot.mls =
      (branching.branch storage.live.mls).take (epoch - branching.base) := by
  have counted := branching.epoch snapshot.mls
  rw [(sound.anchors epoch snapshot anchored).2.1] at counted
  rw [counted, Nat.add_sub_cancel_left]
  exact prefix_iff_eq_take.mp (onBranch epoch snapshot anchored)

theorem OnBranch.start_eq (onBranch : OnBranch branching storage) (sound : SoundStorage mls storage)
    (starts : storage.Holds start group) :
    branching.branch group = (branching.branch storage.live.mls).take (start - branching.base) := by
  rcases starts with ⟨rfl, rfl⟩ | ⟨_, _, anchored, rfl⟩
  · have counted := branching.epoch storage.live.mls
    rw [sound.epoch, counted, Nat.add_sub_cancel_left, take_length]
  · exact onBranch.branch_eq sound anchored

/-- **A step keeps the anchors on the applied branch** when the branches before and after it agree up
to every tip that is kept, but for the new one. -/
theorem OnBranch.step (keeps : engine.Keeps visited) (sound : engine.Sound mls)
    (onBranch : OnBranch branching engine.storage) (effect : StepEffect mls engine after)
    (agree : ∀ tip ∈ kept visited engine.policy.convergence.maxRewindCommits,
      tip ≠ after.storage.live.epoch →
      ¬ tip + engine.policy.convergence.maxRewindCommits < after.storage.live.epoch →
        (branching.branch engine.storage.live.mls).take (tip - branching.base) <+:
          branching.branch after.storage.live.mls) : OnBranch branching after.storage := by
  intro epoch snapshot anchored
  cases effect.storage with
  | rows group sameEpoch grown rows timely anchors =>
    rw [anchors] at anchored
    rw [group]
    exact onBranch epoch snapshot anchored
  | retained live anchors =>
    rw [anchors, anchor_retain] at anchored
    rw [live]
    split_ifs at anchored
    · cases anchored
      exact prefix_rfl
    · exact onBranch epoch snapshot anchored
  | moved starts advances sameEpoch grown rows timely leftLive anchors =>
    have tipKept : engine.storage.live.epoch ∈
        kept visited engine.policy.convergence.maxRewindCommits := ⟨keeps.tip, keeps.near⟩
    rw [anchors] at anchored
    split_ifs at anchored with pruned here leaves
    · cases anchored
      exact prefix_rfl
    · cases anchored
      have kept := agree epoch (leaves.2 ▸ tipKept) here (by omega)
      rw [leaves.2, sound.storage.epoch, branching.epoch, Nat.add_sub_cancel_left,
        take_length] at kept
      rw [leftLive.1]
      exact kept
    · rw [onBranch.branch_eq sound.storage anchored]
      exact agree epoch ((keeps.anchors epoch).mp (by rw [anchored]; rfl)) here (by omega)

/-! ### Passes that abandon no tip -/

variable (mls) in
def Engine.selectedCommits (engine : Engine Group) (nowMs : Nat) : List Bytes :=
  match engine.decide mls nowMs with
  | .ok result =>
    result.acceptedCommits.filterMap fun id =>
      (Darkmatter.getMessage engine.storage.live.messages id).bind fun record =>
        record.payload.asOpenmlsWire.map TransportMessage.payload
  | .error _ => []

variable (branching) in
/-- A pass that abandons no tip of the run: the commits it selects agree with the applied ones up to
every tip so far, but for one at the epoch of the new tip and those out of its reach. -/
def Engine.AbandonsNoTip (engine : Engine Group) (visited : Set Nat) (nowMs : Nat) : Prop :=
  ∀ tip, engine.aim mls (.converge nowMs) = some tip → ∀ reached ∈ visited,
    reached = tip ∨ reached + engine.policy.convergence.maxRewindCommits < tip ∨
      ((branching.branch engine.storage.live.mls).drop
          (engine.passStart mls - branching.base)).take (reached - engine.passStart mls) =
        (engine.selectedCommits mls nowMs).take (reached - engine.passStart mls)

theorem selectedCommits_eq (rows : SoundRows mls engine.storage.live.messages)
    {result : CanonicalizationResult} {path : CandidatePathProbe}
    (decision : engine.Decided mls nowMs group result)
    (ended : path ∈ engine.storage.passPaths mls engine.horizon group)
    (accepted : result.acceptedCommits = path.messages.map TransportMessage.id) :
    engine.selectedCommits mls nowMs = path.messages.map TransportMessage.payload := by
  rw [Engine.selectedCommits, decision.decided]
  simp only [accepted]
  rw [filterMap_map, ← filterMap_eq_map]
  refine filterMap_congr fun message member => ?_
  obtain ⟨_, known, rfl⟩ := (passPaths_stored rows ended).2 message member
  obtain ⟨record, here, wire, _⟩ := passCommits_row known
  have payload := wireMessage_payload wire
  have named := (rows.stored record here _ payload).1
  simp only [Function.comp_apply, named, rows.getMessage_eq here, Option.bind_some,
    payload, StoredMessagePayload.asOpenmlsWire, Option.map_some]

theorem take_prefix_of_agree {old chosen : List Bytes} {reached : Nat}
    (agree : (old.drop start).take (reached - start) = chosen.take (reached - start)) :
    old.take reached <+: old.take start ++ chosen := by
  by_cases below : reached ≤ start
  · exact (take_prefix_take_left below).trans (prefix_append _ _)
  · have split : old.take reached = old.take start ++ (old.drop start).take (reached - start) := by
      rw [← take_add, Nat.add_sub_cancel' (Nat.le_of_not_le below)]
    rw [split, agree]
    exact (prefix_append_right_inj _).mpr ( take_prefix _ _)

/-- **The branch after a pass**: it stays, or the selected commits go on top of what it was up to the
state the pass starts from. -/
theorem pass_branch (sound : engine.Sound mls) (onBranch : OnBranch branching engine.storage)
    (effect : PassEffect mls engine nowMs reported observed after) :
    branching.branch after.storage.live.mls = branching.branch engine.storage.live.mls ∨
      engine.aim mls (.converge nowMs) = some after.storage.live.epoch ∧
        branching.base ≤ engine.passStart mls ∧
        branching.branch after.storage.live.mls =
          (branching.branch engine.storage.live.mls).take (engine.passStart mls - branching.base) ++
            engine.selectedCommits mls nowMs ∧
        ∀ bytes ∈ engine.selectedCommits mls nowMs, ¬ branching.refused bytes := by
  have reaches := (pass_effect branching.epochLaws sound effect).tip
  cases effect with
  | halted | refused | waiting | lost | idle => exact .inl rfl
  | failed decision quiet same => rcases same with rfl | rfl <;> exact .inl rfl
  | @moved result group selected start path before after output decision quiet isSelected ended
      accepted reached proposals applications begins replayed delivers =>
    obtain ⟨rfl, rfl⟩ :=
      decision.start_eq sound.storage.rows sound.storage.timely isSelected begins
    generalize (engine.storage.startingAt (engine.passStart mls)).mls = group at *
    simp only [Engine.applied, isSelected, Option.map_some, Option.getD_some, EpochState.epoch]
      at reaches
    have starts : engine.storage.Holds (engine.passStart mls) group := decision.starts
    obtain ⟨branch, foreign⟩ := branching.replayed replayed
    rw [← onBranch.start_eq sound.storage starts,
      selectedCommits_eq sound.storage.rows decision ended accepted]
    rw [commitsOf_path sound.storage.rows ended proposals applications] at branch foreign
    refine .inr ⟨?_, ?_, branch, forall_mem_map.mpr foreign⟩
    · exact (aim_eq_selected decision quiet).trans (isSelected.trans (congrArg some reaches))
    · rw [← (sound.storage.start_epoch starts).1, branching.epoch]
      exact Nat.le_add_right _ _

/-- **A pass that abandons no tip keeps the anchors on the applied branch.** -/
theorem pass_onBranch (keeps : engine.Keeps visited) (sound : engine.Sound mls)
    (onBranch : OnBranch branching engine.storage)
    (effect : PassEffect mls engine nowMs reported observed after)
    (faithful : engine.AbandonsNoTip branching visited nowMs) :
    OnBranch branching after.storage := by
  refine onBranch.step keeps sound (pass_effect branching.epochLaws sound effect)
    fun tip tipKept differs inReach => ?_
  obtain same | ⟨aims, base, branch, _⟩ := pass_branch sound onBranch effect
  · rw [same]
    exact take_prefix _ _
  · rw [branch]
    refine take_prefix_of_agree ?_
    rw [show tip - branching.base - (engine.passStart mls - branching.base) =
      tip - engine.passStart mls by omega]
    rcases faithful _ aims tip tipKept.1 with reaches | outOfReach | agree
    · exact absurd reaches differs
    · exact absurd outOfReach inReach
    · exact agree

variable (branching) in
/-- A run whose passes abandon no tip. -/
def Engine.Faithful (engine : Engine Group) (steps : List EngineStep) : Prop :=
  EveryStep (fun done step => ∀ nowMs, step = .converge nowMs →
    (engine.run mls done).AbandonsNoTip branching (engine.visited mls done) nowMs) steps

theorem FreshlyJoined.anchor_live (fresh : FreshlyJoined mls engine joined) {epoch : Nat}
    {snapshot : GroupSnapshot Group} (anchored : engine.storage.anchor epoch = some snapshot) :
    snapshot = engine.storage.live := by
  by_cases here : epoch = joined
  · rw [here, fresh.anchor] at anchored
    exact (Option.some.inj anchored).symm
  · rw [fresh.only epoch here] at anchored
    cases anchored

/-- **The anchors of a faithful run lie on the applied branch.** -/
theorem run_onBranch (fresh : FreshlyJoined mls engine joined)
    (faithful : engine.Faithful branching steps) :
    OnBranch branching (engine.run mls steps).storage := by
  have laws := branching.publishLaws
  induction steps using reverseRecOn with
  | nil =>
    intro epoch _ anchored
    rw [fresh.anchor_live anchored]
    exact prefix_rfl
  | append_singleton steps step ih =>
    obtain ⟨earlier, last⟩ := everyStep_append_iff.mp faithful
    have onBranch := ih earlier
    have sound := (run_sound laws fresh.sound steps).1
    have keeps := run_keeps laws fresh steps
    rw [run_append]
    cases step with
    | buffer message nowMs =>
      obtain ⟨_, _, _, buffered⟩ := @step_buffer _ mls (engine.run mls steps) message nowMs
      rw [buffered]
      exact onBranch
    | converge nowMs =>
      exact pass_onBranch keeps sound onBranch (sound.storage.converge_cases laws.toEpochLaws nowMs)
        (last nowMs rfl)
    | publish message mlsBytes priority committer =>
      rw [Engine.step]
      cases published : (stageCommit mls (engine.run mls steps) message mlsBytes priority
          committer).bind (confirmPublished mls) with
      | none => exact onBranch
      | some after =>
        obtain ⟨effect, merged, _⟩ := publish_effect laws sound published
        refine onBranch.step keeps sound effect fun tip _ _ _ => ?_
        show _ <+: branching.branch after.storage.live.mls
        rw [(branching.merged merged).2.2.1]
        exact ( take_prefix _ _).trans (prefix_append _ _)

/-! ### Replaying the applied commits -/

def EngineStep.isPublish : EngineStep → Bool
  | .publish .. => true
  | _ => false

theorem pass_accepted (sound : engine.Sound mls) (onBranch : OnBranch branching engine.storage)
    (effect : PassEffect mls engine nowMs reported observed after)
    (accepted : ∀ bytes ∈ (branching.branch engine.storage.live.mls).drop
      (joined - branching.base), ¬ branching.refused bytes) :
    ∀ bytes ∈ (branching.branch after.storage.live.mls).drop (joined - branching.base),
      ¬ branching.refused bytes := by
  obtain same | ⟨_, _, branch, foreign⟩ := pass_branch sound onBranch effect
  · rwa [same]
  · intro bytes member
    rw [branch, drop_append, mem_append, drop_take] at member
    rcases member with old | new
    · exact accepted bytes (mem_of_mem_take old)
    · exact foreign bytes (mem_of_mem_drop new)

/-- **A run without commits of the client** applies none that the wire would refuse. -/
theorem run_accepted (fresh : FreshlyJoined mls engine joined)
    (faithful : engine.Faithful branching steps) (passes : ∀ step ∈ steps, step.isPublish = false) :
    ∀ bytes ∈ (branching.branch (engine.run mls steps).storage.live.mls).drop
      (joined - branching.base), ¬ branching.refused bytes := by
  have laws := branching.publishLaws
  induction steps using reverseRecOn with
  | nil =>
    intro _ member
    have counted := branching.epoch engine.storage.live.mls
    rw [← fresh.sound.storage.epoch, fresh.tip] at counted
    rw [Engine.run, foldl_nil, counted, Nat.add_sub_cancel_left, drop_length] at member
    cases member
  | append_singleton steps step ih =>
    have earlier : engine.Faithful branching steps := (everyStep_append_iff.mp faithful).1
    have accepted := ih earlier fun other member => passes other (mem_append_left _ member)
    have onBranch := run_onBranch fresh earlier
    have sound := (run_sound laws fresh.sound steps).1
    rw [run_append]
    cases step with
    | publish => cases passes _ (mem_append_right _ (mem_singleton_self _))
    | buffer message nowMs =>
      obtain ⟨_, _, _, buffered⟩ := @step_buffer _ mls (engine.run mls steps) message nowMs
      rw [buffered]
      exact accepted
    | converge nowMs =>
      exact pass_accepted sound onBranch (sound.storage.converge_cases laws.toEpochLaws nowMs)
        accepted

theorem OnBranch.le_tip (onBranch : OnBranch branching storage) (sound : SoundStorage mls storage)
    {epoch : Nat} {snapshot : GroupSnapshot Group} (anchored : storage.anchor epoch = some snapshot) :
    epoch ≤ storage.live.epoch := by
  rw [← (sound.anchors epoch snapshot anchored).2.1, sound.epoch, branching.epoch, branching.epoch]
  exact Nat.add_le_add_left (onBranch epoch snapshot anchored).length_le _

variable {laws : branching.ProposalLaws}

variable (laws) in
/-- **The anchors replay**: commits and proposals lead from every anchor to the live group and to every
later anchor. -/
structure Replays (storage : GroupStorage Group) : Prop where
  live : ∀ epoch snapshot, storage.anchor epoch = some snapshot →
    laws.Leads snapshot.mls storage.live.mls
  later : ∀ epoch snapshot other target, storage.anchor epoch = some snapshot →
    storage.anchor other = some target → epoch ≤ other → laws.Leads snapshot.mls target.mls

/-- **From an anchor to the state that a replay reaches.** The replay starts above the anchor, or it
passes through the branch of the anchor. -/
theorem Replays.onward (replays : Replays laws storage) (sound : SoundStorage mls storage)
    (starts : storage.Holds start group) {messages : List TransportMessage}
    {output : OpenMlsReplayOutput Group}
    (replayed : mls.processOpenmlsMessagesInner group messages = .ok output)
    {epoch : Nat} {snapshot : GroupSnapshot Group} (anchored : storage.anchor epoch = some snapshot)
    (onBranch : branching.branch snapshot.mls <+: branching.branch output.group) :
    laws.Leads snapshot.mls output.group := by
  by_cases below : epoch ≤ start
  · have begins : laws.Leads snapshot.mls group := by
      rcases starts with ⟨_, rfl⟩ | ⟨_, target, there, rfl⟩
      · exact replays.live epoch snapshot anchored
      · exact replays.later epoch snapshot start target anchored there below
    exact begins.trans (replayed_leads .refl replayed)
  · have own := branching.epoch snapshot.mls
    have base := branching.epoch group
    have branch := (branching.replayed replayed).1
    rw [(sound.anchors epoch snapshot anchored).2.1] at own
    rw [(sound.start_epoch starts).1] at base
    have short := onBranch.length_le
    rw [branch, length_append, length_map] at short
    obtain ⟨middle, rest, after, reached, empty, later, ends⟩ :=
      laws.replayed_through (epoch - start) replayed (by omega) (by omega)
    have covers : laws.Covers middle snapshot.mls := by
      refine ⟨?_, empty.subset.trans (Set.empty_subset _)⟩
      rw [prefix_iff_eq_take.mp onBranch, branch, reached, take_append, take_of_length_le (by omega),
        show (branching.branch snapshot.mls).length - (branching.branch group).length =
          epoch - start by omega]
    rw [← ends]
    exact replayed_leads covers later

/-- The anchors after a move are the new tip, the one it left, and earlier ones. -/
theorem Replays.of_anchors {before after : GroupStorage Group} (replays : Replays laws before)
    (onBranch : OnBranch branching before) (sound : SoundStorage mls before)
    (afterwards : OnBranch branching after) (afterSound : SoundStorage mls after)
    (anchors : ∀ epoch snapshot, after.anchor epoch = some snapshot →
      epoch = after.live.epoch ∧ snapshot.mls = after.live.mls ∨
      (epoch = before.live.epoch ∧ snapshot.mls = before.live.mls) ∧
        laws.Leads snapshot.mls after.live.mls ∨
      before.anchor epoch = some snapshot ∧ laws.Leads snapshot.mls after.live.mls) :
    Replays laws after := by
  have live : ∀ epoch snapshot, after.anchor epoch = some snapshot →
      laws.Leads snapshot.mls after.live.mls := by
    intro epoch snapshot anchored
    rcases anchors epoch snapshot anchored with ⟨_, same⟩ | ⟨_, leads⟩ | ⟨_, leads⟩
    · exact same ▸ Covers.refl.leads
    · exact leads
    · exact leads
  refine ⟨live, fun epoch snapshot other target here there le => ?_⟩
  by_cases one : epoch = other
  · obtain rfl : snapshot = target := Option.some.inj (here.symm.trans (one ▸ there))
    exact Covers.refl.leads
  · have low := afterwards.le_tip afterSound there
    rcases anchors other target there with ⟨_, tip⟩ | ⟨⟨atTip, left⟩, _⟩ | ⟨old, _⟩
    · exact tip ▸ live epoch snapshot here
    · rcases anchors epoch snapshot here with ⟨tip, _⟩ | ⟨⟨same, _⟩, _⟩ | ⟨earlier, _⟩
      · omega
      · exact absurd (same.trans atTip.symm) one
      · exact left ▸ replays.live epoch snapshot earlier
    · have lower := onBranch.le_tip sound old
      rcases anchors epoch snapshot here with ⟨tip, _⟩ | ⟨⟨same, _⟩, _⟩ | ⟨earlier, _⟩
      · omega
      · omega
      · exact replays.later epoch snapshot other target earlier old le

/-- **A step keeps the anchors replaying**, unless it merges a commit of the client. -/
theorem Replays.step (keeps : engine.Keeps visited) (sound : engine.Sound mls)
    (onBranch : OnBranch branching engine.storage) (replays : Replays laws engine.storage)
    (effect : StepEffect mls engine after) (afterwards : OnBranch branching after.storage)
    (since : ∀ tip ∈ visited, joined ≤ tip)
    (accepted : ∀ bytes ∈ (branching.branch after.storage.live.mls).drop (joined - branching.base),
      ¬ branching.refused bytes) : Replays laws after.storage := by
  have afterSound := (effect.sound sound).storage
  cases effect.storage with
  | rows group sameEpoch grown rows timely anchors =>
    refine replays.of_anchors onBranch sound.storage afterwards afterSound
      fun epoch snapshot anchored => ?_
    rw [anchors] at anchored
    exact .inr (.inr ⟨anchored, group ▸ replays.live epoch snapshot anchored⟩)
  | retained live anchors =>
    refine replays.of_anchors onBranch sound.storage afterwards afterSound
      fun epoch snapshot anchored => ?_
    rw [anchors, anchor_retain] at anchored
    rw [live]
    split_ifs at anchored with pruned here
    · cases anchored
      exact .inl ⟨here, rfl⟩
    · exact .inr (.inr ⟨anchored, replays.live epoch snapshot anchored⟩)
  | @moved start group left starts advances sameEpoch grown rows timely leftLive anchors =>
    obtain ⟨messages, observations, ran⟩ : ∃ messages observations,
        mls.processOpenmlsMessagesInner group messages =
          .ok ⟨observations, after.storage.live.mls⟩ := by
      cases advances with
      | replayed ran => exact ⟨_, _, ran⟩
      | merged merged =>
        -- The last commit of the branch would be refused, although it comes after the joining.
        obtain ⟨refused, _, branch, _⟩ := branching.merged merged
        have reached : joined ≤ start := by
          rcases starts with ⟨rfl, _⟩ | ⟨_, _, anchored, _⟩
          · exact since _ keeps.tip
          · exact since _ ((keeps.anchors start).mp (by rw [anchored]; rfl)).1
        have counted := branching.epoch group
        rw [(sound.storage.start_epoch starts).1] at counted
        refine absurd refused (accepted _ ?_)
        rw [branch, drop_append_of_le_length (by omega)]
        exact mem_append_right _ (mem_singleton_self _)
    refine replays.of_anchors onBranch sound.storage afterwards afterSound
      fun epoch snapshot anchored => ?_
    have kept := afterwards epoch snapshot anchored
    rw [anchors] at anchored
    split_ifs at anchored with pruned here leaves
    · cases anchored
      exact .inl ⟨here, rfl⟩
    · cases anchored
      refine .inr (.inl ⟨⟨leaves.2, leftLive.1⟩, ?_⟩)
      obtain ⟨_, rfl⟩ | ⟨older, _⟩ := starts
      · rw [leftLive.1]
        exact replayed_leads .refl ran
      · omega
    · exact .inr (.inr ⟨anchored, replays.onward sound.storage starts ran anchored kept⟩)

/-- **The anchors of a faithful run without commits of the client replay.** -/
theorem run_replays (laws : branching.ProposalLaws) (fresh : FreshlyJoined mls engine joined)
    (faithful : engine.Faithful branching steps) (passes : ∀ step ∈ steps, step.isPublish = false) :
    Replays laws (engine.run mls steps).storage := by
  have publishLaws := branching.publishLaws
  induction steps using reverseRecOn with
  | nil =>
    refine ⟨fun epoch snapshot anchored => ?_, fun epoch snapshot other target here there _ => ?_⟩
    · rw [fresh.anchor_live anchored]
      exact Covers.refl.leads
    · rw [fresh.anchor_live here, fresh.anchor_live there]
      exact Covers.refl.leads
  | append_singleton steps step ih =>
    have earlier := (everyStep_append_iff.mp faithful).1
    have sound := (run_sound publishLaws fresh.sound steps).1
    have replays := ih earlier fun other member => passes other (mem_append_left _ member)
    have afterwards := run_onBranch fresh faithful
    have accepted := run_accepted fresh faithful passes
    rw [run_append] at afterwards accepted ⊢
    exact replays.step (run_keeps publishLaws fresh steps) sound (run_onBranch fresh earlier)
      (step_effect publishLaws sound step) afterwards (joined_le_visited publishLaws fresh steps)
      accepted

end Branches

/-! ### A reorg over an anchored epoch -/

/-- The commit 1 consumes the proposal 5. -/
def referringNeeds (name : UInt8) : List UInt8 := if name = 1 then [5] else []

def referringEngine : Engine HoldingGroup :=
  .joined (holdingMls referringNeeds) "group" .default ⟨[], []⟩

/-- A pass applies the commit 2. Then the commit 1 comes with its proposal, and the next pass takes it
instead. -/
def referringSteps : List EngineStep :=
  [.buffer (symbolicMessage "" [0, 2]) 0, .converge 1000, .buffer (symbolicMessage "" [1, 5]) 0,
    .buffer (symbolicMessage "" [0, 1]) 0, .converge 1000]

theorem referringEngine_freshlyJoined :
    FreshlyJoined (holdingMls referringNeeds) referringEngine 0 :=
  joined_freshlyJoined _ _ _

theorem referringSteps_faithful :
    referringEngine.Faithful (holdingBranching referringNeeds) referringSteps := by
  intro done step here nowMs converges tip aimed reached visit
  have times : ∀ step ∈ referringSteps, step = .converge nowMs → nowMs = 1000 := by
    simp only [referringSteps, forall_mem_cons, reduceCtorEq, EngineStep.converge.injEq, false_imp_iff]
    exact ⟨trivial, fun same => same.symm, trivial, trivial, fun same => same.symm, nofun⟩
  have aims : ∀ done ∈ referringSteps.inits, ((referringEngine.run (holdingMls referringNeeds)
      done).aim (holdingMls referringNeeds) (.converge 1000)).all (· = 1) := by
    decide +kernel
  have epochs : ∀ done ∈ referringSteps.inits, (referringEngine.run (holdingMls referringNeeds)
      done).storage.live.epoch ≤ 1 := by
    decide +kernel
  obtain rfl := times step (here.subset (mem_append_right _ (mem_singleton_self _))) converges
  obtain ⟨before, earlier, rfl⟩ := visit
  have earliest := (prefix_append done [step]).trans here
  have one := aims done ((mem_inits _ _).mpr earliest)
  rw [aimed, Option.all_some, decide_eq_true_eq] at one
  have low := epochs before ((mem_inits _ _).mpr (earlier.trans earliest))
  obtain first | last : (referringEngine.run (holdingMls referringNeeds)
      before).storage.live.epoch = 0 ∨ (referringEngine.run (holdingMls referringNeeds)
      before).storage.live.epoch = 1 := by omega
  · rw [first, Nat.zero_sub]
    exact .inr (.inr rfl)
  · exact .inl (last.trans one.symm)

end Darkmatter
