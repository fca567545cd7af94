/-
**Level-by-level search of a tree.**

A node has a list of children. `searchLeaves` visits the nodes level by level and collects those
without children, `searchCost` adds up what it costs to expand the visited nodes.

* `mem_searchLeaves` — enough levels find exactly the childless nodes below the frontier.
* `below_invariant` — what children keep holds below.
* `searchLeaves_nodup` — a key that tells siblings and levels apart tells the leaves apart.
* `searchLeaves_rel` — trees related child by child have related leaves and the same cost.
-/

import Mathlib

namespace Darkmatter.Lib

open List

variable {α : Type}

/-- `Below children a b`: `b` is reached from `a` by going to children. -/
def Below (children : α → List α) : α → α → Prop :=
  Relation.ReflTransGen fun a b => b ∈ children a

/-- The childless nodes met in `levels` levels below a frontier. -/
def searchLeaves (children : α → List α) : Nat → List α → List α
  | 0, _ => []
  | levels + 1, frontier =>
    (frontier.filter fun a => (children a).isEmpty) ++
      searchLeaves children levels (frontier.flatMap children)

/-- The cost of expanding every node met in `levels` levels below a frontier. -/
def searchCost (cost : α → Nat) (children : α → List α) : Nat → List α → Nat
  | 0, _ => 0
  | levels + 1, frontier =>
    (frontier.map cost).sum + searchCost cost children levels (frontier.flatMap children)

section Leaves

variable {children : α → List α}

@[simp]
theorem searchLeaves_nil (levels : Nat) : searchLeaves children levels [] = [] := by
  induction levels with
  | zero => rfl
  | succ levels ih => simp [searchLeaves, ih]

@[simp]
theorem searchCost_nil (cost : α → Nat) (levels : Nat) :
    searchCost cost children levels [] = 0 := by
  induction levels with
  | zero => rfl
  | succ levels ih => simp [searchCost, ih]

theorem below_refl (a : α) : Below children a a := Relation.ReflTransGen.refl

theorem below_cases {a b : α} (below : Below children a b) :
    a = b ∨ ∃ child ∈ children a, Below children child b :=
  (Relation.ReflTransGen.cases_head below).imp id fun ⟨child, here, rest⟩ => ⟨child, here, rest⟩

theorem below_child {a child b : α} (here : child ∈ children a) (below : Below children child b) :
    Below children a b :=
  Relation.ReflTransGen.head here below

/-- **Enough levels find exactly the childless nodes below the frontier**, over nodes that keep an
invariant under which the rank of a child is smaller. -/
theorem mem_searchLeaves {I : α → Prop} {rank : α → Nat} (keeps : ∀ a, I a → ∀ b ∈ children a, I b)
    (descends : ∀ a, I a → ∀ b ∈ children a, rank b < rank a) {levels : Nat} {frontier : List α}
    (start : ∀ a ∈ frontier, I a) (enough : ∀ a ∈ frontier, rank a < levels) {leaf : α} :
    leaf ∈ searchLeaves children levels frontier ↔
      (∃ a ∈ frontier, Below children a leaf) ∧ children leaf = [] := by
  induction levels generalizing frontier with
  | zero =>
    constructor
    · exact fun member => absurd member not_mem_nil
    · rintro ⟨⟨a, member, _⟩, _⟩
      exact absurd (enough a member) (Nat.not_lt_zero _)
  | succ levels ih =>
    have next : ∀ b ∈ frontier.flatMap children, I b ∧ rank b < levels := by
      intro b member
      obtain ⟨a, here, child⟩ := mem_flatMap.mp member
      have lower := descends a (start a here) b child
      have bound := enough a here
      exact ⟨keeps a (start a here) b child, by omega⟩
    rw [searchLeaves, List.mem_append, List.mem_filter, List.isEmpty_iff,
      ih (fun b member => (next b member).1) fun b member => (next b member).2]
    constructor
    · rintro (⟨here, none⟩ | ⟨⟨b, member, below⟩, none⟩)
      · exact ⟨⟨leaf, here, below_refl leaf⟩, none⟩
      · obtain ⟨a, here, child⟩ := mem_flatMap.mp member
        exact ⟨⟨a, here, below_child child below⟩, none⟩
    · rintro ⟨⟨a, here, below⟩, none⟩
      rcases below_cases below with rfl | ⟨child, member, rest⟩
      · exact Or.inl ⟨here, none⟩
      · exact Or.inr ⟨⟨child, mem_flatMap.mpr ⟨a, here, member⟩, rest⟩, none⟩

theorem below_invariant {I : α → Prop} (keeps : ∀ a, I a → ∀ b ∈ children a, I b) {a b : α}
    (start : I a) (below : Below children a b) : I b := by
  induction below with
  | refl => exact start
  | tail _ child ih => exact keeps _ ih _ child

/-- **A key that tells siblings apart, and levels by its depth, tells the leaves apart.** -/
theorem searchLeaves_nodup {β : Type} {key : α → β} {depth : β → Nat}
    (siblings : ∀ frontier : List α, (frontier.map key).Nodup →
      ((frontier.flatMap children).map key).Nodup)
    (deeper : ∀ a, ∀ b ∈ children a, depth (key b) = depth (key a) + 1) {levels level : Nat}
    {frontier : List α} (distinct : (frontier.map key).Nodup)
    (here : ∀ a ∈ frontier, depth (key a) = level) :
    ((searchLeaves children levels frontier).map key).Nodup ∧
      ∀ leaf ∈ searchLeaves children levels frontier, level ≤ depth (key leaf) := by
  induction levels generalizing level frontier with
  | zero => exact ⟨nodup_nil, fun leaf member => absurd member not_mem_nil⟩
  | succ levels ih =>
    have next : ∀ b ∈ frontier.flatMap children, depth (key b) = level + 1 := by
      intro b member
      obtain ⟨a, isNode, child⟩ := mem_flatMap.mp member
      rw [deeper a b child, here a isNode]
    obtain ⟨rest, below⟩ := ih (siblings frontier distinct) next
    rw [searchLeaves, map_append, nodup_append]
    refine ⟨⟨distinct.sublist (filter_sublist.map key), rest, ?_⟩, fun leaf member => ?_⟩
    · intro k first _ second same
      obtain ⟨a, kept, rfl⟩ := mem_map.mp first
      obtain ⟨b, later, rfl⟩ := mem_map.mp second
      have upper := here a (mem_filter.mp kept).1
      have lower := below b later
      rw [← same] at lower
      omega
    · rcases mem_append.mp member with kept | later
      · exact (here leaf (mem_filter.mp kept).1).ge
      · exact Nat.le_of_succ_le (below leaf later)

end Leaves

section Related

variable {β : Type} {children : α → List α} {children' : β → List β} {R : α → β → Prop}

/-- **Trees related child by child** have related leaves and the same cost. -/
theorem searchLeaves_rel {cost : α → Nat} {cost' : β → Nat}
    (related : ∀ a b, R a b → List.Forall₂ R (children a) (children' b))
    (sameCost : ∀ a b, R a b → cost a = cost' b) (levels : Nat) {frontier : List α}
    {frontier' : List β} (here : List.Forall₂ R frontier frontier') :
    List.Forall₂ R (searchLeaves children levels frontier)
        (searchLeaves children' levels frontier') ∧
      searchCost cost children levels frontier = searchCost cost' children' levels frontier' := by
  have sums : ∀ {frontier : List α} {frontier' : List β}, List.Forall₂ R frontier frontier' →
      frontier.map cost = frontier'.map cost' := by
    intro frontier frontier' here
    induction here with
    | nil => rfl
    | cons first _ ih => rw [map_cons, map_cons, sameCost _ _ first, ih]
  induction levels generalizing frontier frontier' with
  | zero => exact ⟨.nil, rfl⟩
  | succ levels ih =>
    have next : List.Forall₂ R (frontier.flatMap children) (frontier'.flatMap children') :=
      rel_flatMap here fun a b => related a b
    obtain ⟨leaves, costs⟩ := ih next
    rw [searchLeaves, searchLeaves, searchCost, searchCost, costs, sums here]
    refine ⟨rel_append (rel_filter ?_ here) leaves, rfl⟩
    intro a b isRelated
    have length := (related a b isRelated).length_eq
    show (children a).isEmpty = true ↔ (children' b).isEmpty = true
    rw [List.isEmpty_iff, List.isEmpty_iff, ← List.length_eq_zero_iff, length,
      List.length_eq_zero_iff]

end Related

end Darkmatter.Lib
