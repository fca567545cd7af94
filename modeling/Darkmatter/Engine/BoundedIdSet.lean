/-
**The ids that were seen last.**

The engine remembers ids in a set that gives up its oldest id when it is full. A number tells
whether the set has changed, and the encoded ids are kept under this number. It has 64 bits and
comes round.

* `BoundedIdSet.insert`, `BoundedIdSet.entered` — an id comes, and which ones were new then;
* `seenMessageIdsHexForConvergence` — the encoded ids, from the cache when its number is right;
* `bounded_id_set_exact` — **the set has the latest ids that were new**, and its number tells a
  change, as long as there are fewer than it has values;
* `cached_ids_stale` — **after that many the cache may be out of date**.
-/

import Mathlib

namespace Darkmatter

open List

/-- A set with its ids in the order in which they came. There is place for one at least. -/
structure BoundedIdSet (T : Type) (capacity : ℕ+) where
  members : Finset T
  order : List T
  generation : UInt64

variable {T : Type} {capacity : ℕ+}

/-- The encoded ids, and the cache for the next time. -/
def seenMessageIdsHexForConvergence (encode : T → String) (set : BoundedIdSet T capacity)
    (cache : Option (UInt64 × Finset String)) : Finset String × Option (UInt64 × Finset String) :=
  match cache.filter (·.1 = set.generation) with
  | some (_, snapshot) => (snapshot, cache)
  | none => (set.members.image encode, some (set.generation, set.members.image encode))

/-- How many ids the engine remembers. -/
def dedupCacheCapacity : ℕ+ := 100000

namespace BoundedIdSet

def withCapacity (capacity : ℕ+) : BoundedIdSet T capacity := ⟨∅, [], 0⟩

variable [DecidableEq T]

/-- The oldest ids go as long as there are too many. -/
def evict (capacity : ℕ+) (members : Finset T) : List T → Finset T × List T
  | [] => (members, [])
  | oldest :: rest =>
    if (oldest :: rest).length > capacity then evict capacity (members.erase oldest) rest
    else (members, oldest :: rest)

def insert (set : BoundedIdSet T capacity) (value : T) : BoundedIdSet T capacity :=
  if value ∈ set.members then set
  else
    let kept := evict capacity (Insert.insert value set.members) (set.order ++ [value])
    ⟨kept.1, kept.2, set.generation + 1⟩

def run (capacity : ℕ+) (ids : List T) : BoundedIdSet T capacity :=
  ids.foldl insert (withCapacity capacity)

/-- The ids that are not in the set when they come. -/
def entered : BoundedIdSet T capacity → List T → List T
  | _, [] => []
  | current, id :: rest =>
    if id ∈ current.members then current.entered rest
    else id :: (current.insert id).entered rest

/-- The set has the latest ids of a history, and the number of all. -/
structure Window (set : BoundedIdSet T capacity) (history : List T) : Prop where
  order : set.order = history.drop (history.length - capacity)
  members : set.members = set.order.toFinset
  nodup : set.order.Nodup
  generation : set.generation = UInt64.ofNat history.length

variable {set : BoundedIdSet T capacity} {history : List T} {id : T}

theorem evict_eq {order : List T} (nodup : order.Nodup) :
    evict capacity order.toFinset order = ((order.drop (order.length - capacity)).toFinset,
      order.drop (order.length - capacity)) := by
  induction order with
  | nil => rw [evict, drop_nil]
  | cons oldest rest ih =>
    obtain ⟨new, nodupRest⟩ := nodup_cons.mp nodup
    rw [evict]
    split_ifs with full
    · rw [length_cons] at full
      rw [toFinset_cons, Finset.erase_insert (by rwa [mem_toFinset]), ih nodupRest, length_cons,
        Nat.succ_sub (Nat.le_of_lt_succ full), drop_succ_cons]
    · rw [Nat.sub_eq_zero_of_le (Nat.not_lt.mp full), drop_zero]

/-- **A new id** comes to the end, and what is too many goes. -/
theorem Window.insert (window : set.Window history) (new : id ∉ set.members) :
    (set.insert id).Window (history ++ [id]) ∧ id ∈ (set.insert id).members := by
  have positive := capacity.pos
  have nodup : (set.order ++ [id]).Nodup := by
    rw [window.members, mem_toFinset] at new
    exact concat_eq_append ▸ window.nodup.concat new
  have all : Insert.insert id set.members = (set.order ++ [id]).toFinset := by
    ext other
    simp [window.members]
  have latest : (set.order ++ [id]).drop ((set.order ++ [id]).length - capacity) =
      (history ++ [id]).drop ((history ++ [id]).length - capacity) := by
    rw [window.order, ← drop_append_of_le_length (Nat.sub_le _ _), drop_drop, length_drop,
      length_append, length_singleton]
    congr 1
    omega
  rw [BoundedIdSet.insert, if_neg new, all, evict_eq nodup, latest]
  refine ⟨⟨rfl, rfl, ?_, ?_⟩, ?_⟩
  · rw [← latest]
    exact nodup.sublist (drop_sublist _ _)
  · show set.generation + 1 = _
    rw [window.generation, length_append, UInt64.ofNat_add]
    rfl
  · rw [mem_toFinset, length_append, drop_append_of_le_length (by rw [length_singleton]; omega)]
    exact mem_append_right _ mem_cons_self

theorem Window.run (window : set.Window history) (later : List T) :
    (later.foldl BoundedIdSet.insert set).Window (history ++ set.entered later) := by
  induction later generalizing set history with
  | nil =>
    rw [entered, append_nil]
    exact window
  | cons id rest ih =>
    rw [foldl_cons, entered]
    split_ifs with known
    · rw [BoundedIdSet.insert, if_pos known]
      exact ih window
    · rw [append_cons]
      exact ih (window.insert known).1

theorem window_run (capacity : ℕ+) (ids : List T) :
    (run capacity ids).Window ((withCapacity capacity).entered ids) := by
  have start : (withCapacity capacity : BoundedIdSet T capacity).Window [] :=
    ⟨by rw [drop_nil]; rfl, rfl, nodup_nil, rfl⟩
  exact start.run ids

/-- **The number tells a change.** -/
theorem Window.generation_ne_iff (window : set.Window history) :
    (set.insert id).generation ≠ set.generation ↔ (set.insert id).members ≠ set.members := by
  by_cases known : id ∈ set.members
  · rw [BoundedIdSet.insert, if_pos known]
    exact iff_of_false (not_not_intro rfl) (not_not_intro rfl)
  · refine iff_of_true ?_ fun same => known (same ▸ (window.insert known).2)
    rw [BoundedIdSet.insert, if_neg known]
    show set.generation + 1 ≠ _
    simp

/-- Two sets of a run with the same number are the same, unless the number came round. -/
theorem Window.members_eq {next : BoundedIdSet T capacity} {more : List T}
    (window : set.Window history) (after : next.Window (history ++ more))
    (few : more.length < 2 ^ 64) (same : set.generation = next.generation) :
    set.members = next.members := by
  have none : more = [] := by
    have count := congrArg UInt64.toNat ((window.generation.symm.trans same).trans after.generation)
    rw [UInt64.toNat_ofNat', UInt64.toNat_ofNat', length_append] at count
    exact length_eq_zero_iff.mp (by omega)
  rw [none, append_nil] at after
  rw [window.members, after.members, window.order, after.order]

end BoundedIdSet

open BoundedIdSet

variable [DecidableEq T]

/-- **The set is a window of the ids that were new**, and the number tells whether one more changes
it. What is encoded with the cache of an earlier time is what is encoded without, as long as fewer than
`2 ^ 64` ids were new in between. -/
theorem bounded_id_set_exact (encode : T → String) (ids later : List T) :
    (run capacity ids).Window ((withCapacity capacity).entered ids) ∧
      (run capacity ids).order.length ≤ capacity ∧
      (∀ id, ((run capacity ids).insert id).generation ≠ (run capacity ids).generation ↔
        ((run capacity ids).insert id).members ≠ (run capacity ids).members) ∧
      (((run capacity ids).entered later).length < 2 ^ 64 →
        (seenMessageIdsHexForConvergence encode (run capacity (ids ++ later))
          (seenMessageIdsHexForConvergence encode (run capacity ids) none).2).1 =
          (seenMessageIdsHexForConvergence encode (run capacity (ids ++ later)) none).1) := by
  have window := window_run capacity ids
  refine ⟨window, ?_, fun id => window.generation_ne_iff, fun few => ?_⟩
  · rw [window.order, length_drop]
    omega
  · have after := window.run later
    rw [run, ← foldl_append] at after
    simp only [seenMessageIdsHexForConvergence, Option.filter_none]
    by_cases same : (run capacity ids).generation = (run capacity (ids ++ later)).generation
    · rw [Option.filter_some_pos (by simpa using same)]
      exact congrArg (Finset.image encode) (window.members_eq after few same)
    · rw [Option.filter_some_neg (by simpa using same)]

theorem BoundedIdSet.window_range (n : Nat) : (run 1 (range n)).Window (range n) := by
  induction n with
  | zero => exact window_run 1 []
  | succ n ih =>
    rw [range_succ, run, foldl_append]
    refine (ih.insert ?_).1
    rw [ih.members, mem_toFinset, ih.order]
    exact fun member => not_mem_range_self (mem_of_mem_drop member)

/-- The number comes round: after `2 ^ 64` new ids the set has the number of the set without ids. -/
theorem cached_ids_stale : ∃ later : List Nat,
    (seenMessageIdsHexForConvergence toString (run 1 later)
      (seenMessageIdsHexForConvergence toString (run 1 ([] : List Nat)) none).2).1 ≠
      (seenMessageIdsHexForConvergence toString (run 1 later) none).1 := by
  obtain ⟨n, isN⟩ : ∃ n, n + 1 = 2 ^ 64 := ⟨2 ^ 64 - 1, rfl⟩
  have window := window_range (n + 1)
  have number : (run 1 ([] : List Nat)).generation = (run 1 (range (n + 1))).generation := by
    rw [window.generation, length_range, isN]
    rfl
  refine ⟨range (n + 1), fun same => ?_⟩
  simp only [seenMessageIdsHexForConvergence, Option.filter_none] at same
  rw [Option.filter_some_pos (by simpa using number)] at same
  have none := Finset.image_eq_empty.mp same.symm
  rw [window.members, toFinset_eq_empty_iff, window.order, drop_eq_nil_iff, length_range] at none
  exact absurd none (Nat.not_le.mpr n.lt_succ_self)

end Darkmatter
