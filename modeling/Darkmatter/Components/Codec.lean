/-
**The bytes of the app components.**

A group keeps its components in a dictionary under sixteen-bit ids. Two of them decide who may change
the group: the list of the components that the group requires, and the admin policy. Both are a byte
length in the shortest QUIC form and the entries behind it.

* `decodeQuicVarint`, `encodeQuicVarint` — lengths; `decodeQuicVarint_eq_ok` — **a length is read off
  exactly its own bytes**;
* `decodeVarBytes`, `encodeVarBytes` — byte strings; `decodeVarBytes_eq_ok` — and so is a byte string;
* `decodeComponentsList`, `encodeComponentsList` — the required components;
  `decodeComponentsList_eq_ok` — any order of the ids is accepted;
* `decodeAdminPolicy`, `encodeAdminPolicy` — the keys of the admins, sorted and without repetition;
* `admin_policy_round_trip` — **a policy is canonical, and is read back**.
-/

import Darkmatter.Convergence
import Darkmatter.Lib.BigEndian
import Darkmatter.Lib.Checks

namespace Darkmatter

open Lib List

abbrev AppComponentId := UInt16

def appComponentsComponentId : AppComponentId := 0x0001

def groupAdminPolicyComponentId : AppComponentId := 0x8003

/-! ### Lengths -/

def encodeQuicVarint (value : Nat) : Bytes :=
  if value < 64 then
    toBigEndian 1 value
  else if value < 16384 then
    toBigEndian 2 (0x4000 ||| value)
  else if value < 1073741824 then
    toBigEndian 4 (0x80000000 ||| value)
  else
    toBigEndian 8 (0xC000000000000000 ||| value)

def minimalWidth (value : Nat) : Nat :=
  if value < 64 then 1 else if value < 16384 then 2 else if value < 1073741824 then 4 else 8

/-- The value and the number of bytes it takes. The first two bits are the width. -/
def decodeQuicVarint (bytes : Bytes) : Except String (Nat × Nat) :=
  match bytes with
  | [] => .error "missing QUIC varint"
  | first :: rest =>
    let width := 2 ^ (first.toNat / 64)
    if bytes.length < width then
      .error "truncated QUIC varint"
    else
      let value := (rest.take (width - 1)).foldl (fun value byte => value * 256 + byte.toNat)
        (first.toNat % 64)
      if width = minimalWidth value then
        .ok (value, width)
      else
        .error "non-canonical QUIC varint length"

variable {value width : Nat} {bytes : Bytes} {ids : List AppComponentId}

/-- A value of a width: its width in the first two bits, the value behind them. -/
theorem encodeQuicVarint_eq {exponent : Nat} (small : value < 64 * 256 ^ (2 ^ exponent - 1))
    (minimal : 2 ^ exponent = minimalWidth value) :
    encodeQuicVarint value =
      toBigEndian (2 ^ exponent) (exponent * (64 * 256 ^ (2 ^ exponent - 1)) + value) := by
  have width : ∀ {other : Nat}, 2 ^ exponent = 2 ^ other → exponent = other :=
    fun same => Nat.pow_right_injective le_rfl same
  rw [minimalWidth] at minimal
  rw [encodeQuicVarint]
  split_ifs at minimal ⊢
  · cases @width 0 minimal
    simp
  · cases @width 1 minimal
    exact congrArg (toBigEndian 2) (@Nat.two_pow_add_eq_or_of_lt 14 value small 1).symm
  · cases @width 2 minimal
    exact congrArg (toBigEndian 4) (@Nat.two_pow_add_eq_or_of_lt 30 value small 2).symm
  · cases @width 3 minimal
    exact congrArg (toBigEndian 8) (@Nat.two_pow_add_eq_or_of_lt 62 value small 3).symm

theorem exists_width (small : value < 2 ^ 62) :
    ∃ exponent ≤ 3, value < 64 * 256 ^ (2 ^ exponent - 1) ∧ 2 ^ exponent = minimalWidth value := by
  rw [minimalWidth]
  split_ifs with one two four
  · exact ⟨0, by decide, one, rfl⟩
  · exact ⟨1, by decide, two, rfl⟩
  · exact ⟨2, by decide, four, rfl⟩
  · exact ⟨3, le_rfl, small, rfl⟩

theorem ofBigEndian_varint (first : UInt8) (rest : Bytes) :
    ofBigEndian (first :: rest) = first.toNat / 64 * (64 * 256 ^ rest.length) +
        rest.foldl (fun value byte => value * 256 + byte.toNat) (first.toNat % 64) ∧
      rest.foldl (fun value byte => value * 256 + byte.toNat) (first.toNat % 64) <
        64 * 256 ^ rest.length := by
  have tail := ofBigEndian_lt rest
  have head : first.toNat = 64 * (first.toNat / 64) + first.toNat % 64 := by omega
  have split := foldl_bigEndian first.toNat rest
  rw [foldl_bigEndian]
  constructor
  · rw [ofBigEndian, foldl_cons, Nat.zero_mul, Nat.zero_add, split]
    conv_lhs => rw [head]
    ring
  · calc first.toNat % 64 * 256 ^ rest.length + ofBigEndian rest
        < first.toNat % 64 * 256 ^ rest.length + 256 ^ rest.length := by omega
      _ = (first.toNat % 64 + 1) * 256 ^ rest.length := by ring
      _ ≤ 64 * 256 ^ rest.length := Nat.mul_le_mul_right _ (by omega)

/-- **Lengths are canonical**: a length is read exactly off its own bytes. -/
theorem decodeQuicVarint_eq_ok :
    decodeQuicVarint bytes = .ok (value, width) ↔
      value < 2 ^ 62 ∧ width = (encodeQuicVarint value).length ∧
        ∃ rest, bytes = encodeQuicVarint value ++ rest := by
  constructor
  · intro decoded
    cases bytes with
    | nil => cases decoded
    | cons first rest =>
      dsimp only [decodeQuicVarint] at decoded
      split_ifs at decoded with short minimal
      cases decoded
      have taken : (rest.take (2 ^ (first.toNat / 64) - 1)).length =
          2 ^ (first.toNat / 64) - 1 := by
        rw [length_take]
        simp only [length_cons] at short
        omega
      have positive := Nat.two_pow_pos (first.toNat / 64)
      obtain ⟨number, small⟩ := ofBigEndian_varint first (rest.take (2 ^ (first.toNat / 64) - 1))
      rw [taken] at number small
      have encoded := encodeQuicVarint_eq small minimal
      rw [← number] at encoded
      have back := toBigEndian_ofBigEndian (first :: rest.take (2 ^ (first.toNat / 64) - 1))
      rw [length_cons, taken, Nat.sub_add_cancel positive] at back
      rw [back] at encoded
      refine ⟨?_, ?_, rest.drop (2 ^ (first.toNat / 64) - 1), ?_⟩
      · have low : first.toNat / 64 ≤ 3 := by have := first.toNat_lt; omega
        calc _ < 64 * 256 ^ (2 ^ (first.toNat / 64) - 1) := small
          _ ≤ 64 * 256 ^ (2 ^ 3 - 1) := by gcongr <;> norm_num
          _ = 2 ^ 62 := by norm_num
      · rw [encoded, length_cons, taken, Nat.sub_add_cancel positive]
      · rw [encoded, cons_append, take_append_drop]
  · rintro ⟨small, rfl, _, rfl⟩
    obtain ⟨exponent, low, fits, minimal⟩ := exists_width small
    have encoded := encodeQuicVarint_eq fits minimal
    have long := congrArg length encoded
    rw [length_toBigEndian] at long
    cases split : encodeQuicVarint value with
    | nil =>
      rw [split] at long
      exact absurd long (Nat.two_pow_pos exponent).ne
    | cons first tail =>
      rw [split, length_cons] at long
      have isTail : 2 ^ exponent - 1 = tail.length := by omega
      obtain ⟨number, small⟩ := ofBigEndian_varint first tail
      rw [isTail, ← long] at encoded
      rw [isTail] at fits
      have within : exponent * (64 * 256 ^ tail.length) + value < 256 ^ (tail.length + 1) := by
        rw [pow_succ]
        have scaled := Nat.mul_le_mul_right (64 * 256 ^ tail.length) low
        omega
      rw [← split, encoded, ofBigEndian_toBigEndian within] at number
      obtain ⟨width, read⟩ := eq_of_mul_add_eq small fits number.symm
      dsimp only [decodeQuicVarint, cons_append]
      rw [width, isTail, take_left, read, if_neg, if_pos minimal, ← long, length_cons]
      simp only [length_cons, length_append]
      omega

/-- **A length is read back.** -/
theorem decodeQuicVarint_encode (small : value < 2 ^ 62) (rest : Bytes) :
    decodeQuicVarint (encodeQuicVarint value ++ rest) =
      .ok (value, (encodeQuicVarint value).length) :=
  decodeQuicVarint_eq_ok.mpr ⟨small, rfl, rest, rfl⟩

/-! ### Byte strings -/

def encodeVarBytes (bytes : Bytes) : Bytes :=
  encodeQuicVarint bytes.length ++ bytes

/-- A byte string of a bounded length off the front of the cursor, and the rest. -/
def decodeVarBytes (maxLen : Nat) (label : String) (cursor : Bytes) :
    Except String (Bytes × Bytes) := do
  let (length, prefixLen) ← (decodeQuicVarint cursor).mapError
    fun error => s!"{label} length decode failed: {error}"
  if length > maxLen then
    .error s!"{label} exceeds maximum length"
  else if cursor.length < prefixLen + length then
    .error s!"{label} is truncated"
  else
    .ok ((cursor.drop prefixLen).take length, cursor.drop (prefixLen + length))

/-- **A byte string is read off exactly its own bytes.** -/
theorem decodeVarBytes_eq_ok {maxLen : Nat} {label : String} {cursor value rest : Bytes} :
    decodeVarBytes maxLen label cursor = .ok (value, rest) ↔
      (value.length ≤ maxLen ∧ value.length < 2 ^ 62) ∧ cursor = encodeVarBytes value ++ rest := by
  rw [decodeVarBytes, bind_eq_ok]
  constructor
  · rintro ⟨⟨length, _⟩, read, checked⟩
    obtain ⟨small, rfl, tail, rfl⟩ := decodeQuicVarint_eq_ok.mp (mapError_eq_ok.mp read)
    dsimp only at checked
    split_ifs at checked with long truncated
    cases checked
    rw [length_append] at truncated
    have size : (tail.take length).length = length := by
      rw [length_take]
      omega
    rw [drop_left, drop_length_add_append, encodeVarBytes, size, append_assoc, take_append_drop]
    exact ⟨⟨Nat.le_of_not_lt long, small⟩, rfl⟩
  · rintro ⟨⟨short, small⟩, rfl⟩
    rw [encodeVarBytes, append_assoc]
    refine ⟨_, mapError_eq_ok.mpr (decodeQuicVarint_encode small _), ?_⟩
    dsimp only
    rw [if_neg (Nat.not_lt.mpr short), if_neg (by simp), drop_left, take_left,
      drop_length_add_append, drop_left]

theorem decodeQuicVarint_whole {length : Nat}
    (read : decodeQuicVarint bytes = .ok (length, width)) (whole : width + length = bytes.length) :
    length < 2 ^ 62 ∧ (bytes.drop width).length = length ∧
      bytes = encodeVarBytes (bytes.drop width) := by
  obtain ⟨small, rfl, body, rfl⟩ := decodeQuicVarint_eq_ok.mp read
  rw [length_append] at whole
  rw [drop_left, encodeVarBytes]
  have size : body.length = length := by omega
  exact ⟨small, size, by rw [size]⟩

/-- **Lengths are canonical below two to the sixty-second.** The encoder refuses nothing; from
there on, what it writes is not read back. -/
theorem quic_varint_canonical_iff (value : Nat) (bytes : Bytes) :
    ((∀ rest, decodeQuicVarint (encodeQuicVarint value ++ rest) =
        .ok (value, (encodeQuicVarint value).length)) ↔ value < 2 ^ 62) ∧
      (∀ width, decodeQuicVarint bytes = .ok (value, width) →
        bytes.take width = encodeQuicVarint value) ∧
      ∀ maxLen label, bytes.length ≤ maxLen →
        ((∀ rest, decodeVarBytes maxLen label (encodeVarBytes bytes ++ rest) =
          .ok (bytes, rest)) ↔ bytes.length < 2 ^ 62) := by
  refine ⟨⟨fun back => ?_, decodeQuicVarint_encode⟩, fun width decoded => ?_,
    fun maxLen label short => ?_⟩
  · exact (decodeQuicVarint_eq_ok.mp (back [])).1
  · obtain ⟨-, rfl, rest, rfl⟩ := decodeQuicVarint_eq_ok.mp decoded
    exact take_left
  · exact ⟨fun back => (decodeVarBytes_eq_ok.mp (back [])).1.2,
      fun small rest => decodeVarBytes_eq_ok.mpr ⟨⟨short, small⟩, rfl⟩⟩

/-- The first value without an encoding is written as a zero of eight bytes, which is refused. -/
theorem large_value_written :
    encodeQuicVarint (2 ^ 62) = [0xC0, 0, 0, 0, 0, 0, 0, 0] ∧
      decodeQuicVarint (encodeQuicVarint (2 ^ 62)) = .error "non-canonical QUIC varint length" := by
  decide

/-! ### The required components -/

/-- The ids two bytes at a time; an id that was seen is refused. -/
def componentIds (seen : List AppComponentId) : Bytes → Except String (List AppComponentId)
  | high :: low :: rest =>
    let id := UInt16.ofNat (high.toNat * 256 + low.toNat)
    if id ∈ seen then
      .error "component list contains duplicate ids"
    else
      componentIds (seen.orderedInsert (· ≤ ·) id) rest
  | _ => .ok seen

/-- **The required components**, in ascending order. -/
def decodeComponentsList (bytes : Bytes) : Except String (List AppComponentId) := do
  let (length, width) ← decodeQuicVarint bytes
  if width + length ≠ bytes.length then
    .error "component list has trailing bytes"
  else if length % 2 ≠ 0 then
    .error "component list byte length must be even"
  else
    componentIds [] (bytes.drop width)

/-- The ids of a list, two bytes each. -/
def listedIds : Bytes → List AppComponentId
  | high :: low :: rest => UInt16.ofNat (high.toNat * 256 + low.toNat) :: listedIds rest
  | _ => []

def encodeComponentId (id : AppComponentId) : Bytes :=
  toBigEndian 2 id.toNat

def encodeComponentsList (ids : List AppComponentId) : Bytes :=
  encodeQuicVarint (ids.length * 2) ++ ids.flatMap encodeComponentId

theorem listedIds_flatMap (ids : List AppComponentId) :
    listedIds (ids.flatMap encodeComponentId) = ids := by
  induction ids with
  | nil => rfl
  | cons id ids ih =>
    have small := id.toNat_lt
    have same : UInt16.ofNat (id.toNat / 256 % 256 * 256 + id.toNat % 256) = id := by
      rw [show id.toNat / 256 % 256 * 256 + id.toNat % 256 = id.toNat by omega, UInt16.ofNat_toNat]
    rw [flatMap_cons, encodeComponentId, toBigEndian, toBigEndian, toBigEndian]
    simp [listedIds, ih, same]

theorem encodeComponentId_ofNat (high low : UInt8) :
    encodeComponentId (UInt16.ofNat (high.toNat * 256 + low.toNat)) = [high, low] := by
  have fits : high.toNat * 256 + low.toNat < 2 ^ 16 := by
    have := high.toNat_lt
    have := low.toNat_lt
    omega
  have number : high.toNat * 256 + low.toNat = ofBigEndian [high, low] := by simp [ofBigEndian]
  rw [encodeComponentId, UInt16.toNat_ofNat_of_lt' fits, number]
  exact toBigEndian_ofBigEndian [high, low]

theorem flatMap_listedIds (even : bytes.length % 2 = 0) :
    (listedIds bytes).flatMap encodeComponentId = bytes := by
  induction bytes using listedIds.induct with
  | case1 high low rest ih =>
    simp only [length_cons] at even
    rw [listedIds, flatMap_cons, encodeComponentId_ofNat, ih (by omega)]
    rfl
  | case2 bytes short =>
    rcases bytes with _ | ⟨high, _ | ⟨low, rest⟩⟩
    · rfl
    · cases even
    · exact (short high low rest rfl).elim

theorem length_flatMap_encodeComponentId (ids : List AppComponentId) :
    (ids.flatMap encodeComponentId).length = ids.length * 2 := by
  simp [length_flatMap, encodeComponentId]

theorem pairwise_lt_iff : ids.Pairwise (· < ·) ↔ ids.Pairwise (· ≤ ·) ∧ ids.Nodup := by
  rw [List.Nodup, ← pairwise_and_iff]
  exact List.Pairwise.iff fun _ _ => UInt16.lt_iff_le_and_ne

/-- **The ids that are read**, sorted; none occurs twice. -/
theorem componentIds_eq_ok {seen : List AppComponentId} (sorted : seen.Pairwise (· < ·)) :
    componentIds seen bytes = .ok ids ↔
      ids.Pairwise (· < ·) ∧ ids.Perm (seen ++ listedIds bytes) := by
  induction bytes using listedIds.induct generalizing seen with
  | case1 high low rest ih =>
    rw [componentIds, listedIds]
    generalize UInt16.ofNat (high.toNat * 256 + low.toNat) = id
    split_ifs with repeated
    · refine iff_of_false (by simp) fun found => ?_
      have distinct := found.2.nodup_iff.mp (pairwise_lt_iff.mp found.1).2
      exact (nodup_append.mp distinct).2.2 id repeated id mem_cons_self rfl
    · obtain ⟨ordered, distinct⟩ := pairwise_lt_iff.mp sorted
      have inserted : (seen.orderedInsert (· ≤ ·) id).Perm (id :: seen) :=
        perm_orderedInsert _ _ _
      have strict := pairwise_lt_iff.mpr ⟨ordered.orderedInsert id seen,
        inserted.nodup_iff.mpr (nodup_cons.mpr ⟨repeated, distinct⟩)⟩
      have moved := (inserted.append_right (listedIds rest)).trans perm_middle.symm
      rw [ih strict]
      exact and_congr_right fun _ =>
        ⟨fun same => same.trans moved, fun same => same.trans moved.symm⟩
  | case2 bytes short =>
    have ends : componentIds seen bytes = .ok seen ∧ listedIds bytes = [] := by
      rcases bytes with _ | ⟨high, _ | ⟨low, rest⟩⟩
      · exact ⟨rfl, rfl⟩
      · exact ⟨rfl, rfl⟩
      · exact (short high low rest rfl).elim
    rw [ends.1, ends.2, append_nil]
    constructor
    · intro same
      cases same
      exact ⟨sorted, List.Perm.refl _⟩
    · rintro ⟨strict, same⟩
      rw [same.eq_of_pairwise' strict sorted]

theorem decodeComponentsList_eq_ok :
    decodeComponentsList bytes = .ok ids ↔
      ids.Pairwise (· < ·) ∧ ∃ listed, bytes = encodeComponentsList listed ∧
        listed.length * 2 < 2 ^ 62 ∧ ids.Perm listed := by
  rw [decodeComponentsList, bind_eq_ok]
  constructor
  · rintro ⟨⟨_, width⟩, read, checked⟩
    dsimp only at checked
    split_ifs at checked with trailing odd
    obtain ⟨small, _, whole⟩ := decodeQuicVarint_whole read (not_not.mp trailing)
    obtain ⟨strict, same⟩ := (componentIds_eq_ok List.Pairwise.nil).mp checked
    have even : (bytes.drop width).length % 2 = 0 := by omega
    have body := flatMap_listedIds even
    have count := length_flatMap_encodeComponentId (listedIds (bytes.drop width))
    rw [body] at count
    refine ⟨strict, listedIds (bytes.drop width), ?_, by omega, same⟩
    rw [encodeComponentsList, ← count, body]
    exact whole
  · rintro ⟨strict, _, rfl, small, same⟩
    rw [encodeComponentsList]
    refine ⟨_, decodeQuicVarint_encode small _, ?_⟩
    dsimp only
    rw [if_neg, if_neg, drop_left, componentIds_eq_ok List.Pairwise.nil, listedIds_flatMap]
    · exact ⟨strict, same⟩
    · simp
    · rw [length_append, length_flatMap_encodeComponentId]
      simp

/-- The ids in the order in which the bytes list them. -/
def idsInOrder (bytes : Bytes) : List AppComponentId :=
  match decodeQuicVarint bytes with
  | .ok (_, width) => listedIds (bytes.drop width)
  | .error _ => []

theorem idsInOrder_encode {listed : List AppComponentId} (small : listed.length * 2 < 2 ^ 62) :
    idsInOrder (encodeComponentsList listed) = listed := by
  rw [idsInOrder, encodeComponentsList, decodeQuicVarint_encode small]
  dsimp only
  rw [drop_left, listedIds_flatMap]

theorem length_sort_le (set : Finset AppComponentId) : (set.sort (· ≤ ·)).length ≤ 2 ^ 16 := by
  rw [Finset.length_sort]
  calc set.card = (set.image UInt16.toNat).card :=
        (Finset.card_image_of_injective set
          fun _ _ => UInt16.toNat_inj.mp).symm
    _ ≤ (Finset.range (2 ^ 16)).card := Finset.card_le_card fun id listed => by
        obtain ⟨id, -, rfl⟩ := Finset.mem_image.mp listed
        exact Finset.mem_range.mpr id.toNat_lt
    _ = 2 ^ 16 := Finset.card_range _

/-- **A list of components is canonical exactly when its ids ascend.** Every set is read back. -/
theorem components_list_canonical_iff (bytes : Bytes) (set : Finset AppComponentId) :
    (∀ ids, decodeComponentsList bytes = .ok ids →
      (encodeComponentsList ids = bytes ↔ (idsInOrder bytes).Pairwise (· < ·))) ∧
      decodeComponentsList (encodeComponentsList (set.sort (· ≤ ·))) = .ok (set.sort (· ≤ ·)) := by
  constructor
  · intro ids decoded
    obtain ⟨strict, listed, rfl, small, same⟩ := decodeComponentsList_eq_ok.mp decoded
    rw [idsInOrder_encode small]
    constructor
    · intro canonical
      have found := congrArg idsInOrder canonical
      rw [idsInOrder_encode (by rwa [same.length_eq]), idsInOrder_encode small] at found
      rwa [← found]
    · intro ascending
      rw [same.eq_of_pairwise' strict ascending]
  · have bound := length_sort_le set
    refine decodeComponentsList_eq_ok.mpr ⟨?_, _, rfl, by omega, List.Perm.refl _⟩
    exact pairwise_lt_iff.mpr ⟨set.pairwise_sort _, set.sort_nodup _⟩

/-- Two ids in descending order are accepted and written back in ascending order. -/
theorem descending_ids_accepted :
    decodeComponentsList [4, 0x80, 3, 0x80, 1] = .ok [0x8001, 0x8003] ∧
      encodeComponentsList [0x8001, 0x8003] = [4, 0x80, 1, 0x80, 3] := by
  decide

/-! ### The admin policy -/

/-- Keys of thirty-two bytes. A shorter rest is dropped, as `chunks_exact` does. -/
def adminKeys (bytes : Bytes) : List Bytes :=
  (range (bytes.length / 32)).map fun index => (bytes.drop (32 * index)).take 32

/-- Sorting, and dropping what repeats its neighbour. -/
def sortedUnique (admins : List Bytes) : List Bytes :=
  (admins.insertionSort (· ≤ ·)).destutter (· ≠ ·)

def decodeAdminPolicy (bytes : Bytes) : Except String (List Bytes) := do
  let (length, width) ← (decodeQuicVarint bytes).mapError
    fun error => s!"admin policy length decode failed: {error}"
  if width + length ≠ bytes.length then
    .error "admin policy has trailing bytes"
  else if length = 0 ∨ length % 32 ≠ 0 then
    .error "admin policy must contain one or more 32-byte keys"
  else
    let admins := adminKeys (bytes.drop width)
    if sortedUnique admins ≠ admins then
      .error "admin policy keys must be sorted and unique"
    else
      .ok admins

def encodeAdminPolicy (admins : List Bytes) : Except String Bytes :=
  let unique := sortedUnique admins
  if unique = [] then
    .error "admin policy must contain at least one admin"
  else
    .ok (encodeQuicVarint unique.flatten.length ++ unique.flatten)

variable {admins : List Bytes}

theorem adminKeys_append {key rest : Bytes} (size : key.length = 32) :
    adminKeys (key ++ rest) = key :: adminKeys rest := by
  have shifted (index : Nat) : drop (32 * (index + 1)) (key ++ rest) = drop (32 * index) rest := by
    rw [← size, Nat.mul_add_one, Nat.add_comm, drop_length_add_append]
  simp [adminKeys, size, range_succ_eq_map, shifted, Function.comp_def]

theorem adminKeys_flatten (keys : ∀ key ∈ admins, key.length = 32) :
    adminKeys admins.flatten = admins ∧ admins.flatten.length = 32 * admins.length := by
  induction admins with
  | nil => exact ⟨rfl, rfl⟩
  | cons key rest ih =>
    obtain ⟨size, later⟩ := forall_mem_cons.mp keys
    obtain ⟨back, _⟩ := ih later
    rw [flatten_cons, adminKeys_append size, back, length_append, length_cons]
    exact ⟨rfl, by omega⟩

theorem exists_adminKeys {count : Nat} (size : bytes.length = 32 * count) :
    ∃ admins : List Bytes, admins.flatten = bytes ∧ ∀ key ∈ admins, key.length = 32 := by
  induction count generalizing bytes with
  | zero => exact ⟨[], (eq_nil_of_length_eq_zero size).symm, by simp⟩
  | succ count ih =>
    obtain ⟨rest, same, keys⟩ := @ih (bytes.drop 32) (by rw [length_drop]; omega)
    refine ⟨bytes.take 32 :: rest, by rw [flatten_cons, same, take_append_drop], ?_⟩
    exact forall_mem_cons.mpr ⟨by rw [length_take]; omega, keys⟩

/-- **A policy is read off exactly its own bytes.** -/
theorem decodeAdminPolicy_eq_ok :
    decodeAdminPolicy bytes = .ok admins ↔
      bytes = encodeVarBytes admins.flatten ∧ admins ≠ [] ∧ sortedUnique admins = admins ∧
        (∀ key ∈ admins, key.length = 32) ∧ admins.length < 2 ^ 57 := by
  rw [decodeAdminPolicy, bind_eq_ok]
  constructor
  · rintro ⟨⟨length, width⟩, read, checked⟩
    dsimp only at checked
    split_ifs at checked with trailing shape order
    obtain ⟨small, size, whole⟩ :=
      decodeQuicVarint_whole (mapError_eq_ok.mp read) (not_not.mp trailing)
    obtain ⟨_, same, keys⟩ := @exists_adminKeys (bytes.drop width) (length / 32) (by omega)
    obtain ⟨back, count⟩ := adminKeys_flatten keys
    rw [same] at back count
    rw [back] at checked order
    cases checked
    refine ⟨same ▸ whole, ?_, not_not.mp order, keys, by omega⟩
    rintro rfl
    exact shape (Or.inl (size.symm.trans count))
  · rintro ⟨rfl, some, order, keys, _⟩
    obtain ⟨back, _⟩ := adminKeys_flatten keys
    have positive := length_pos_iff.mpr some
    refine ⟨_, mapError_eq_ok.mpr (decodeQuicVarint_encode (by omega) _), ?_⟩
    dsimp only
    rw [if_neg (by simp [encodeVarBytes]), if_neg (by omega), encodeVarBytes, drop_left, back,
      if_neg (not_not.mpr order)]

/-- **An accepted policy has an admin.** -/
theorem decodeAdminPolicy_ne_nil (decoded : decodeAdminPolicy bytes = .ok admins) : admins ≠ [] :=
  (decodeAdminPolicy_eq_ok.mp decoded).2.1

theorem sortedUnique_sublist (admins : List Bytes) :
    sortedUnique admins <+ admins.insertionSort (· ≤ ·) :=
  destutter_sublist _ _

theorem sortedUnique_idem (admins : List Bytes) :
    sortedUnique (sortedUnique admins) = sortedUnique admins := by
  have sorted := (pairwise_insertionSort (· ≤ ·) admins).sublist (sortedUnique_sublist admins)
  rw [sortedUnique, sorted.insertionSort_eq]
  exact destutter_of_isChain _ _ (isChain_destutter _ _)

/-- **A policy is canonical, and is read back**: the bytes that are accepted are the ones that are
written, for keys in any order, and they are read as these keys, sorted and without repetition. -/
theorem admin_policy_round_trip (bytes : Bytes) (admins : List Bytes) :
    decodeAdminPolicy bytes = .ok admins ↔
      admins.length < 2 ^ 57 ∧ ∃ listed, (∀ key ∈ listed, key.length = 32) ∧
        sortedUnique listed = admins ∧ encodeAdminPolicy listed = .ok bytes := by
  rw [decodeAdminPolicy_eq_ok]
  constructor
  · rintro ⟨rfl, some, order, keys, small⟩
    refine ⟨small, admins, keys, order, ?_⟩
    rw [encodeAdminPolicy, order, if_neg some, encodeVarBytes]
  · rintro ⟨small, listed, keys, rfl, encoded⟩
    rw [encodeAdminPolicy] at encoded
    split_ifs at encoded with none
    cases encoded
    refine ⟨rfl, none, sortedUnique_idem listed, fun key member => keys key ?_, small⟩
    exact (mem_insertionSort _).mp ((sortedUnique_sublist listed).subset member)

end Darkmatter
