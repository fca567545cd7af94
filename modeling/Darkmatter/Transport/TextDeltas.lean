/-
**Cutting a text into the deltas of a stream.**

A text is sent in chunks of bytes up to a limit. A chunk is pushed when the next character does not
fit into it, and a character over the limit is a chunk of its own.

* `splitTextDeltas` — the chunks of a text;
* `splitTextDeltas_greedy` — **they are whole characters and give the text back**, none takes the
  next character within the limit, and there are no fewer chunks within the limit.
-/

import Darkmatter.Lib.Chunks

namespace Darkmatter

open Lib List Char

/-- The chunks that the characters add to the current one. -/
def textDeltas (maxChunkBytes : Nat) (current : List Char) : List Char → List (List Char)
  | [] => if current = [] then [] else [current]
  | ch :: rest =>
    let full := current ≠ [] ∧ weightOf utf8Size current + ch.utf8Size > maxChunkBytes
    let kept := if full then [] else current
    (if full then [current] else []) ++
      if kept = [] ∧ ch.utf8Size > maxChunkBytes then [ch] :: textDeltas maxChunkBytes kept rest
      else textDeltas maxChunkBytes (kept ++ [ch]) rest

def intoBytes (chunk : List Char) : ByteArray := (String.ofList chunk).toUTF8

def splitTextDeltas (text : String) (maxChunkBytes : Nat) : List ByteArray :=
  if text.isEmpty then [] else (textDeltas maxChunkBytes [] text.toList).map intoBytes

theorem intoBytes_size (chunk : List Char) : (intoBytes chunk).size = weightOf utf8Size chunk := by
  induction chunk with
  | nil => rfl
  | cons ch rest ih =>
    have size : (String.ofList (ch :: rest)).utf8ByteSize =
        ch.utf8Size + (String.ofList rest).utf8ByteSize := by simp
    exact size.trans (congrArg (ch.utf8Size + ·) ih)

variable {maxChunkBytes : Nat} {current : List Char}

/-- **The chunks are greedy and lossless**, as long as what is current fits. -/
theorem textDeltas_spec (text : List Char) (fits : weightOf utf8Size current ≤ maxChunkBytes) :
    (textDeltas maxChunkBytes current text).flatten = current ++ text ∧
      Greedy utf8Size maxChunkBytes (textDeltas maxChunkBytes current text) := by
  induction text generalizing current with
  | nil =>
    rw [textDeltas]
    split_ifs with none
    · exact ⟨by rw [none]; rfl, trivial⟩
    · refine ⟨rfl, none, fun above => absurd fits (Nat.not_le.mpr above), ?_, trivial⟩
      rintro next ⟨⟩
  | cons ch rest ih =>
    -- What comes from the character on, with what is kept for it.
    have step : ∀ kept later, (kept ≠ [] → weightOf utf8Size kept + ch.utf8Size ≤ maxChunkBytes) →
        (if kept = [] ∧ ch.utf8Size > maxChunkBytes then [ch] :: textDeltas maxChunkBytes kept rest
          else textDeltas maxChunkBytes (kept ++ [ch]) rest) = later →
        later.flatten = kept ++ ch :: rest ∧ Greedy utf8Size maxChunkBytes later := by
      rintro kept _ room rfl
      split_ifs with wide
      · obtain ⟨rfl, wide⟩ := wide
        obtain ⟨flat, greedy⟩ := @ih [] (Nat.zero_le _)
        refine ⟨by rw [flatten_cons, flat]; rfl, cons_ne_nil _ _, fun _ => rfl, ?_, greedy⟩
        exact fun _ _ => Nat.lt_add_right _ wide
      · have fits : weightOf utf8Size (kept ++ [ch]) ≤ maxChunkBytes := by
          by_cases none : kept = []
          · rw [none]
            exact Nat.not_lt.mp fun above => wide ⟨none, above⟩
          · simpa [weightOf] using room none
        obtain ⟨flat, greedy⟩ := ih fits
        exact ⟨by rw [flat, append_assoc]; rfl, greedy⟩
    by_cases full : current ≠ [] ∧ weightOf utf8Size current + ch.utf8Size > maxChunkBytes
    · obtain ⟨flat, greedy⟩ := step [] _ (absurd rfl) rfl
      rw [textDeltas, if_pos full, if_pos full, singleton_append]
      refine ⟨by rw [flatten_cons, flat]; rfl, full.1, fun above => absurd fits above.not_ge, ?_,
        greedy⟩
      rw [flat]
      rintro next ⟨⟩
      exact full.2
    · rw [textDeltas, if_neg full, if_neg full]
      exact step current _ (fun some => Nat.not_lt.mp fun above => full ⟨some, above⟩) rfl

/-- **Greedy and lossless.** The chunks are of whole characters, they give the text back, none but a
single character is over the limit, and none could take the next character. With a limit of four
bytes all are within it. Chunks within the limit that give the text back are not fewer. -/
theorem splitTextDeltas_greedy (text : String) (maxChunkBytes : Nat) :
    ∃ chunks : List (List Char), splitTextDeltas text maxChunkBytes = chunks.map intoBytes ∧
      chunks.flatten = text.toList ∧ Greedy utf8Size maxChunkBytes chunks ∧
      (4 ≤ maxChunkBytes → ∀ chunk ∈ chunks, (intoBytes chunk).size ≤ maxChunkBytes) ∧
      ∀ pieces : List (List Char), pieces.flatten = text.toList →
        (∀ piece ∈ pieces, (intoBytes piece).size ≤ maxChunkBytes) →
          chunks.length ≤ pieces.length := by
  obtain ⟨flat, greedy⟩ := @textDeltas_spec maxChunkBytes [] text.toList (Nat.zero_le _)
  refine ⟨_, ?_, flat, greedy, fun wide chunk member => ?_, fun pieces same fits => ?_⟩
  · rw [splitTextDeltas]
    split_ifs with empty
    · rw [String.isEmpty_iff.mp empty]
      rfl
    · rfl
  · rw [intoBytes_size]
    by_contra above
    obtain ⟨ch, rfl⟩ := length_eq_one_iff.mp ((greedy.within chunk member).2 (Nat.not_le.mp above))
    exact above ((utf8Size_le_four ch).trans wide)
  · refine greedy.length_le (same.trans flat.symm : _ = [] ++ _) fun piece here => ?_
    rw [← intoBytes_size]
    exact fits piece here

end Darkmatter
