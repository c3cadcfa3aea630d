import LoanClosing.Document.Marker
import LoanClosing.Proofs.Placeholder.Substitution

/-!
# Joining the leaves of a paragraph

A paragraph joined is its text in one leaf without formatting. Whether it is a marker, which keys it
holds, how its placeholders count and what text they leave when filled: none of that sees where one
leaf ends and the next begins, so joining first and joining last come to the same.
-/

namespace LoanClosing

namespace Glyph

/-- Glyphs without their seams. -/
def joined (glyphs : List Glyph) : List Glyph := ofChars (chars glyphs)

@[simp] theorem joined_seam (glyphs : List Glyph) : joined (.seam :: glyphs) = joined glyphs := rfl
@[simp] theorem joined_char (c : Char) (glyphs : List Glyph) :
    joined (.char c :: glyphs) = .char c :: joined glyphs := rfl

@[simp] theorem joined_append (first rest : List Glyph) :
    joined (first ++ rest) = joined first ++ joined rest := by
  simp [joined]

/-- Glyphs without a seam are the glyphs of their characters. -/
theorem ofChars_chars {glyphs : List Glyph} (h : glyphs.count .seam = 0) :
    ofChars (chars glyphs) = glyphs := by
  induction glyphs with
  | nil => rfl
  | cons glyph glyphs ih =>
    cases glyph with
    | seam => simp at h
    | char c =>
      rw [chars_char, ofChars, List.map_cons]
      exact congrArg (.char c :: ·) (ih (by simpa using h))

/-- Seams are no braces, so joining brings in none. -/
theorem isBrace_of_mem_joined {glyphs : List Glyph}
    (h : ∀ glyph ∈ glyphs, glyph.isBrace = false) :
    ∀ glyph ∈ joined glyphs, glyph.isBrace = false := by
  intro glyph hg
  obtain ⟨c, hc, rfl⟩ := List.mem_map.mp hg
  obtain ⟨other, ho, he⟩ := List.mem_filterMap.mp hc
  cases other with
  | seam => simp [char?] at he
  | char d =>
    obtain rfl : d = c := by simpa [char?] using he
    exact h _ ho

/-- A closing brace that is the next brace after joining is the next brace before it. -/
theorem dropWhile_of_joined {glyphs rest : List Glyph}
    (h : (joined glyphs).dropWhile (!·.isBrace) = .char '\x7d' :: rest) :
    ∃ rest, glyphs.dropWhile (!·.isBrace) = .char '\x7d' :: rest := by
  induction glyphs with
  | nil => simp [joined, ofChars] at h
  | cons glyph glyphs ih =>
    cases glyph with
    | seam => exact ih h
    | char c =>
      rw [joined_char] at h
      by_cases hb : (Glyph.char c).isBrace = true
      · simp only [List.dropWhile_cons, hb, Bool.not_true, Bool.false_eq_true, if_false,
          List.cons.injEq] at h
        refine ⟨glyphs, ?_⟩
        rw [List.dropWhile_cons_of_neg (by simp [hb]), h.1]
      · simp only [List.dropWhile_cons, hb, Bool.not_false, if_true] at h ⊢
        exact ih h

end Glyph

namespace Segment

/-- A segment without its seams, if anything is left of it. -/
def joined? : Segment → Option Segment
  | .plain .seam => none
  | .plain (.char c) => some (.plain (.char c))
  | .placeholder inner => some (.placeholder (Glyph.joined inner))

/-- Glyphs without seams have the segments of the glyphs, without their seams. -/
theorem scan_joined (glyphs : List Glyph) :
    scan (Glyph.joined glyphs) = (scan glyphs).filterMap joined? := by
  induction glyphs using induction_on_scan with
  | nil => simp [Glyph.joined, Glyph.ofChars]
  | other glyph rest h ih =>
    rw [scan_of_ne h]
    cases glyph with
    | seam => rw [Glyph.joined_seam, List.filterMap_cons, joined?, ih]
    | char c => rw [Glyph.joined_char, scan_of_ne h, ih, List.filterMap_cons, joined?]
  | unclosed rest h ih =>
    have hj : ∀ more, (Glyph.joined rest).dropWhile (!·.isBrace) ≠ .char '\x7d' :: more := by
      intro more he
      obtain ⟨before, hb⟩ := Glyph.dropWhile_of_joined he
      exact h before hb
    rw [Glyph.joined_char, scan_of_unclosed hj, scan_of_unclosed h, ih, List.filterMap_cons,
      joined?]
  | placeholder inner rest h ih =>
    rw [Glyph.joined_char, Glyph.joined_append, Glyph.joined_char,
      scan_placeholder (Glyph.isBrace_of_mem_joined h), scan_placeholder h, ih,
      List.filterMap_cons, joined?]

/-- Joining leaves the keys as they are. -/
theorem key?_joined (segments : List Segment) :
    (segments.filterMap joined?).filterMap key? = segments.filterMap key? := by
  induction segments with
  | nil => rfl
  | cons segment segments ih =>
    match segment with
    | .plain .seam =>
      rw [List.filterMap_cons, joined?, List.filterMap_cons, key?]
      exact ih
    | .plain (.char c) =>
      rw [List.filterMap_cons, joined?, List.filterMap_cons, List.filterMap_cons, key?]
      exact ih
    | .placeholder inner =>
      rw [List.filterMap_cons, joined?, List.filterMap_cons, List.filterMap_cons, key?, key?,
        Glyph.joined, Glyph.chars_ofChars]
      exact congrArg (Glyph.chars inner :: ·) ih

end Segment

namespace Placeholder

/-- Joining leaves the filled text as it is. -/
theorem chars_fill_joined (scope : Scope) (segments : List Segment) :
    Glyph.chars ((segments.filterMap Segment.joined?).flatMap (fillSegment scope)) =
      Glyph.chars (segments.flatMap (fillSegment scope)) := by
  induction segments with
  | nil => rfl
  | cons segment segments ih =>
    match segment with
    | .plain .seam =>
      rw [List.filterMap_cons, Segment.joined?, List.flatMap_cons, Glyph.chars_append]
      exact ih
    | .plain (.char c) =>
      rw [List.filterMap_cons, Segment.joined?, List.flatMap_cons, List.flatMap_cons,
        Glyph.chars_append, Glyph.chars_append, ih]
    | .placeholder inner =>
      rw [List.filterMap_cons, Segment.joined?, List.flatMap_cons, List.flatMap_cons,
        Glyph.chars_append, Glyph.chars_append, ih]
      congr 1
      rw [fillSegment, fillSegment, Glyph.joined, Glyph.chars_ofChars]
      cases filling scope (Glyph.chars inner) <;> simp [Segment.glyphs]

/-- Joining leaves the tally as it is. -/
theorem sum_tally_joined (scope : Scope) (segments : List Segment) :
    Tally.sum ((segments.filterMap Segment.joined?).map (tallySegment scope)) =
      Tally.sum (segments.map (tallySegment scope)) := by
  induction segments with
  | nil => rfl
  | cons segment segments ih =>
    match segment with
    | .plain .seam =>
      rw [List.filterMap_cons, Segment.joined?, List.map_cons, Tally.sum, tallySegment, ih,
        Tally.zero_add]
    | .plain (.char c) =>
      rw [List.filterMap_cons, Segment.joined?, List.map_cons, List.map_cons, Tally.sum, Tally.sum,
        ih]
    | .placeholder inner =>
      rw [List.filterMap_cons, Segment.joined?, List.map_cons, List.map_cons, Tally.sum, Tally.sum,
        ih, tallySegment, tallySegment, Glyph.joined, Glyph.chars_ofChars]

end Placeholder

namespace Block

/-- The text of a paragraph in one leaf without formatting. -/
def joined (block : Block) : Block := .ofText block.plainText

@[simp] theorem chars_ofText (text : String) : (ofText text).chars = text.toList := by
  simp [ofText, chars, Leaf.plain]

@[simp] theorem chars_joined (block : Block) : block.joined.chars = block.chars := by
  rw [joined, chars_ofText, plainText, String.toList_ofList]

@[simp] theorem segments_joined (block : Block) :
    block.joined.segments = block.segments.filterMap Segment.joined? := by
  have hl : block.joined.leaves.map (·.text.toList) = [block.chars] := by
    simp [joined, ofText, Leaf.plain, plainText]
  rw [segments, segments, hl, ← Segment.scan_joined, Glyph.joined, Glyph.chars_ofTexts,
    ← chars_eq_flatten, Glyph.ofTexts]

@[simp] theorem keys_joined (block : Block) : block.joined.keys = block.keys := by
  rw [keys_eq, keys_eq, segments_joined, Segment.key?_joined]

@[simp] theorem tally_joined (scope : Scope) (block : Block) :
    block.joined.tally scope = block.tally scope := by
  rw [tally_eq, tally_eq, segments_joined, Placeholder.sum_tally_joined, chars_joined]

/-- Other texts, one for each leaf, are the characters of the paragraph. -/
theorem chars_withTexts (block : Block) {texts : List (List Char)}
    (h : texts.length = block.leaves.length) : (block.withTexts texts).chars = texts.flatten := by
  obtain ⟨leaves, format⟩ := block
  rw [chars_eq_flatten]
  simp only [withTexts] at h ⊢
  congr 1
  induction leaves generalizing texts with
  | nil => rw [List.length_eq_zero_iff.mp h]; rfl
  | cons leaf leaves ih =>
    cases texts with
    | nil => simp at h
    | cons cs texts =>
      simp only [List.zipWith_cons_cons, List.map_cons, String.toList_ofList, List.cons.injEq,
        true_and]
      exact ih (by simpa using h)

/-- Filling leaves a text for each leaf. -/
theorem length_texts_fill (scope : Scope) (leaf : Leaf) (leaves : List Leaf) (format : Json) :
    (Glyph.texts ((segments ⟨leaf :: leaves, format⟩).flatMap
      (Placeholder.fillSegment scope))).length = leaves.length + 1 := by
  rw [Glyph.length_texts, Placeholder.count_seam_flatMap_fillSegment, segments,
    Segment.flatMap_glyphs_scan, List.map_cons, Glyph.count_seam_ofTexts, List.length_map]

/-- The text of a filled paragraph is that of its filled segments. -/
theorem chars_fill (scope : Scope) (block : Block) :
    (block.fill scope).chars =
      Glyph.chars (block.segments.flatMap (Placeholder.fillSegment scope)) := by
  obtain ⟨leaves, format⟩ := block
  rw [fill_eq]
  cases leaves with
  | nil => simp [withTexts, chars, segments, Glyph.ofTexts]
  | cons leaf leaves =>
    rw [chars_withTexts _ (length_texts_fill scope leaf leaves format), Glyph.flatten_texts]

/-- Filling a joined paragraph is joining the filled one. -/
@[simp] theorem fill_joined (scope : Scope) (block : Block) :
    block.joined.fill scope = (block.fill scope).joined := by
  have hc : Glyph.chars (block.joined.segments.flatMap (Placeholder.fillSegment scope)) =
      (block.fill scope).chars := by
    rw [segments_joined, Placeholder.chars_fill_joined, chars_fill]
  have hn : (block.joined.segments.flatMap (Placeholder.fillSegment scope)).count .seam = 0 := by
    rw [Placeholder.count_seam_flatMap_fillSegment, segments, Segment.flatMap_glyphs_scan]
    simp [joined, ofText, Leaf.plain, Glyph.ofTexts]
  rw [fill_eq, ← Glyph.ofChars_chars hn, hc, Glyph.texts_ofChars]
  simp [joined, withTexts, ofText, Leaf.plain, plainText]

end Block

/-- Joining leaves a marker as it is. -/
@[simp] theorem Marker.ofBlock?_joined (block : Block) :
    ofBlock? block.joined = ofBlock? block := by
  rw [ofBlock?, ofBlock?, Block.normalizedText, Block.normalizedText, Block.chars_joined]

end LoanClosing
