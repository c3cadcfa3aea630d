import LoanClosing.Proofs.Placeholder.Span

/-!
# Substitution by segments

A scan of the leaves finds the placeholders among the segments of their text, each with the place
where it begins and the place behind it, and what is open at the end of it is the last brace, if
that one opens. Filling these placeholders from the last one to the first comes to filling the
segments: behind an edit the text is already filled, in front of it nothing has changed, so the
places found before the first edit are still right. Hence there always is a result.
-/

namespace LoanClosing

open Glyph

namespace Placeholder

/-- The placeholders among segments that begin at a place. -/
def tokens (place : Place) : List Segment → List Token
  | [] => []
  | .plain glyph :: segments => tokens (place.behind [glyph]) segments
  | .placeholder inner :: segments =>
    let last := place.behind (Segment.placeholder inner).glyphs
    ⟨place, last, Glyph.chars inner⟩ :: tokens last segments

namespace Scan

/-- Takes in glyphs that begin at a place. -/
def glyphs (scan : Scan) (place : Place) : List Glyph → Scan
  | [] => scan
  | .char c :: rest => (scan.char place c).glyphs (place.after c) rest
  | .seam :: rest => scan.glyphs ⟨place.leaf + 1, 0⟩ rest

theorem glyphs_append (scan : Scan) (place : Place) (first rest : List Glyph) :
    scan.glyphs place (first ++ rest) =
      (scan.glyphs place first).glyphs (place.behind first) rest := by
  induction first generalizing scan place with
  | nil => rfl
  | cons glyph first ih =>
    cases glyph with
    | seam => exact ih _ _
    | char c => exact ih _ _

/-- A text is taken in as its glyphs. -/
theorem glyphs_ofChars (scan : Scan) (place : Place) (cs : List Char) :
    scan.glyphs place (ofChars cs) = scan.chars place cs := by
  induction cs generalizing scan place with
  | nil => rfl
  | cons c cs ih => exact ih _ _

/-- Leaves are taken in as the glyphs of their texts. -/
theorem leaves_eq_glyphs (scan : Scan) (n : Nat) (leaves : List Leaf) :
    scan.leaves n leaves = scan.glyphs ⟨n, 0⟩ (ofTexts (leaves.map (·.text.toList))) := by
  induction leaves generalizing scan n with
  | nil => rfl
  | cons leaf leaves ih =>
    cases leaves with
    | nil => exact (glyphs_ofChars scan ⟨n, 0⟩ leaf.text.toList).symm
    | cons other leaves =>
      have ho : ofTexts ((leaf :: other :: leaves).map (·.text.toList)) =
          ofChars leaf.text.toList ++ .seam :: ofTexts ((other :: leaves).map (·.text.toList)) :=
        rfl
      rw [ho, glyphs_append, glyphs_ofChars, Place.behind_ofChars, glyphs, Scan.leaves, ih]

variable {found : List Token} {first place : Place} {key : List Char}

/-- Without braces all characters belong to the key of the placeholder that is open. -/
theorem glyphs_of_noBrace {inner : List Glyph} (h : ∀ glyph ∈ inner, glyph.isBrace = false) :
    (⟨found, some (first, key)⟩ : Scan).glyphs place inner =
      ⟨found, some (first, key ++ Glyph.chars inner)⟩ := by
  induction inner generalizing place key with
  | nil => rw [glyphs, chars_nil, List.append_nil]
  | cons glyph inner ih =>
    have hi : ∀ glyph ∈ inner, glyph.isBrace = false := fun g hg ↦ h g (List.mem_cons_of_mem _ hg)
    cases glyph with
    | seam => exact ih hi
    | char c =>
      have hc : c ≠ '\x7b' ∧ c ≠ '\x7d' := by
        simpa [Glyph.isBrace] using h (.char c) List.mem_cons_self
      rw [glyphs, char, if_neg hc.1, if_neg hc.2, Option.map_some, ih hi, chars_char,
        List.append_assoc, List.singleton_append]

/-- An opening brace, glyphs without braces and a closing brace are a placeholder, whatever was open
in front of them. -/
theorem glyphs_placeholder {inner : List Glyph} (h : ∀ glyph ∈ inner, glyph.isBrace = false)
    (scan : Scan) (place : Place) :
    scan.glyphs place (Segment.placeholder inner).glyphs =
      ⟨scan.tokens ++ [⟨place, place.behind (Segment.placeholder inner).glyphs,
        Glyph.chars inner⟩], none⟩ := by
  have hopen : scan.char place '\x7b' = ⟨scan.tokens, some (place, [])⟩ := rfl
  rw [Segment.glyphs, glyphs, hopen, glyphs_append, glyphs_of_noBrace h, List.nil_append,
    Place.behind, Place.behind_append]
  rfl

/-- Where no closing brace is the next one, what is open makes no difference to the placeholders. -/
theorem tokens_glyphs_of_unclosed {all : List Glyph}
    (h : ∀ rest, all.dropWhile (!·.isBrace) ≠ .char '\x7d' :: rest)
    (opened : Option (Place × List Char)) :
    ((⟨found, opened⟩ : Scan).glyphs place all).tokens =
      ((⟨found, none⟩ : Scan).glyphs place all).tokens := by
  induction all generalizing place opened with
  | nil => rfl
  | cons glyph all ih =>
    cases glyph with
    | seam => exact ih h opened
    | char c =>
      by_cases ho : c = '\x7b'
      · rw [glyphs, glyphs, char, char, if_pos ho, if_pos ho]
      · by_cases hc : c = '\x7d'
        · exact absurd (by rw [hc]; rfl) (h all)
        · have hr : ∀ rest, all.dropWhile (!·.isBrace) ≠ .char '\x7d' :: rest := by
            rw [List.dropWhile_cons_of_pos (by simp [Glyph.isBrace, ho, hc])] at h
            exact h
          rw [glyphs, glyphs, char, char, if_neg ho, if_neg ho, if_neg hc, if_neg hc]
          exact ih hr _

/-- A scan of glyphs finds the placeholders among their segments. -/
theorem tokens_glyphs (found : List Token) (place : Place) (all : List Glyph) :
    ((⟨found, none⟩ : Scan).glyphs place all).tokens =
      found ++ Placeholder.tokens place (Segment.scan all) := by
  induction all using Segment.induction_on_scan generalizing found place with
  | nil => rw [Segment.scan_nil, Placeholder.tokens, List.append_nil, glyphs]
  | other glyph rest h ih =>
    rw [Segment.scan_of_ne h, Placeholder.tokens]
    cases glyph with
    | seam => exact ih found _
    | char c =>
      have ho : c ≠ '\x7b' := by
        rintro rfl
        exact h rfl
      have hs : (⟨found, none⟩ : Scan).char place c = ⟨found, none⟩ := by
        simp [char, ho]
      rw [glyphs, hs, ih]
      rfl
  | unclosed rest h ih =>
    rw [Segment.scan_of_unclosed h, Placeholder.tokens]
    exact (tokens_glyphs_of_unclosed h _).trans (ih found _)
  | placeholder inner rest h ih =>
    have hg : .char '\x7b' :: (inner ++ .char '\x7d' :: rest) =
        (Segment.placeholder inner).glyphs ++ rest := by
      simp [Segment.glyphs]
    rw [Segment.scan_placeholder h, Placeholder.tokens, hg, glyphs_append, glyphs_placeholder h, ih,
      List.append_assoc, List.singleton_append]

/-- At the end a brace is open if the last one opens, or if there is none and one was open
before. -/
theorem isSome_opened_glyphs (scan : Scan) (place : Place) (all : List Glyph) :
    (scan.glyphs place all).opened.isSome =
      match ((Glyph.chars all).filter fun c ↦ c == '\x7b' || c == '\x7d').getLast? with
      | some c => c == '\x7b'
      | none => scan.opened.isSome := by
  induction all generalizing scan place with
  | nil => rfl
  | cons glyph all ih =>
    cases glyph with
    | seam => exact ih scan _
    | char c =>
      rw [glyphs, ih, chars_char]
      by_cases ho : c = '\x7b'
      · subst ho
        rw [List.filter_cons_of_pos rfl, List.getLast?_cons]
        cases List.getLast? _ <;> rfl
      · by_cases hc : c = '\x7d'
        · subst hc
          rw [List.filter_cons_of_pos rfl, List.getLast?_cons, char, if_neg ho, if_pos rfl]
          cases hs : scan.opened <;> cases List.getLast? _ <;> simp [hs]
        · rw [List.filter_cons_of_neg (by simp [ho, hc]), char, if_neg ho, if_neg hc]
          cases List.getLast? _ <;> simp

end Scan

/-! ### Filling from the last to the first -/

/-- No placeholder by itself leaves a brace open. -/
theorem unterminated_sum_tallySegment (scope : Scope) (segments : List Segment) :
    (Tally.sum (segments.map (tallySegment scope))).unterminated = false := by
  induction segments with
  | nil => rfl
  | cons segment segments ih =>
    rw [List.map_cons, Tally.sum, Tally.add, ih, Bool.or_false]
    cases segment with
    | plain glyph => rfl
    | placeholder inner =>
      rw [tallySegment]
      cases filling scope (Glyph.chars inner) <;> rfl

/-- Filling one placeholder fills its segment, whatever is in front of it and behind it. -/
theorem exists_fillToken? (scope : Scope) {leaves : List Leaf} {before after inner : List Glyph}
    (h : leaves.map (·.text.toList) =
      texts (before ++ ((Segment.placeholder inner).glyphs ++ after))) (tally : Tally) :
    ∃ filled,
      fillToken? scope ⟨Place.start.behind before,
          Place.start.behind (before ++ (Segment.placeholder inner).glyphs), Glyph.chars inner⟩
        (leaves, tally) =
        some (filled, (tallySegment scope (.placeholder inner)).add tally) ∧
      filled.map (·.text.toList) =
        texts (before ++ (fillSegment scope (.placeholder inner) ++ after)) ∧
      filled.map (·.format) = leaves.map (·.format) := by
  have hseam : (Segment.placeholder inner).glyphs.filter (· == .seam) =
      inner.filter (· == .seam) := by
    simp [Segment.glyphs]
  rw [fillToken?, tallySegment, fillSegment]
  cases filling scope (Glyph.chars inner) with
  | keep => exact ⟨leaves, by rw [Tally.ofFilling, Tally.zero_add], h, rfl⟩
  | unqualified =>
    refine ⟨leaves, ?_, h, rfl⟩
    simp [Tally.ofFilling, Tally.add, Tally.zero, Nat.add_comm]
  | missing =>
    obtain ⟨filled, hr, ht, hf⟩ := exists_replaceSpan? h []
    refine ⟨filled, ?_, ?_, hf⟩
    · simp [hr, Tally.ofFilling, Tally.add, Tally.zero, Nat.add_comm]
    · rw [ht, hseam]
      rfl
  | put text =>
    obtain ⟨filled, hr, ht, hf⟩ := exists_replaceSpan? h text
    refine ⟨filled, ?_, ?_, hf⟩
    · simp [hr, Tally.ofFilling, Tally.add, Tally.zero, Nat.add_comm]
    · rw [ht, hseam]

/-- Filling the placeholders among segments, the last one first, fills the segments. The text in
front of them is any text: an edit only changes what is behind it, so the induction goes from each
placeholder to those behind it. -/
theorem exists_foldrM_fillToken? (scope : Scope) (segments : List Segment) {leaves : List Leaf}
    {before : List Glyph}
    (h : leaves.map (·.text.toList) = texts (before ++ segments.flatMap Segment.glyphs))
    (tally : Tally) :
    ∃ filled,
      (tokens (Place.start.behind before) segments).foldrM (fillToken? scope) (leaves, tally) =
        some (filled, (Tally.sum (segments.map (tallySegment scope))).add tally) ∧
      filled.map (·.text.toList) = texts (before ++ segments.flatMap (fillSegment scope)) ∧
      filled.map (·.format) = leaves.map (·.format) := by
  induction segments generalizing before with
  | nil => exact ⟨leaves, by rw [List.map_nil, Tally.sum, Tally.zero_add]; rfl, h, rfl⟩
  | cons segment segments ih =>
    have hb : leaves.map (·.text.toList) =
        texts (before ++ segment.glyphs ++ segments.flatMap Segment.glyphs) := by
      rw [h, List.flatMap_cons, List.append_assoc]
    obtain ⟨behind, hr, ht, hf⟩ := ih hb
    cases segment with
    | plain glyph =>
      refine ⟨behind, ?_, ?_, hf⟩
      · rw [tokens, ← Place.behind_append, List.map_cons, Tally.sum, tallySegment, Tally.zero_add]
        exact hr
      · rw [ht, List.append_assoc, List.flatMap_cons]
        rfl
    | placeholder inner =>
      rw [List.append_assoc] at ht
      obtain ⟨filled, hr', ht', hf'⟩ := exists_fillToken? scope ht
        ((Tally.sum (segments.map (tallySegment scope))).add tally)
      refine ⟨filled, ?_, ?_, hf'.trans hf⟩
      · rw [tokens, List.foldrM_cons, ← Place.behind_append, hr, List.map_cons, Tally.sum,
          Tally.add_assoc]
        exact hr'
      · rw [ht', List.flatMap_cons]

end Placeholder

namespace Block

open Placeholder

/-- Leaves with the formatting of others are these with other texts. -/
theorem eq_zipWith_of_map {filled leaves : List Leaf} {texts : List (List Char)}
    (ht : filled.map (·.text.toList) = texts)
    (hf : filled.map (·.format) = leaves.map (·.format)) :
    filled = List.zipWith (fun leaf cs ↦ { leaf with text := String.ofList cs }) leaves texts := by
  subst ht
  induction filled generalizing leaves with
  | nil => rw [List.map_nil, List.zipWith_nil_right]
  | cons leaf filled ih =>
    cases leaves with
    | nil => simp at hf
    | cons other leaves =>
      obtain ⟨hformat, hrest⟩ := List.cons.inj hf
      have hformat : leaf.format = other.format := hformat
      rw [List.map_cons, List.zipWith_cons_cons, ← ih hrest, String.ofList_toList, ← hformat]

/-- A paragraph has the characters of its leaves. -/
theorem chars_eq_flatten (block : Block) :
    block.chars = (block.leaves.map (·.text.toList)).flatten := by
  rw [chars, List.flatMap]

/-- A scan of a paragraph finds the placeholders among its segments. -/
theorem tokens_scan (block : Block) :
    block.scan.tokens = Placeholder.tokens Place.start block.segments := by
  rw [scan, Scan.leaves_eq_glyphs, Scan.empty, Scan.tokens_glyphs, List.nil_append, segments]
  rfl

/-- At the end of a scan a brace is open if the last one opens. -/
theorem isSome_opened_scan (block : Block) :
    block.scan.opened.isSome = endsOpen block.chars := by
  rw [scan, Scan.leaves_eq_glyphs, Scan.isSome_opened_glyphs, Glyph.chars_ofTexts,
    ← chars_eq_flatten, endsOpen]
  cases List.getLast? _ <;> rfl

/-- Filling the placeholders of a paragraph by their places, from the last one to the first, has a
result: each segment of its text is filled and counted. -/
theorem substitute?_eq (scope : Scope) (block : Block) :
    block.substitute? scope =
      some (block.withTexts (Glyph.texts (block.segments.flatMap (fillSegment scope))),
        { Tally.sum (block.segments.map (tallySegment scope)) with
          unterminated := endsOpen block.chars }) := by
  obtain ⟨leaves, format⟩ := block
  cases leaves with
  | nil =>
    simp [substitute?, scan, Scan.leaves, Scan.empty, withTexts, segments, ofTexts, Tally.sum,
      chars, endsOpen]
  | cons leaf leaves =>
    have ht : (leaf :: leaves).map (·.text.toList) = Glyph.texts
        ([] ++ (segments ⟨leaf :: leaves, format⟩).flatMap Segment.glyphs) := by
      rw [List.nil_append, segments, Segment.flatMap_glyphs_scan, List.map_cons, texts_ofTexts]
    obtain ⟨filled, hr, ht, hf⟩ := exists_foldrM_fillToken? scope _ ht
      { Tally.zero with unterminated := (scan ⟨leaf :: leaves, format⟩).opened.isSome }
    have hs : (scan ⟨leaf :: leaves, format⟩).tokens =
        Placeholder.tokens (Place.start.behind []) (segments ⟨leaf :: leaves, format⟩) :=
      tokens_scan _
    have hu := unterminated_sum_tallySegment scope (segments ⟨leaf :: leaves, format⟩)
    rw [List.nil_append] at ht
    rw [isSome_opened_scan] at hr
    simp only [substitute?, hs, isSome_opened_scan, hr, withTexts, ← eq_zipWith_of_map ht hf]
    simp [Tally.add, Tally.zero, hu]

/-- A filled paragraph has its segments filled. -/
theorem fill_eq (scope : Scope) (block : Block) :
    block.fill scope =
      block.withTexts (Glyph.texts (block.segments.flatMap (fillSegment scope))) := by
  rw [fill, substitute?_eq]
  rfl

/-- A tally counts the segments, and is unterminated if the last brace opens. -/
theorem tally_eq (scope : Scope) (block : Block) :
    block.tally scope =
      { Tally.sum (block.segments.map (tallySegment scope)) with
        unterminated := endsOpen block.chars } := by
  rw [tally, substitute?_eq]
  rfl

/-- The keys of a paragraph are those of its segments that are paths or stand for a tab. -/
theorem keys_eq (block : Block) :
    block.keys = ((block.segments.filterMap Segment.key?).filter fun key ↦
      key == tabKey || isPath key).map String.ofList := by
  have hk (place : Place) (segments : List Segment) :
      (Placeholder.tokens place segments).map (·.key) = segments.filterMap Segment.key? := by
    induction segments generalizing place with
    | nil => rfl
    | cons segment segments ih =>
      cases segment with
      | plain glyph => exact ih _
      | placeholder inner =>
        rw [Placeholder.tokens, List.map_cons, ih]
        rfl
  rw [keys, tokens_scan, hk]

end Block

end LoanClosing
