import LoanClosing.Proofs.Placeholder.Flat

/-!
# Filling leaf by leaf

Filling takes the text of a paragraph apart into segments and puts the leaves together again. It
comes to the same to go through each leaf character by character and leave what the flat text says
about that place. The counts of a tally are read off the tokens of the flat text as well.
-/

namespace LoanClosing

namespace Placeholder

/-- What becomes of a placeholder, by what replaces its token. -/
theorem fillSegment_eq (scope : Scope) (inner : List Glyph) :
    fillSegment scope (.placeholder inner) =
      match Flat.replacement? scope (Glyph.chars inner) with
      | some text => Glyph.ofChars text ++ inner.filter (· == .seam)
      | none => (Segment.placeholder inner).glyphs := by
  rw [fillSegment, Flat.replacement?]
  cases filling scope (Glyph.chars inner) <;> rfl

end Placeholder

namespace Glyph

open Flat

variable {scope : Scope} {before : List Char} {rest : List Glyph}

/-- A character that begins no token is a step of its own. -/
theorem spread_standing_char {c : Char} (h : Apart before (c :: chars rest))
    (hc : keyAtFront? (c :: chars rest) = none) :
    spread (standing scope (before ++ c :: chars rest)) before.length (.char c :: rest) =
      .char c :: spread (standing scope (before ++ [c] ++ chars rest)) (before ++ [c]).length
        rest := by
  rw [spread, standing_of_apart h (by rw [hc]; rfl)]
  simp [ofChars]

/-- A token is one step: it is replaced or stays, and its seams stay. -/
theorem spread_standing_token {inner : List Glyph}
    (hi : ∀ glyph ∈ inner, glyph.isBrace = false)
    (h : Apart before ('\x7b' :: (chars inner ++ '\x7d' :: chars rest))) :
    spread (standing scope (before ++ '\x7b' :: (chars inner ++ '\x7d' :: chars rest)))
        before.length (.char '\x7b' :: (inner ++ .char '\x7d' :: rest)) =
      Placeholder.fillSegment scope (.placeholder inner) ++
        spread (standing scope (before ++ '\x7b' :: (chars inner ++ ['\x7d']) ++ chars rest))
          (before ++ '\x7b' :: (chars inner ++ ['\x7d'])).length rest := by
  have hb := isBrace_chars hi
  have hl : chars (inner ++ [.char '\x7d']) = chars inner ++ ['\x7d'] := by simp
  have he : before ++ '\x7b' :: (chars inner ++ ['\x7d']) ++ chars rest =
      before ++ '\x7b' :: (chars inner ++ '\x7d' :: chars rest) := by simp
  have hg : inner ++ .char '\x7d' :: rest = inner ++ [.char '\x7d'] ++ rest := by simp
  have hn : (before ++ '\x7b' :: (chars inner ++ ['\x7d'])).length =
      before.length + 1 + (chars inner ++ ['\x7d']).length := by
    simp only [List.length_append, List.length_cons, List.length_nil]
    omega
  rw [he, hg, spread, spread_append, hl, hn, Placeholder.fillSegment_eq, ← List.append_assoc]
  congr 1
  -- What stands behind the opening brace: the seams alone, or the token as it is.
  generalize ho : standing scope (before ++ '\x7b' :: (chars inner ++ '\x7d' :: chars rest)) = out
  cases hr : replacement? scope (chars inner) with
  | some text =>
    have hs : spread out (before.length + 1) (inner ++ [.char '\x7d']) =
        (inner ++ [Glyph.char '\x7d']).filter (· == Glyph.seam) := by
      apply spread_of_nil
      intro n hn
      rw [← ho]
      apply standing_of_replaced hb hr
      rw [hl, List.length_append, List.length_singleton] at hn
      omega
    have hf : (inner ++ [Glyph.char '\x7d']).filter (· == Glyph.seam) =
        inner.filter (· == Glyph.seam) := by
      simp [List.filter_append]
    rw [← ho, standing_of_replacement hb hr, ho, hs, hf]
  | none =>
    have hs : spread out (before.length + 1) (inner ++ [.char '\x7d']) =
        inner ++ [.char '\x7d'] := by
      apply spread_of_self
      intro n hn
      rw [hl, List.length_append, List.length_singleton] at hn
      rw [← ho, standing_of_kept hb h hr (by omega), ← he, List.append_assoc,
        List.getElem?_append_right (by omega), hl, List.cons_append,
        show before.length + 1 + n - before.length = n + 1 by omega, List.getElem?_cons_succ,
        List.getElem?_append_left (by simpa using hn)]
    rw [← ho, standing_of_apart h (by rw [keyAtFront?_token hb]; exact hr), ho, hs]
    rfl

end Glyph

namespace Placeholder

/-- Filling the segments of glyphs puts for each character what stands at its place, whatever text
is in front, as long as no token of that text ends behind it. -/
theorem fill_scan_eq_spread (scope : Scope) (glyphs : List Glyph) (before : List Char)
    (h : Flat.Apart before (Glyph.chars glyphs)) :
    (Segment.scan glyphs).flatMap (fillSegment scope) =
      Glyph.spread (Flat.standing scope (before ++ Glyph.chars glyphs)) before.length glyphs := by
  induction glyphs using Segment.induction_on_scan generalizing before with
  | nil => simp [Glyph.spread]
  | other glyph rest hg ih =>
    rw [Segment.scan_of_ne hg, List.flatMap_cons, fillSegment, List.singleton_append]
    cases glyph with
    | seam =>
      rw [Glyph.spread, ih before h]
      rfl
    | char c =>
      have hne : c ≠ '\x7b' := by
        rintro rfl
        exact hg rfl
      have hc := Flat.keyAtFront?_of_ne hne (Glyph.chars rest)
      rw [Glyph.chars_char] at h ⊢
      rw [Glyph.spread_standing_char h hc, ih _ (h.snoc hc)]
  | unclosed rest hg ih =>
    have hc := Glyph.keyAtFront?_of_unclosed hg
    rw [Glyph.chars_char] at h ⊢
    rw [Segment.scan_of_unclosed hg, List.flatMap_cons, fillSegment, List.singleton_append,
      Glyph.spread_standing_char h hc, ih _ (h.snoc hc)]
  | placeholder inner rest hg ih =>
    have hc : Glyph.chars (.char '\x7b' :: (inner ++ .char '\x7d' :: rest)) =
        '\x7b' :: (Glyph.chars inner ++ '\x7d' :: Glyph.chars rest) := by simp
    rw [hc] at h ⊢
    rw [Segment.scan_placeholder hg, List.flatMap_cons, Glyph.spread_standing_token hg h,
      ih _ (h.token (Glyph.isBrace_chars hg))]

/-- A key whose token is replaced: the one for a tab, or a path that leads to a value or nowhere. -/
theorem replacement?_eq_some_iff {scope : Scope} {key text : List Char} :
    Flat.replacement? scope key = some text ↔
      (key = tabKey ∧ text = ['\t']) ∨ (key ≠ tabKey ∧ isPath key = true ∧
        ((∃ value, scope.resolve (String.ofList key) = .found value ∧ text = value.render.toList) ∨
          (scope.resolve (String.ofList key) = .missing ∧ text = []))) := by
  rw [Flat.replacement?, filling]
  by_cases ht : key = tabKey
  · simp only [ht, if_true, Option.some.injEq, true_and, ne_eq, not_true, false_and, or_false]
    exact eq_comm
  · by_cases hp : isPath key = true
    · cases scope.resolve (String.ofList key) <;> simp [ht, hp, eq_comm]
    · simp [ht, hp]

/-- A key whose path leads nowhere. -/
theorem filling_eq_missing_iff {scope : Scope} {key : List Char} :
    filling scope key = .missing ↔
      key ≠ tabKey ∧ isPath key = true ∧ scope.resolve (String.ofList key) = .missing := by
  rw [filling]
  by_cases ht : key = tabKey
  · simp [ht]
  · by_cases hp : isPath key = true
    · cases scope.resolve (String.ofList key) <;> simp [ht, hp]
    · simp [ht, hp]

/-- A key is either replaced or starts with no name in scope, if it is a path or stands for a tab;
no other key is. -/
theorem replaced_add_unqualified (scope : Scope) (key : List Char) :
    (if (Flat.replacement? scope key).isSome then 1 else 0) +
        (if filling scope key = .unqualified then 1 else 0) =
      if key == tabKey || isPath key then 1 else 0 := by
  rw [Flat.replacement?, filling]
  by_cases ht : key = tabKey
  · simp [ht]
  · by_cases hp : isPath key = true
    · cases scope.resolve (String.ofList key) <;> simp [ht, hp]
    · simp [ht, hp]

/-- The tallies of segments count the keys that are replaced, those whose path leads nowhere, and
those that start with no name in scope. -/
theorem sum_tallySegment (scope : Scope) (segments : List Segment) :
    Tally.sum (segments.map (tallySegment scope)) =
      { replaced := (segments.filterMap Segment.key?).countP fun key ↦
          (Flat.replacement? scope key).isSome
        missing := (segments.filterMap Segment.key?).countP fun key ↦ filling scope key = .missing
        unqualified := (segments.filterMap Segment.key?).countP fun key ↦
          filling scope key = .unqualified
        unterminated := false } := by
  induction segments with
  | nil => rfl
  | cons segment segments ih =>
    rw [List.map_cons, Tally.sum, ih, List.filterMap_cons]
    cases segment with
    | plain glyph => rw [tallySegment, Segment.key?, Tally.zero_add]
    | placeholder inner =>
      rw [tallySegment, Segment.key?]
      simp only [List.countP_cons, Flat.replacement?]
      cases filling scope (Glyph.chars inner) <;>
        simp [Tally.ofFilling, Tally.add, Tally.zero, Nat.add_comm]

/-- Among keys, those that are replaced and those that start with no name in scope are the paths and
the keys for a tab. -/
theorem countP_replaced_add_unqualified (scope : Scope) (keys : List (List Char)) :
    (keys.countP fun key ↦ (Flat.replacement? scope key).isSome) +
        (keys.countP fun key ↦ filling scope key = .unqualified) =
      (keys.filter fun key ↦ key == tabKey || isPath key).length := by
  rw [← List.countP_eq_length_filter]
  induction keys with
  | nil => rfl
  | cons key keys ih =>
    have h := replaced_add_unqualified scope key
    simp only [List.countP_cons, decide_eq_true_eq]
    omega

/-- The last brace of a text opens. -/
theorem endsOpen_iff {cs : List Char} :
    endsOpen cs = true ↔
      ∃ before after, cs = before ++ '\x7b' :: after ∧ ∀ c ∈ after, Flat.isBrace c = false := by
  rw [endsOpen, beq_iff_eq, List.getLast?_eq_head?_reverse, ← List.filter_reverse,
    List.head?_filter, List.find?_eq_some_iff_append]
  constructor
  · rintro ⟨-, after, before, he, ha⟩
    refine ⟨before.reverse, after.reverse, ?_, ?_⟩
    · rw [← List.reverse_reverse cs, he]
      simp
    · intro c hc
      simpa [Flat.isBrace] using ha c (List.mem_reverse.mp hc)
  · rintro ⟨before, after, rfl, ha⟩
    refine ⟨rfl, after.reverse, before.reverse, by simp, ?_⟩
    intro c hc
    simpa [Flat.isBrace] using ha c (List.mem_reverse.mp hc)

end Placeholder

/-- The keys of the segments of glyphs are those of their text. -/
theorem Segment.filterMap_key?_scan (glyphs : List Glyph) :
    (scan glyphs).filterMap key? = Flat.keys (Glyph.chars glyphs) := by
  induction glyphs using induction_on_scan with
  | nil => simp [Flat.keys]
  | other glyph rest h ih =>
    rw [scan_of_ne h, List.filterMap_cons, key?, ih]
    cases glyph with
    | seam => rfl
    | char c =>
      have hne : c ≠ '\x7b' := by
        rintro rfl
        exact h rfl
      rw [Glyph.chars_char, Flat.keys, Flat.keyAtFront?_of_ne hne]
      rfl
  | unclosed rest h ih =>
    rw [scan_of_unclosed h, List.filterMap_cons, key?, ih, Glyph.chars_char, Flat.keys,
      Glyph.keyAtFront?_of_unclosed h]
    rfl
  | placeholder inner rest h ih =>
    rw [scan_placeholder h, List.filterMap_cons, key?, ih, Glyph.chars_char, Glyph.chars_append,
      Glyph.chars_char, Flat.keys_token (Glyph.isBrace_chars h)]

namespace Block

/-- The number of characters in front of a leaf. -/
def offset (block : Block) (i : Nat) : Nat :=
  ((block.leaves.take i).flatMap fun leaf ↦ leaf.text.toList).length

/-- The keys of the segments of a paragraph are those of its text. -/
theorem filterMap_key?_segments (block : Block) :
    block.segments.filterMap Segment.key? = Flat.keys block.chars := by
  rw [segments, Segment.filterMap_key?_scan, Glyph.chars_ofTexts, chars_eq_flatten]

/-- Filling a paragraph leaves of each leaf what stands at the places of its characters. -/
theorem getElem?_leaves_fill (scope : Scope) (block : Block) (i : Nat) :
    (block.fill scope).leaves[i]? = block.leaves[i]?.map fun leaf ↦
      { leaf with text := String.ofList ((List.range leaf.text.toList.length).flatMap fun n ↦
          Flat.standing scope block.chars (block.offset i + n)) } := by
  have ht : (block.leaves.map fun leaf ↦ leaf.text.toList).take i =
      (block.leaves.take i).map fun leaf ↦ leaf.text.toList := List.map_take.symm
  cases hl : block.leaves with
  | nil => simp [fill_eq, withTexts, hl]
  | cons leaf leaves =>
    have hs : Glyph.texts (block.segments.flatMap (Placeholder.fillSegment scope)) =
        Glyph.spreadTexts (Flat.standing scope block.chars) 0
          (block.leaves.map fun leaf ↦ leaf.text.toList) := by
      have hc : Glyph.chars (Glyph.ofTexts (block.leaves.map fun leaf ↦ leaf.text.toList)) =
          block.chars := by
        rw [Glyph.chars_ofTexts, chars_eq_flatten]
      rw [segments, Placeholder.fill_scan_eq_spread scope _ [] (Flat.apart_nil _),
        List.nil_append, hc, hl, List.map_cons, List.length_nil, Glyph.texts_spread_ofTexts]
    rw [fill_eq, withTexts, hs, List.getElem?_zipWith, Glyph.getElem?_spreadTexts, ht,
      List.getElem?_map, ← hl]
    cases block.leaves[i]? with
    | none => rfl
    | some leaf => simp [offset, List.flatMap]

/-- Substitution in a paragraph always has a result, which is what its flat text says. The paragraph
keeps its formatting, and each leaf keeps its place and formatting: there is left of it what stands
at the places of its characters, which is the character itself, or what replaces the token that
begins there, or nothing inside of such a token. Replaced are the tokens whose key stands for a tab,
or is a path in scope that leads to a value or nowhere. With those whose path is not in scope these
are all keys of the paragraph, and a paragraph is unterminated if its last brace opens. -/
theorem substitute?_eq_flat (scope : Scope) (block : Block) :
    ∃ filled tally, block.substitute? scope = some (filled, tally) ∧
      filled.format = block.format ∧
      (∀ i, filled.leaves[i]? = block.leaves[i]?.map fun leaf : Leaf ↦
        { leaf with text := String.ofList ((List.range leaf.text.toList.length).flatMap fun n ↦
            Flat.standing scope block.chars (block.offset i + n)) }) ∧
      (∀ key text, Flat.replacement? scope key = some text ↔
        (key = Placeholder.tabKey ∧ text = ['\t']) ∨
          (key ≠ Placeholder.tabKey ∧ Placeholder.isPath key = true ∧
            ((∃ value, scope.resolve (String.ofList key) = .found value ∧
                text = value.render.toList) ∨
              (scope.resolve (String.ofList key) = .missing ∧ text = [])))) ∧
      (∀ key, Placeholder.filling scope key = .missing ↔
        key ≠ Placeholder.tabKey ∧ Placeholder.isPath key = true ∧
          scope.resolve (String.ofList key) = .missing) ∧
      tally.replaced =
        (Flat.keys block.chars).countP (fun key ↦ (Flat.replacement? scope key).isSome) ∧
      tally.missing =
        (Flat.keys block.chars).countP (fun key ↦ Placeholder.filling scope key = .missing) ∧
      tally.replaced + tally.unqualified = block.keys.length ∧
      (tally.unterminated = true ↔ ∃ before after,
        block.chars = before ++ '\x7b' :: after ∧ ∀ c ∈ after, Flat.isBrace c = false) := by
  have hs : block.substitute? scope = some (block.fill scope, block.tally scope) := by
    rw [fill_eq, tally_eq, substitute?_eq]
  have ht := Placeholder.sum_tallySegment scope block.segments
  rw [filterMap_key?_segments] at ht
  refine ⟨_, _, hs, ?_, getElem?_leaves_fill scope block,
    fun _ _ ↦ Placeholder.replacement?_eq_some_iff, fun _ ↦ Placeholder.filling_eq_missing_iff,
    ?_, ?_, ?_, ?_⟩
  · rw [fill_eq, withTexts]
  · rw [tally_eq, ht]
  · rw [tally_eq, ht]
  · rw [tally_eq, ht, keys_eq, List.length_map, filterMap_key?_segments]
    exact Placeholder.countP_replaced_add_unqualified scope _
  · rw [tally_eq]
    exact Placeholder.endsOpen_iff

end Block

end LoanClosing
