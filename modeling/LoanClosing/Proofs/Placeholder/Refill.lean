import LoanClosing.Proofs.Model.Texts
import LoanClosing.Proofs.Placeholder.Leafwise

/-!
# Filling what is filled

In a paragraph that never opens a brace while one is open, and with data that bring in no opening
brace, filling removes the tokens that it replaces and makes no new ones: the tokens that are left
are the others, in order. A paragraph none of whose tokens is replaced is left as it is, leaf by
leaf.
-/

namespace LoanClosing

namespace Flat

/-- Whether a text opens a brace while one is open; the first argument says whether one is open in
front of it. -/
def nests : Bool → List Char → Bool
  | _, [] => false
  | isOpen, c :: cs =>
    if c = '\x7b' then isOpen || nests true cs else nests (isOpen && c != '\x7d') cs

/-- Behind characters that are no braces, as much is open as in front of them. -/
theorem nests_append {cs : List Char} (h : ∀ c ∈ cs, isBrace c = false) (isOpen : Bool)
    (rest : List Char) : nests isOpen (cs ++ rest) = nests isOpen rest := by
  induction cs with
  | nil => rfl
  | cons c cs ih =>
    have hc := h c List.mem_cons_self
    simp only [isBrace, Bool.or_eq_false_iff, beq_eq_false_iff_ne] at hc
    rw [List.cons_append, nests, if_neg hc.1, bne_iff_ne.mpr hc.2, Bool.and_true]
    exact ih fun d hd ↦ h d (List.mem_cons_of_mem c hd)

/-- Behind a token nothing is open. -/
theorem nests_token {key : List Char} (h : ∀ c ∈ key, isBrace c = false) (rest : List Char) :
    nests false ('\x7b' :: (key ++ '\x7d' :: rest)) = nests false rest := by
  rw [nests, if_pos rfl, nests_append h, nests]
  simp

/-- Where a brace is open and none is opened, a brace that is never closed is the last one. -/
theorem isBrace_of_unclosed {glyphs : List Glyph}
    (h : ∀ rest, glyphs.dropWhile (!·.isBrace) ≠ .char '\x7d' :: rest)
    (hn : nests true (Glyph.chars glyphs) = false) : ∀ glyph ∈ glyphs, glyph.isBrace = false := by
  cases hd : glyphs.dropWhile (!·.isBrace) with
  | nil =>
    intro glyph hg
    have ha := List.dropWhile_eq_nil_iff.mp hd glyph hg
    simpa using ha
  | cons glyph rest =>
    -- The next brace does not close, so it opens, while the first one is open.
    have hb : glyph.isBrace = true := by
      have hh := List.head_dropWhile_not (!·.isBrace) (l := glyphs) (by simp [hd])
      simpa [hd] using hh
    have hg : glyph = .char '\x7b' := by
      simp only [Glyph.isBrace, Bool.or_eq_true, beq_iff_eq] at hb
      exact hb.resolve_right fun he ↦ h rest (by rw [hd, he])
    have hs : glyphs = glyphs.takeWhile (!·.isBrace) ++ .char '\x7b' :: rest := by
      rw [← hg, ← hd, List.takeWhile_append_dropWhile]
    have hf : ∀ c ∈ Glyph.chars (glyphs.takeWhile (!·.isBrace)), isBrace c = false := by
      apply Glyph.isBrace_chars
      intro other ho
      simpa using List.mem_takeWhile_imp ho
    rw [hs, Glyph.chars_append, nests_append hf, Glyph.chars_char, nests] at hn
    simp at hn

end Flat

namespace Segment

/-- Glyphs that are no braces make up no placeholder. -/
theorem scan_of_noBrace {glyphs : List Glyph} (h : ∀ glyph ∈ glyphs, glyph.isBrace = false) :
    scan glyphs = glyphs.map .plain := by
  induction glyphs with
  | nil => exact scan_nil
  | cons glyph glyphs ih =>
    have hg : glyph ≠ .char '\x7b' := by
      rintro rfl
      exact absurd (h _ List.mem_cons_self) (by decide)
    rw [scan_of_ne hg, ih fun other ho ↦ h other (List.mem_cons_of_mem glyph ho), List.map_cons]

end Segment

namespace Placeholder

/-- Filling glyphs that are no braces leaves them as they are. -/
theorem fill_scan_of_noBrace (scope : Scope) {glyphs : List Glyph}
    (h : ∀ glyph ∈ glyphs, glyph.isBrace = false) :
    (Segment.scan glyphs).flatMap (fillSegment scope) = glyphs := by
  rw [Segment.scan_of_noBrace h, List.flatMap_map]
  exact List.flatMap_singleton' glyphs

/-- What replaces a token holds no opening brace, if the data in scope hold none. -/
theorem openBrace_notMem_replacement? {scope : Scope} {key text : List Char}
    (hs : ∀ s ∈ scope.texts, '\x7b' ∉ s.toList)
    (h : Flat.replacement? scope key = some text) : '\x7b' ∉ text := by
  rcases replacement?_eq_some_iff.mp h with ⟨-, rfl⟩ | ⟨-, -, ⟨value, hr, rfl⟩ | ⟨-, rfl⟩⟩
  · decide
  · exact Value.openBrace_notMem_render fun s hm ↦ hs s (Scope.texts_subset_of_resolve hr hm)
  · exact List.not_mem_nil

/-- The keys that filling leaves are those whose tokens it does not replace. -/
theorem keys_fill_scan {scope : Scope} (hs : ∀ s ∈ scope.texts, '\x7b' ∉ s.toList)
    {glyphs : List Glyph} (hn : Flat.nests false (Glyph.chars glyphs) = false) :
    Flat.keys (Glyph.chars ((Segment.scan glyphs).flatMap (fillSegment scope))) =
      (Flat.keys (Glyph.chars glyphs)).filter fun key ↦ (Flat.replacement? scope key).isNone := by
  induction glyphs using Segment.induction_on_scan with
  | nil => simp [Flat.keys]
  | other glyph rest hg ih =>
    rw [Segment.scan_of_ne hg, List.flatMap_cons, fillSegment, List.singleton_append]
    cases glyph with
    | seam => exact ih hn
    | char c =>
      have hne : c ≠ '\x7b' := by
        rintro rfl
        exact hg rfl
      rw [Glyph.chars_char, Flat.nests, if_neg hne, Bool.false_and] at hn
      rw [Glyph.chars_char, Glyph.chars_char, Flat.keys, Flat.keys, Flat.keyAtFront?_of_ne hne,
        Flat.keyAtFront?_of_ne hne, Option.toList_none, List.nil_append, List.nil_append, ih hn]
  | unclosed rest hg ih =>
    have ho : Flat.nests true (Glyph.chars rest) = false := by
      simpa [Flat.nests] using hn
    have hb := Flat.isBrace_of_unclosed hg ho
    have hk := Segment.filterMap_key?_scan rest
    rw [Segment.scan_of_noBrace hb] at hk
    rw [Segment.scan_of_unclosed hg, List.flatMap_cons, fillSegment, List.singleton_append,
      fill_scan_of_noBrace scope hb, Glyph.chars_char, Flat.keys, Glyph.keyAtFront?_of_unclosed hg,
      ← hk]
    simp [List.filterMap_map, Function.comp_def, Segment.key?]
  | placeholder inner rest hg ih =>
    have hb := Glyph.isBrace_chars hg
    rw [Glyph.chars_char, Glyph.chars_append, Glyph.chars_char, Flat.nests_token hb] at hn
    rw [Segment.scan_placeholder hg, List.flatMap_cons, Glyph.chars_append, Glyph.chars_char,
      Glyph.chars_append, Glyph.chars_char, Flat.keys_token hb, fillSegment_eq]
    cases hr : Flat.replacement? scope (Glyph.chars inner) with
    | some text =>
      have ht : ∀ c ∈ text, c ≠ '\x7b' := by
        rintro c hm rfl
        exact openBrace_notMem_replacement? hs hr hm
      rw [Glyph.chars_append, Glyph.chars_ofChars, Glyph.chars_filter_seam, List.append_nil,
        Flat.keys_append_of_noOpen ht, ih hn, List.filter_cons_of_neg (by simp [hr])]
    | none =>
      have hp : Glyph.chars (Segment.placeholder inner).glyphs =
          '\x7b' :: (Glyph.chars inner ++ ['\x7d']) := by
        simp [Segment.glyphs]
      rw [hp, List.cons_append, List.append_assoc, List.singleton_append, Flat.keys_token hb, ih hn,
        List.filter_cons_of_pos (by simp [hr])]

/-- A token that is not replaced inside a loop is not replaced around it. -/
theorem replacement?_eq_none_of_withItem {scope : Scope} {name : String} {item : Value}
    {key : List Char} (h : Flat.replacement? (scope.withItem name item) key = none) :
    Flat.replacement? scope key = none := by
  rw [Flat.replacement?, filling] at h ⊢
  by_cases ht : key = tabKey
  · simp [ht] at h
  · by_cases hp : isPath key = true
    · cases hr : (scope.withItem name item).resolve (String.ofList key) with
      | unqualified => simp [ht, hp, Scope.resolve_eq_unqualified_of_withItem hr]
      | found value => simp [ht, hp, hr] at h
      | missing => simp [ht, hp, hr] at h
    · simp [ht, hp]

end Placeholder

namespace Block

/-- A paragraph with its own texts in its leaves. -/
theorem withTexts_self (block : Block) :
    block.withTexts (block.leaves.map fun leaf ↦ leaf.text.toList) = block := by
  obtain ⟨leaves, format⟩ := block
  simp only [withTexts, mk.injEq, and_true]
  induction leaves with
  | nil => rfl
  | cons leaf leaves ih => rw [List.map_cons, List.zipWith_cons_cons, String.ofList_toList, ih]

/-- A paragraph of whose tokens none is replaced is left as it is. -/
theorem fill_eq_self {scope : Scope} {block : Block}
    (h : ∀ key ∈ Flat.keys block.chars, Flat.replacement? scope key = none) :
    block.fill scope = block := by
  have hf : block.segments.flatMap (Placeholder.fillSegment scope) =
      block.segments.flatMap Segment.glyphs := by
    apply List.flatMap_congr
    intro segment hs
    cases segment with
    | plain glyph => rfl
    | placeholder inner =>
      have hk : Glyph.chars inner ∈ Flat.keys block.chars := by
        rw [← filterMap_key?_segments]
        exact List.mem_filterMap.mpr ⟨_, hs, rfl⟩
      rw [Placeholder.fillSegment_eq, h _ hk]
  obtain ⟨leaves, format⟩ := block
  cases leaves with
  | nil => rfl
  | cons leaf leaves =>
    rw [fill_eq, hf, segments, Segment.flatMap_glyphs_scan, List.map_cons, Glyph.texts_ofTexts]
    exact withTexts_self ⟨leaf :: leaves, format⟩

/-- Where none of the tokens is replaced, none has a path that leads nowhere. -/
theorem missing_tally_eq_zero {scope : Scope} {block : Block}
    (h : ∀ key ∈ Flat.keys block.chars, Flat.replacement? scope key = none) :
    (block.tally scope).missing = 0 := by
  rw [tally_eq, Placeholder.sum_tallySegment, filterMap_key?_segments, List.countP_eq_zero]
  intro key hk
  have hr := h key hk
  rw [Flat.replacement?] at hr
  cases hf : Placeholder.filling scope key <;> simp [hf] at hr ⊢

/-- The keys of a filled paragraph are those of the paragraph whose tokens are not replaced. -/
theorem keys_chars_fill {scope : Scope} {block : Block}
    (hs : ∀ s ∈ scope.texts, '\x7b' ∉ s.toList) (hn : Flat.nests false block.chars = false) :
    Flat.keys (block.fill scope).chars =
      (Flat.keys block.chars).filter fun key ↦ (Flat.replacement? scope key).isNone := by
  have hc : block.chars =
      Glyph.chars (Glyph.ofTexts (block.leaves.map fun leaf ↦ leaf.text.toList)) := by
    rw [Glyph.chars_ofTexts, chars_eq_flatten]
  rw [hc] at hn
  rw [chars_fill, segments, Placeholder.keys_fill_scan hs hn, ← hc]

end Block

end LoanClosing
