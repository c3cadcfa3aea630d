import LoanClosing.Proofs.Expansion.Origin
import LoanClosing.Proofs.Model.Recased
import LoanClosing.Proofs.Placeholder.Flat
import LoanClosing.Proofs.Text.Words

/-!
# Placeholders in another case

A paragraph with a placeholder whose path is written in another case behind its first segment has
the same segments but for this placeholder. It is filled in the same way, so it counts for the same,
and where a text takes its place the filled paragraphs are equal. A placeholder that is left as
authored is left as each author wrote it.
-/

namespace LoanClosing

namespace Glyph

/-- A glyph with its letter made small. -/
def lower : Glyph → Glyph
  | .char c => .char c.toLower
  | .seam => .seam

/-- The glyphs of a path with all that is behind its first segment made small. -/
def foldTail : List Glyph → List Glyph
  | [] => []
  | .seam :: rest => .seam :: foldTail rest
  | .char c :: rest => if c = '.' then .char c :: rest.map lower else .char c :: foldTail rest

variable {glyphs : List Glyph}

theorem isBrace_lower (glyph : Glyph) : glyph.lower.isBrace = glyph.isBrace := by
  cases glyph with
  | seam => rfl
  | char c => exact Text.apply_toLower (fun c ↦ (char c).isBrace) (by decide) c

theorem chars_map_lower (glyphs : List Glyph) :
    chars (glyphs.map lower) = (chars glyphs).map Char.toLower := by
  induction glyphs with
  | nil => rfl
  | cons glyph glyphs ih =>
    cases glyph with
    | seam => exact ih
    | char c => rw [List.map_cons, lower, chars_char, ih, chars_char, List.map_cons]

/-- The seams in a path do not count for where its first segment ends. -/
theorem chars_foldTail (glyphs : List Glyph) :
    chars (foldTail glyphs) = Text.foldTail (chars glyphs) := by
  induction glyphs with
  | nil => rfl
  | cons glyph glyphs ih =>
    cases glyph with
    | seam => exact ih
    | char c =>
      rw [foldTail, chars_char, Text.foldTail]
      by_cases h : c = '.'
      · rw [if_pos h, if_pos h, chars_char, chars_map_lower]
      · rw [if_neg h, if_neg h, chars_char, ih]

/-- What does not tell a glyph from its small one does not tell a path from the small one. -/
theorem map_foldTail {α : Type} {f : Glyph → α} (h : ∀ glyph, f glyph.lower = f glyph)
    (glyphs : List Glyph) : (foldTail glyphs).map f = glyphs.map f := by
  induction glyphs with
  | nil => rfl
  | cons glyph glyphs ih =>
    cases glyph with
    | seam => rw [foldTail, List.map_cons, ih, List.map_cons]
    | char c =>
      rw [foldTail]
      by_cases hc : c = '.'
      · rw [if_pos hc, List.map_cons, List.map_map, List.map_cons]
        exact congrArg _ (List.map_congr_left fun glyph _ ↦ h glyph)
      · rw [if_neg hc, List.map_cons, ih, List.map_cons]

/-- The seams of a path stay. -/
theorem filter_seam_foldTail (glyphs : List Glyph) :
    (foldTail glyphs).filter (· == .seam) = glyphs.filter (· == .seam) := by
  have hseam (glyph : Glyph) : (glyph.lower == seam) = (glyph == seam) := by cases glyph <;> rfl
  rw [List.filter_beq, List.filter_beq, List.count_eq_countP, List.count_eq_countP]
  congr 1
  have hmap := congrArg (List.countP id) (map_foldTail (f := (· == seam)) hseam glyphs)
  rwa [List.countP_map, List.countP_map] at hmap

end Glyph

namespace Segment

variable {inner : List Glyph}

/-- An opening brace begins a new segment, whatever stands in front of it. -/
theorem scan_append_open (before rest : List Glyph) :
    scan (before ++ .char '\x7b' :: rest) = scan before ++ scan (.char '\x7b' :: rest) := by
  induction before using induction_on_scan with
  | nil => rw [scan_nil, List.nil_append, List.nil_append]
  | other glyph before h ih =>
    rw [List.cons_append, scan_of_ne h, scan_of_ne h, ih, List.cons_append]
  | unclosed before h ih =>
    have hopen : ∀ more, (before ++ .char '\x7b' :: rest).dropWhile (!·.isBrace) ≠
        .char '\x7d' :: more := by
      intro more he
      rw [List.dropWhile_append] at he
      split at he
      · rw [List.dropWhile_cons_of_neg (by decide)] at he
        cases he
      · next hne =>
        cases hd : before.dropWhile (!·.isBrace) with
        | nil => exact hne (by rw [hd]; rfl)
        | cons glyph more' =>
          rw [hd, List.cons_append] at he
          rw [(List.cons.inj he).1] at hd
          exact h more' hd
    rw [List.cons_append, scan_of_unclosed hopen, scan_of_unclosed h, ih, List.cons_append]
  | placeholder inner before h ih =>
    have happend : .char '\x7b' :: (inner ++ .char '\x7d' :: before) ++ .char '\x7b' :: rest =
        .char '\x7b' :: (inner ++ .char '\x7d' :: (before ++ .char '\x7b' :: rest)) := by simp
    rw [happend, scan_placeholder h, scan_placeholder h, ih, List.cons_append]

/-- A placeholder is a segment wherever it stands. -/
theorem scan_append_placeholder (before after : List Glyph)
    (h : ∀ glyph ∈ inner, glyph.isBrace = false) :
    scan (before ++ (placeholder inner).glyphs ++ after) =
      scan before ++ placeholder inner :: scan after := by
  have happend : before ++ (placeholder inner).glyphs ++ after =
      before ++ .char '\x7b' :: (inner ++ .char '\x7d' :: after) := by simp [glyphs]
  rw [happend, scan_append_open, scan_placeholder h]

end Segment

namespace Placeholder

variable {scope : Scope} {key other : List Char}

theorem isPath_foldTail (key : List Char) : isPath (Text.foldTail key) = isPath key := by
  obtain ⟨head, more, hs, hf⟩ := Text.exists_splitAt_foldTail key
  have hall : Text.isIdentifier ∘ List.map Char.toLower = Text.isIdentifier :=
    funext Text.isIdentifier_map_toLower
  rw [isPath, isPath, Text.isDottedName, Text.isDottedName, hs, hf, List.all_cons, List.all_cons,
    List.all_map, hall]

/-- The key that stands for a tab has one segment. -/
theorem foldTail_eq_tabKey_iff : Text.foldTail key = tabKey ↔ key = tabKey := by
  obtain ⟨head, tail, rfl, hf, -, ht⟩ := Text.exists_foldTail_eq key
  rw [hf]
  rcases ht with rfl | ⟨rest, rfl⟩
  · rw [List.map_nil]
  · have hpoint (tail : List Char) : head ++ '.' :: tail ≠ tabKey := by
      intro he
      have hmem : '.' ∈ tabKey := he ▸ List.mem_append_right head List.mem_cons_self
      exact absurd hmem (by decide)
    have hsmall : ('.' :: rest).map Char.toLower = '.' :: rest.map Char.toLower := rfl
    rw [hsmall]
    exact iff_of_false (hpoint _) (hpoint _)

theorem filling_foldTail (h : scope.KeysDiffer) (key : List Char) :
    filling scope (Text.foldTail key) = filling scope key := by
  have hresolve := Scope.resolve_foldTail h (String.ofList key)
  rw [String.toList_ofList] at hresolve
  rw [filling, filling, isPath_foldTail, hresolve]
  simp only [foldTail_eq_tabKey_iff]

/-- The same becomes of a placeholder in any case behind the first segment of its path. -/
theorem filling_eq_of_foldTail_eq (h : scope.KeysDiffer)
    (hk : Text.foldTail other = Text.foldTail key) : filling scope other = filling scope key := by
  rw [← filling_foldTail h other, hk, filling_foldTail h]

end Placeholder

namespace Block

/-- One paragraph is another with one placeholder written in another case behind the first segment
of its path. The glyphs around the placeholder are the same; its own may run over several leaves. -/
structure Recased (block other : Block) (before inner inner' after : List Glyph) : Prop where
  format : other.SameFormat block
  glyphs : Glyph.ofTexts (block.leaves.map (·.text.toList)) =
    before ++ (Segment.placeholder inner).glyphs ++ after
  glyphs' : Glyph.ofTexts (other.leaves.map (·.text.toList)) =
    before ++ (Segment.placeholder inner').glyphs ++ after
  plain : ∀ glyph ∈ inner, glyph.isBrace = false
  folded : Glyph.foldTail inner' = Glyph.foldTail inner

variable {scope : Scope} {block other : Block} {before inner inner' after : List Glyph}

/-- With the same formatting and new texts, paragraphs are the same. -/
theorem withTexts_eq_of_sameFormat (h : other.SameFormat block) (texts : List (List Char)) :
    other.withTexts texts = block.withTexts texts := by
  obtain ⟨hformat, -, hformats⟩ := h
  have hleaves (block : Block) : block.withTexts texts =
      ⟨List.zipWith (fun format cs ↦ ⟨String.ofList cs, format⟩)
        (block.leaves.map (·.format)) texts, block.format⟩ := by
    rw [withTexts, List.zipWith_map_left]
  rw [hleaves other, hleaves block, hformat, hformats]

namespace Recased

theorem plain' (h : block.Recased other before inner inner' after) :
    ∀ glyph ∈ inner', glyph.isBrace = false := by
  have hmap : inner'.map Glyph.isBrace = inner.map Glyph.isBrace := by
    rw [← Glyph.map_foldTail Glyph.isBrace_lower inner', h.folded,
      Glyph.map_foldTail Glyph.isBrace_lower]
  intro glyph hg
  have hmem : glyph.isBrace ∈ inner.map Glyph.isBrace := hmap ▸ List.mem_map_of_mem hg
  obtain ⟨same, hs, he⟩ := List.mem_map.1 hmem
  rw [← he]
  exact h.plain same hs

theorem segments_eq (h : block.Recased other before inner inner' after) :
    block.segments = Segment.scan before ++ .placeholder inner :: Segment.scan after := by
  rw [segments, h.glyphs, Segment.scan_append_placeholder before after h.plain]

theorem segments_eq' (h : block.Recased other before inner inner' after) :
    other.segments = Segment.scan before ++ .placeholder inner' :: Segment.scan after := by
  rw [segments, h.glyphs', Segment.scan_append_placeholder before after h.plain']

theorem filling_eq (h : block.Recased other before inner inner' after) (hs : scope.KeysDiffer) :
    Placeholder.filling scope (Glyph.chars inner') =
      Placeholder.filling scope (Glyph.chars inner) := by
  apply Placeholder.filling_eq_of_foldTail_eq hs
  rw [← Glyph.chars_foldTail, h.folded, Glyph.chars_foldTail]

/-- No brace comes or goes with the case of a path. -/
theorem endsOpen_eq (h : block.Recased other before inner inner' after) :
    Placeholder.endsOpen other.chars = Placeholder.endsOpen block.chars := by
  have hnone {inner : List Glyph} (hp : ∀ glyph ∈ inner, glyph.isBrace = false) :
      (Glyph.chars inner).filter (fun c ↦ c == '\x7b' || c == '\x7d') = [] := by
    rw [List.filter_eq_nil_iff]
    intro c hc
    obtain ⟨glyph, hg, hgc⟩ := List.mem_filterMap.1 hc
    have hbrace := hp glyph hg
    cases glyph with
    | seam => cases hgc
    | char d =>
      obtain rfl := Option.some.inj hgc
      simpa [Glyph.isBrace] using hbrace
  rw [chars_eq_flatten, chars_eq_flatten, ← Glyph.chars_ofTexts, ← Glyph.chars_ofTexts, h.glyphs,
    h.glyphs']
  simp only [Placeholder.endsOpen, Segment.glyphs, Glyph.chars_append, Glyph.chars_char,
    List.filter_append, List.filter_cons, hnone h.plain, hnone h.plain']

/-- The placeholders are filled in the same ways. -/
theorem tally_eq (h : block.Recased other before inner inner' after) (hs : scope.KeysDiffer) :
    other.tally scope = block.tally scope := by
  have htally : Placeholder.tallySegment scope (.placeholder inner') =
      Placeholder.tallySegment scope (.placeholder inner) := by
    rw [Placeholder.tallySegment, Placeholder.tallySegment, h.filling_eq hs]
  rw [Block.tally_eq, Block.tally_eq, h.segments_eq, h.segments_eq', h.endsOpen_eq,
    List.map_append, List.map_append, List.map_cons, List.map_cons, htally]

/-- What stands around the placeholder is filled in the same way. -/
theorem exists_fill_eq (h : block.Recased other before inner inner' after) (scope : Scope) :
    ∃ front back,
      block.fill scope = block.withTexts (Glyph.texts
        (front ++ Placeholder.fillSegment scope (.placeholder inner) ++ back)) ∧
      other.fill scope = block.withTexts (Glyph.texts
        (front ++ Placeholder.fillSegment scope (.placeholder inner') ++ back)) := by
  refine ⟨(Segment.scan before).flatMap (Placeholder.fillSegment scope),
    (Segment.scan after).flatMap (Placeholder.fillSegment scope), ?_, ?_⟩
  · rw [Block.fill_eq, h.segments_eq, List.flatMap_append, List.flatMap_cons, List.append_assoc]
  · rw [Block.fill_eq, h.segments_eq', List.flatMap_append, List.flatMap_cons, List.append_assoc,
      withTexts_eq_of_sameFormat h.format]

/-- Where a text takes the place of the placeholder, the filled paragraphs are equal. -/
theorem fill_eq (h : block.Recased other before inner inner' after) (hs : scope.KeysDiffer)
    (hr : (Flat.replacement? scope (Glyph.chars inner)).isSome = true) :
    other.fill scope = block.fill scope := by
  obtain ⟨front, back, hb, ho⟩ := h.exists_fill_eq scope
  have hseam : inner'.filter (· == .seam) = inner.filter (· == .seam) := by
    rw [← Glyph.filter_seam_foldTail, h.folded, Glyph.filter_seam_foldTail]
  have hfill : Placeholder.fillSegment scope (.placeholder inner') =
      Placeholder.fillSegment scope (.placeholder inner) := by
    rw [Flat.replacement?] at hr
    rw [Placeholder.fillSegment, Placeholder.fillSegment, h.filling_eq hs, hseam]
    cases hf : Placeholder.filling scope (Glyph.chars inner) with
    | put text => rfl
    | missing => rfl
    | keep => simp only [hf, Option.isSome_none, Bool.false_eq_true] at hr
    | unqualified => simp only [hf, Option.isSome_none, Bool.false_eq_true] at hr
  rw [ho, hb, hfill]

/-- Where nothing takes its place, the placeholder stays in either case. -/
theorem exists_fill_kept (h : block.Recased other before inner inner' after)
    (hs : scope.KeysDiffer) (hr : Flat.replacement? scope (Glyph.chars inner) = none) :
    ∃ front back,
      block.fill scope = block.withTexts (Glyph.texts
        (front ++ (Segment.placeholder inner).glyphs ++ back)) ∧
      other.fill scope = block.withTexts (Glyph.texts
        (front ++ (Segment.placeholder inner').glyphs ++ back)) := by
  have hkept {inner : List Glyph} (hn : Flat.replacement? scope (Glyph.chars inner) = none) :
      Placeholder.fillSegment scope (.placeholder inner) = (Segment.placeholder inner).glyphs := by
    rw [Flat.replacement?] at hn
    rw [Placeholder.fillSegment]
    cases hf : Placeholder.filling scope (Glyph.chars inner) with
    | keep => rfl
    | unqualified => rfl
    | put text => simp only [hf, reduceCtorEq] at hn
    | missing => simp only [hf, reduceCtorEq] at hn
  have hr' : Flat.replacement? scope (Glyph.chars inner') = none := by
    rw [Flat.replacement?, h.filling_eq hs]
    exact hr
  obtain ⟨front, back, hb, ho⟩ := h.exists_fill_eq scope
  rw [hkept hr] at hb
  rw [hkept hr'] at ho
  exact ⟨front, back, hb, ho⟩

end Recased

end Block

end LoanClosing
